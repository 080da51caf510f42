import VnfMonitoring.HostSystem
import VnfMonitoring.WireOrder

set_option autoImplicit false

/- One receive buffer for all connections. What a receive queues and registers depends on
what earlier frames left in it, unless the frame covers the bytes that its header and the
registration read. -/
namespace VnfMonitoring.HostReceive

open VnfMonitoring.Memory VnfMonitoring.Socket VnfMonitoring.TcpFrame VnfMonitoring.Bpapp
  VnfMonitoring.HostSock VnfMonitoring.HostReport VnfMonitoring.HostSystem
  VnfMonitoring.ReportRoundTrip VnfMonitoring.WireOrder

/-- The hosts agree on `alist` and `hostConf`. -/
structure SameSystems (s other : Host) : Prop where
  alist : other.tables.alist = s.tables.alist
  hostConf : other.tables.vmcSystem = s.tables.vmcSystem

/-- The blocks that a receive queues, and the addresses of its slot behind it. -/
structure Outcome where
  queued : List Block
  alistAddr : UInt32
  systemAddr : UInt32

def receiveOutcome (order : ByteOrder) (s : Host) (i : Slot) (events : List RecvEvent) :
    Option Outcome :=
  (receiveStep order s i events).map fun next =>
    { queued := (next.fifo.drop s.fifo.length).map Request.block
      alistAddr := (next.tables.alist i).sysinfo.systemaddr
      systemAddr := (next.tables.vmcSystem i).systemaddr }

/-- The frame has the bytes that are read: its header, as many bytes behind it as the
header says, and the address if the slot is not registered. -/
structure Covers (order : ByteOrder) (systemport : UInt16) (frame : List UInt8) : Prop where
  message : defaultTcpComhdrLength + (wireHalf order frame 10).toNat ≤ frame.length
  address : systemport = 0 → defaultTcpComhdrLength + 4 ≤ frame.length

/-- A block as the bytes of a buffer give it. -/
structure ReadFrom (order : ByteOrder) (i : Slot) (bytes : List UInt8) (block : Block) : Prop where
  systemid : block.systemid = wireWord order bytes 4
  msgtype : block.msgtype = wireHalf order bytes 8
  msgsize : block.msgsize = wireHalf order bytes 10
  alistIdx : block.alistIdx = i
  message : block.message.toList =
    (bytes.drop defaultTcpComhdrLength).take (wireHalf order bytes 10).toNat

theorem Block.ext_of {block other : Block} (systemid : block.systemid = other.systemid)
    (msgtype : block.msgtype = other.msgtype) (msgsize : block.msgsize = other.msgsize)
    (alistIdx : block.alistIdx = other.alistIdx)
    (message : block.message.toList = other.message.toList) : block = other := by
  cases block
  cases other
  simp only at systemid msgtype msgsize alistIdx message
  subst systemid msgtype msgsize alistIdx
  congr 1
  exact Bytes.ext message

section Bytes

variable {order : ByteOrder} {bytes : List UInt8} {offset : Nat}

theorem bytesOf_wireWord (inside : offset + 4 ≤ bytes.length) :
    ByteOrder.big.bytesOf 4 (wireWord order bytes offset).toNat = (bytes.drop offset).take 4 := by
  rw [wireWord, order.bytesOf_ntohl_valueOf]
  rw [List.length_take, List.length_drop]
  omega

theorem bytesOf_wireHalf (inside : offset + 2 ≤ bytes.length) :
    ByteOrder.big.bytesOf 2 (wireHalf order bytes offset).toNat = (bytes.drop offset).take 2 := by
  rw [wireHalf, order.bytesOf_ntohs_valueOf]
  rw [List.length_take, List.length_drop]
  omega

theorem wireWord_of_load32 {size : Nat} {buf : Bytes size} {x : UInt32}
    (loaded : load32 order buf offset = some x) :
    order.ntohl x = wireWord order buf.toList offset := by
  obtain ⟨bytes, found, rfl⟩ := Option.map_eq_some_iff.mp loaded
  rw [(loadBytes_eq found).2]
  rfl

/-- Windows of two buffers that agree, agree byte by byte. -/
theorem getElem?_window {other : List UInt8} {width place : Nat}
    (same : (bytes.drop offset).take width = (other.drop offset).take width)
    (above : offset ≤ place) (below : place < offset + width) : bytes[place]? = other[place]? := by
  have here := congrArg (fun window => window[place - offset]?) same
  simp only [List.getElem?_take, List.getElem?_drop] at here
  rw [if_pos (by omega), if_pos (by omega), Nat.add_sub_of_le above] at here
  exact here

end Bytes

section Buffer

variable {order : ByteOrder} {size : Nat} {buf rBuf : Bytes size} {frame : List UInt8}

/-- Behind the header of the frame, a buffer that received it has its bytes. -/
theorem drop_frame (stored : storeBytes buf tpktHeaderSize (frame.drop tpktHeaderSize) = some rBuf)
    {offset width : Nat} (header : tpktHeaderSize ≤ offset) (inside : offset + width ≤ frame.length) :
    (rBuf.toList.drop offset).take width = (frame.drop offset).take width := by
  obtain ⟨room, layout⟩ := storeBytes_eq stored
  have front : (buf.toList.take tpktHeaderSize).length = tpktHeaderSize := by
    rw [List.length_take, buf.length_toList]
    omega
  have rest : rBuf.toList.drop offset = frame.drop offset ++
      buf.toList.drop (tpktHeaderSize + (frame.drop tpktHeaderSize).length) := by
    obtain ⟨past, rfl⟩ := Nat.exists_eq_add_of_le header
    rw [layout, List.append_assoc, ← List.drop_drop, List.drop_left' front,
      List.drop_append_of_le_length (by rw [List.length_drop]; omega), List.drop_drop]
  rw [rest, List.take_append_of_le_length (by rw [List.length_drop]; omega)]

/-- Past the frame it has the bytes it had before. -/
theorem getElem?_leftover
    (stored : storeBytes buf tpktHeaderSize (frame.drop tpktHeaderSize) = some rBuf)
    (body : tpktHeaderSize ≤ frame.length) {place : Nat} (past : frame.length ≤ place) :
    rBuf.toList[place]? = buf.toList[place]? := by
  obtain ⟨room, layout⟩ := storeBytes_eq stored
  have written : tpktHeaderSize + (frame.drop tpktHeaderSize).length = frame.length := by
    rw [List.length_drop]
    omega
  have front : (buf.toList.take tpktHeaderSize ++ frame.drop tpktHeaderSize).length =
      frame.length := by
    rw [List.length_append, List.length_take, buf.length_toList]
    omega
  rw [layout, written, List.getElem?_append_right (by rw [front]; exact past), front,
    List.getElem?_drop, Nat.add_sub_of_le past]

/-- `TcpdSock_Event` queues the block that the bytes of the buffer give. -/
theorem tcpdSockEvent_readFrom (order : ByteOrder) (i : Slot) (buf : Bytes size)
    (room : 12 + 65535 ≤ size) :
    ∃ changed block, tcpdSockEvent order i buf = some (changed, block) ∧
      ReadFrom order i buf.toList block := by
  have length := buf.length_toList
  let header : CommonTcpmsg :=
    { tpktHdr := 0
      systemId := wireWord order buf.toList 4
      msgType := wireHalf order buf.toList 8
      msgSize := wireHalf order buf.toList 10 }
  have fields : ((header.hton order).image order).drop 4 =
      (buf.toList.drop 4).take 4 ++ (buf.toList.drop 8).take 2 ++ (buf.toList.drop 10).take 2 := by
    have image : (header.hton order).image order = order.bytesOf 4 header.tpktHdr.toNat ++
        (order.bytesOf 4 (order.htonl header.systemId).toNat ++
          order.bytesOf 2 (order.htons header.msgType).toNat ++
          order.bytesOf 2 (order.htons header.msgSize).toNat) := by
      simp only [CommonTcpmsg.image, CommonTcpmsg.hton, List.append_assoc]
    rw [image, List.drop_left' (ByteOrder.bytesOf_length ..), ByteOrder.bytesOf_htonl,
      ByteOrder.bytesOf_htons, ByteOrder.bytesOf_htons, bytesOf_wireWord (by omega),
      bytesOf_wireHalf (by omega), bytesOf_wireHalf (by omega)]
  have short := (wireHalf order buf.toList 10).toNat_lt
  have whole : ((buf.toList.drop 12).take header.msgSize.toNat).length = header.msgSize.toNat := by
    rw [List.length_take, List.length_drop]
    simp only [header]
    omega
  have layout : buf.toList = buf.toList.take 4 ++ ((header.hton order).image order).drop 4 ++
      (buf.toList.drop 12).take header.msgSize.toNat ++
      (buf.toList.drop 12).drop header.msgSize.toNat := by
    have cut (start width : Nat) : (buf.toList.drop start).take width ++
        buf.toList.drop (start + width) = buf.toList.drop start := by
      rw [← List.drop_drop, List.take_append_drop]
    rw [fields]
    simp only [List.append_assoc, List.take_append_drop, cut 10 2, cut 8 2, cut 4 4]
  obtain ⟨changed, block, queued, systemid, msgtype, slot, message⟩ :=
    tcpdSockEvent_image (by rw [List.length_take]; omega) i header whole layout
  refine ⟨changed, block, queued, systemid, msgtype, ?_, slot, message⟩
  apply UInt16.toNat_inj.mp
  rw [← block.message.length_toList, message, whole]

end Buffer

section Outcome

variable {order : ByteOrder} {i : Slot} {events : List RecvEvent} {frame : List UInt8}

theorem frame_room (next : FrameNext order events frame) :
    frame.length ≤ TcpFraming.hostBufSize :=
  (tpktLength_le next.length).trans (by decide)

theorem register_bytes (order : ByteOrder) (t : HostTables) (i : Slot) {size : Nat}
    (buf : Bytes size) (room : defaultTcpComhdrLength + 4 ≤ size) :
    register order t i buf = some
      (if (t.vmcSystem i).systemport = 0 then
        registerAs t i (wireWord order buf.toList defaultTcpComhdrLength)
      else t) := by
  unfold register
  split
  · obtain ⟨vmIpaddress, loaded⟩ := Option.isSome_iff_exists.mp
      ((load32_isSome order buf defaultTcpComhdrLength).mpr room)
    rw [loaded, Option.map_some, wireWord_of_load32 loaded]
  · rfl

/-- The address of a slot behind a receive. -/
def addressAfter (order : ByteOrder) (entry : VmcSystem) (known : UInt32) (bytes : List UInt8) :
    UInt32 :=
  if entry.systemport = 0 then wireWord order bytes defaultTcpComhdrLength else known

/-- A receive queues one block, read from the buffer with the frame in it, and registers
the slot if it was not. -/
theorem receiveOutcome_frame (next : FrameNext order events frame) (s : Host) :
    ∃ rBuf block, storeBytes s.buf tpktHeaderSize (frame.drop tpktHeaderSize) = some rBuf ∧
      ReadFrom order i rBuf.toList block ∧
      receiveOutcome order s i events = some
        { queued := [block]
          alistAddr := addressAfter order (s.tables.vmcSystem i)
            (s.tables.alist i).sysinfo.systemaddr rBuf.toList
          systemAddr := addressAfter order (s.tables.vmcSystem i)
            (s.tables.vmcSystem i).systemaddr rBuf.toList } := by
  obtain ⟨result, received, positive, connected, _, stored⟩ :=
    recvFrame_next next s.buf (frame_room next)
  obtain ⟨changed, block, queued, read⟩ :=
    tcpdSockEvent_readFrom order i result.rBuf (by decide)
  refine ⟨result.rBuf, block, stored, read, ?_⟩
  have registered := register_bytes order s.tables i result.rBuf (by decide)
  have received : tcpRecv order s.tables i s.buf events = some (s.tables, result) := by
    rw [tcpRecv, received, Option.map_some, connected]
    rfl
  rw [receiveOutcome, receiveStep, received, Option.bind_some]
  simp only [positive, ↓reduceIte, registered, Option.bind_some, queued, Option.map_some,
    List.drop_left, List.map_cons, List.map_nil, addressAfter]
  split
  · simp only [registerAs, Function.update_self]
  · rfl

/-- The part of a frame that covers what is read of it gives the block. -/
theorem ReadFrom.of_frame {size : Nat} {buf rBuf : Bytes size} {block : Block}
    (read : ReadFrom order i rBuf.toList block)
    (stored : storeBytes buf tpktHeaderSize (frame.drop tpktHeaderSize) = some rBuf)
    (message : defaultTcpComhdrLength + (wireHalf order frame 10).toNat ≤ frame.length) :
    ReadFrom order i frame block := by
  rw [defaultTcpComhdrLength] at message
  have msgsize : wireHalf order rBuf.toList 10 = wireHalf order frame 10 := by
    rw [wireHalf, drop_frame stored (by decide) (by omega), wireHalf]
  refine ⟨read.systemid.trans ?_, read.msgtype.trans ?_, read.msgsize.trans msgsize, read.alistIdx,
    read.message.trans ?_⟩
  · rw [wireWord, drop_frame stored (by decide) (by omega), wireWord]
  · rw [wireHalf, drop_frame stored (by decide) (by omega), wireHalf]
  · rw [msgsize, drop_frame stored (by decide) (by rw [defaultTcpComhdrLength]; exact message)]

theorem ReadFrom.unique {bytes : List UInt8} {block other : Block}
    (read : ReadFrom order i bytes block) (also : ReadFrom order i bytes other) : block = other :=
  Block.ext_of (read.systemid.trans also.systemid.symm) (read.msgtype.trans also.msgtype.symm)
    (read.msgsize.trans also.msgsize.symm) (read.alistIdx.trans also.alistIdx.symm)
    (read.message.trans also.message.symm)

/-- What a frame gives that covers what is read of it does not depend on the buffer. -/
theorem outcome_of_covers (next : FrameNext order events frame) {s first second : Host}
    (covers : Covers order (s.tables.vmcSystem i).systemport frame)
    (same : SameSystems s first) (also : SameSystems s second) :
    receiveOutcome order first i events = receiveOutcome order second i events := by
  obtain ⟨rBuf, block, stored, read, outcome⟩ := receiveOutcome_frame (i := i) next first
  obtain ⟨rBuf', block', stored', read', outcome'⟩ := receiveOutcome_frame (i := i) next second
  have blocks : block = block' :=
    (read.of_frame stored covers.message).unique (read'.of_frame stored' covers.message)
  have address (known : UInt32) : addressAfter order (s.tables.vmcSystem i) known rBuf.toList =
      addressAfter order (s.tables.vmcSystem i) known rBuf'.toList := by
    unfold addressAfter
    split
    · rename_i unregistered
      have inside := covers.address unregistered
      rw [wireWord, wireWord, drop_frame stored (by decide) inside,
        drop_frame stored' (by decide) inside]
    · rfl
  rw [outcome, outcome', same.hostConf, same.alist, also.hostConf, also.alist, blocks, address,
    address]

/-- A host whose buffer holds one byte throughout. -/
def withLeftover (s : Host) (byte : UInt8) : Host :=
  { s with buf := ⟨List.replicate _ byte, List.length_replicate⟩ }

theorem getElem?_withLeftover {s : Host} {byte : UInt8} {rBuf : Bytes TcpFraming.hostBufSize}
    (stored : storeBytes (withLeftover s byte).buf tpktHeaderSize (frame.drop tpktHeaderSize) =
      some rBuf) (body : tpktHeaderSize ≤ frame.length) {place : Nat} (past : frame.length ≤ place)
    (inside : place < TcpFraming.hostBufSize) : rBuf.toList[place]? = some byte := by
  rw [getElem?_leftover stored body past]
  exact (List.getElem?_replicate_of_lt inside)

/-- Buffers whose windows agree have no leftover byte in the window. -/
theorem window_inside (next : FrameNext order events frame) {s : Host}
    {zeros ones : Bytes TcpFraming.hostBufSize}
    (stored : storeBytes (withLeftover s 0).buf tpktHeaderSize (frame.drop tpktHeaderSize) =
      some zeros)
    (stored' : storeBytes (withLeftover s 1).buf tpktHeaderSize (frame.drop tpktHeaderSize) =
      some ones) {offset width : Nat} (room : offset + width ≤ TcpFraming.hostBufSize)
    (same : (zeros.toList.drop offset).take width = (ones.toList.drop offset).take width)
    (filled : 0 < width) : offset + width ≤ frame.length := by
  by_contra outside
  have body : tpktHeaderSize ≤ frame.length := Nat.le_of_lt next.body
  have here : zeros.toList[offset + width - 1]? = ones.toList[offset + width - 1]? :=
    getElem?_window same (by omega) (by omega)
  rw [getElem?_withLeftover stored body (by omega) (by omega),
    getElem?_withLeftover stored' body (by omega) (by omega)] at here
  exact absurd here (by decide)

/-- If zeros and ones behind the frame make no difference, the frame covers what is read. -/
theorem covers_of_outcome (next : FrameNext order events frame) {s : Host}
    (same : receiveOutcome order (withLeftover s 0) i events =
      receiveOutcome order (withLeftover s 1) i events) :
    Covers order (s.tables.vmcSystem i).systemport frame := by
  obtain ⟨zeros, block, stored, read, outcome⟩ :=
    receiveOutcome_frame (i := i) next (withLeftover s 0)
  obtain ⟨ones, block', stored', read', outcome'⟩ :=
    receiveOutcome_frame (i := i) next (withLeftover s 1)
  have lengthZeros := zeros.length_toList
  have lengthOnes := ones.length_toList
  rw [outcome, outcome', Option.some.injEq] at same
  have blocks : block = block' := by
    have queued : [block] = [block'] := congrArg Outcome.queued same
    exact (List.cons.inj queued).1
  have sizes : wireHalf order zeros.toList 10 = wireHalf order ones.toList 10 := by
    rw [← read.msgsize, ← read'.msgsize, blocks]
  have header : 12 ≤ frame.length := by
    have inside : 10 + 2 ≤ TcpFraming.hostBufSize := by decide
    refine window_inside next stored stored' inside ?_ (by decide)
    rw [← bytesOf_wireHalf (by rw [lengthZeros]; decide), sizes,
      bytesOf_wireHalf (by rw [lengthOnes]; decide)]
  have msgsize : wireHalf order zeros.toList 10 = wireHalf order frame 10 := by
    rw [wireHalf, drop_frame stored (by decide) (by omega), wireHalf]
  constructor
  · by_cases empty : (wireHalf order frame 10).toNat = 0
    · rw [empty]
      exact header
    · have short := (wireHalf order frame 10).toNat_lt
      refine window_inside next stored stored' ?_ ?_ (by omega)
      · exact (show defaultTcpComhdrLength + _ ≤ 12 + 65535 by
          rw [defaultTcpComhdrLength]; omega).trans (by decide)
      · have message := read.message
        rw [blocks, read'.message, sizes.symm, msgsize] at message
        exact message.symm
  · intro unregistered
    have inside : defaultTcpComhdrLength + 4 ≤ TcpFraming.hostBufSize := by decide
    refine window_inside next stored stored' inside ?_ (by decide)
    have registered (known : UInt32) (bytes : List UInt8) :
        addressAfter order (s.tables.vmcSystem i) known bytes =
          wireWord order bytes defaultTcpComhdrLength := if_pos unregistered
    have address : wireWord order zeros.toList defaultTcpComhdrLength =
        wireWord order ones.toList defaultTcpComhdrLength := by
      have addresses : addressAfter order (s.tables.vmcSystem i) _ zeros.toList =
        addressAfter order (s.tables.vmcSystem i) _ ones.toList := congrArg Outcome.systemAddr same
      rwa [registered, registered] at addresses
    rw [← bytesOf_wireWord (by rw [lengthZeros]; decide), address,
      bytesOf_wireWord (by rw [lengthOnes]; decide)]

end Outcome

/-- A receive that returns a positive value took a frame, and it queues and registers the
same in any two hosts that agree on `alist` and `hostConf` exactly when the frame covers
what is read of it. -/
theorem receive_sameOutcome_iff {order : ByteOrder} {s : Host} {i : Slot}
    {events : List RecvEvent} {result : RecvResult TcpFraming.hostBufSize}
    (received : recvFrame order s.buf events = some result) (positive : 0 < result.nRecv) :
    ∃ frame, FrameNext order events frame ∧
      ((∀ first second, SameSystems s first → SameSystems s second →
          receiveOutcome order first i events = receiveOutcome order second i events) ↔
        Covers order (s.tables.vmcSystem i).systemport frame) := by
  obtain ⟨frame, next⟩ := recvFrame_positive received positive
  refine ⟨frame, next, fun same => ?_, fun covers first second => outcome_of_covers next covers⟩
  have zeros : SameSystems s (withLeftover s 0) := ⟨rfl, rfl⟩
  have ones : SameSystems s (withLeftover s 1) := ⟨rfl, rfl⟩
  exact covers_of_outcome next (same _ _ zeros ones)

/-- A host with a registered connection in slot 0. -/
def sampleHost : Host :=
  let tables := (Host.init 3).tables
  { Host.init 3 with
    tables :=
      { tables with
        alist := Function.update tables.alist 0 ⟨5, 1, 0x0A000001, 40000⟩
        vmcSystem := Function.update tables.vmcSystem 0 ⟨1, 0x0A000001, 40000, 0, 0⟩ } }

/-- A frame of a header only, with what it says of the size of its message. -/
def headerFrame (msgSize : UInt8) : List UInt8 := [4, 0, 12, 0, 0, 0, 0, 1, 0, 1, 0, msgSize]

theorem headerFrame_next (msgSize : UInt8) :
    FrameNext .little (singly (headerFrame msgSize)) (headerFrame msgSize) := by
  refine ⟨?_, ?_, ?_⟩
  · rw [stream_singly]
  · rfl
  · exact (show 4 < 12 by decide)

/-- The host before the connection has reported. -/
def freshHost : Host :=
  { sampleHost with
    tables := { sampleHost.tables with vmcSystem := fun _ => .zero } }

/-- A frame with eight bytes behind its header, of which the first four are an address. -/
def addressFrame : List UInt8 :=
  [4, 0, 20, 0, 0, 0, 0, 1, 0, 1, 0, 8] ++ [10, 0, 0, 1] ++ [0, 0, 0, 7]

theorem addressFrame_next :
    FrameNext .little (segments [3, 5, 6] addressFrame) addressFrame := by
  refine ⟨?_, ?_, ?_⟩
  · rw [stream_segments]
  · rfl
  · exact (show 4 < 20 by decide)

theorem receive_sameOutcome_address :
    (freshHost.tables.vmcSystem 0).systemport = 0 ∧
      receiveOutcome .little freshHost 0 (segments [3, 5, 6] addressFrame) =
        receiveOutcome .little (withLeftover freshHost 1) 0 (segments [3, 5, 6] addressFrame) := by
  obtain ⟨result, received, positive, _⟩ :=
    recvFrame_next addressFrame_next freshHost.buf (frame_room addressFrame_next)
  obtain ⟨frame, also, same⟩ :=
    receive_sameOutcome_iff (s := freshHost) (i := 0) received positive
  have covers : Covers .little (freshHost.tables.vmcSystem 0).systemport addressFrame :=
    ⟨by decide, fun _ => by decide⟩
  rw [addressFrame_next.unique also] at covers
  exact ⟨rfl, same.mpr covers _ _ ⟨rfl, rfl⟩ ⟨rfl, rfl⟩⟩

/-- One byte that the header promises and the frame does not have. -/
theorem receive_leftover :
    ∃ result, recvFrame .little sampleHost.buf (singly (headerFrame 1)) = some result ∧
      0 < result.nRecv ∧ sampleHost.accepting = none ∧ 0 < (sampleHost.tables.alist 0).acceptFd ∧
      SameSystems (withLeftover sampleHost 0) (withLeftover sampleHost 1) ∧
      receiveOutcome .little (withLeftover sampleHost 0) 0 (singly (headerFrame 1)) ≠
        receiveOutcome .little (withLeftover sampleHost 1) 0 (singly (headerFrame 1)) := by
  have next := headerFrame_next 1
  obtain ⟨result, received, positive, _⟩ := recvFrame_next next sampleHost.buf (frame_room next)
  refine ⟨result, received, positive, rfl, (show (0 : Int) < 5 by decide), ⟨rfl, rfl⟩, ?_⟩
  intro same
  exact absurd (covers_of_outcome next same).message (by decide)

end VnfMonitoring.HostReceive
