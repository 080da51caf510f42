import VnfMonitoring.HostConnection
import VnfMonitoring.HostProcess
import VnfMonitoring.Lib.Pipes
import VnfMonitoring.ReportRoundTrip

set_option autoImplicit false

/- The agents and the host as one system. A connection is a pipe from its agent, which
puts reports into it, to the slot of the host that reads it. -/
namespace VnfMonitoring.Network

open VnfMonitoring.Memory VnfMonitoring.Socket VnfMonitoring.TcpFrame VnfMonitoring.Bpapp
  VnfMonitoring.HostSock VnfMonitoring.HostReport VnfMonitoring.HostSystem VnfMonitoring.HostTable
  VnfMonitoring.HostConnection VnfMonitoring.HostTcpStatus VnfMonitoring.HostProcess
  VnfMonitoring.Pqmb VnfMonitoring.VmctReport VnfMonitoring.ReportRoundTrip VnfMonitoring.Pipes
  VnfMonitoring.Runs

/-- A call of `SendProcStateReq`: the configuration, and what `proccheckbyname` finds. -/
structure ReportCall where
  conf : VmctConfig
  up : Nat → Bool
  reportable : Reportable conf

/-- The system. `queued` and `calls` record every block that the host has queued and every
snapshot for which it has written rows. -/
structure System where
  host : Host
  pipes : Nat → Pipe VmProcStateMsg UInt8
  queued : List Request
  table : VmStateTable
  calls : List ProcessCall

def System.init (listenFd : Int) : System where
  host := .init listenFd
  pipes := fun _ => .empty
  queued := []
  table := []
  calls := []

inductive NetworkEvent where
  /-- The agent of a connection, which the host may not have accepted yet, reports. This is one
  step: `TcpSend` takes no mutex, and an agent with both its tasks in it is left out. -/
  | report (c : Nat) (fd : Int) (call : ReportCall) (env : SendEnv)
  /-- The agent closes its connection. -/
  | close (c : Nat)
  | host (event : HostEvent)
  /-- One round of the loop of `CheckTcpStatus`. -/
  | checkVm (checkTcpstatusMin : Int) (vstatus : Slot → VmcStatus) (i : Slot)
  /-- `ProcessVmProcStateInfo`; `vminfo` is the copy it takes of the table. -/
  | process (call : ProcessCall) (answers : Slot → PqAnswers) (accepted : Slot → Bool)

def tcpMsgLength : Nat := defaultTcpComhdrLength + vmProcStateMsgSize

/-- What a report leaves in the pipe of its connection. -/
def reportStep (order : ByteOrder) (p : Pipe VmProcStateMsg UInt8) (fd : Int) (call : ReportCall)
    (env : SendEnv) : Option (Pipe VmProcStateMsg UInt8) :=
  (sendProcStateReq order call.conf call.up).bind fun (_, msg, sndbuf) =>
  (sendFrame order fd sndbuf tcpMsgLength env).map fun result =>
    if result.totalLen > 0 then p.put msg result.wire
    else if result.disconnect then p.cut result.wire
    else p

/-- A step of the host; a receive takes what it reads out of the pipe of its slot, and
`tcp_PutFifo` finds memory for its block. -/
def hostStep (order : ByteOrder) (traced : Bool) (s : System) (event : HostEvent) :
    Option System :=
  match event with
  | .receive i events =>
      let c := (s.host.conn i).id
      if stream events <+: (s.pipes c).bytes then
        (recvFrame order s.host.buf events).bind fun result =>
        (HostSystem.step order traced s.host (.receive i events)).map fun host =>
          { s with
            host
            pipes := Function.update s.pipes c
              ((s.pipes c).read ((stream events).length - (stream result.events).length))
            queued := s.queued ++ host.fifo.drop s.host.fifo.length }
      else none
  | event => (HostSystem.step order traced s.host event).map fun host => { s with host }

/-- A round of `CheckTcpStatus` on the tables; none once a copy has left its arrays. -/
def checkStep (t : HostTables) (checkTcpstatusMin : Int) (vstatus : Slot → VmcStatus) (i : Slot) :
    Option HostTables :=
  let checked := HostTcpStatus.checkVm checkTcpstatusMin vstatus
    ⟨t.vmcSystem, .off, some t.stateinfo⟩ i
  checked.stateinfo.map fun stateinfo => { t with vmcSystem := checked.vmcSystem, stateinfo }

def step (order : ByteOrder) (traced : Bool) (s : System) : NetworkEvent → Option System
  | .report c fd call env =>
      if (s.pipes c).closed then none
      else
        (reportStep order (s.pipes c) fd call env).map fun p =>
          { s with pipes := Function.update s.pipes c p }
  | .close c => some { s with pipes := Function.update s.pipes c ((s.pipes c).cut []) }
  | .host event => hostStep order traced s event
  | .checkVm checkTcpstatusMin vstatus i =>
      (checkStep s.host.tables checkTcpstatusMin vstatus i).map fun tables =>
        { s with host := { s.host with tables } }
  | .process call answers accepted =>
      let call := { call with vminfo := s.host.tables.stateinfo }
      (processVmProcStateInfo order call answers accepted s.table).map fun table =>
        { s with table, calls := s.calls ++ [call] }

/-- The bytes of a report on the wire. -/
def wireOf (order : ByteOrder) (msg : VmProcStateMsg) : List UInt8 :=
  framed order ((reqHeader.hton order).image order ++ msg.image order)

/-- A block that a report was queued as. -/
structure Brings (order : ByteOrder) (request : Request) (msg : VmProcStateMsg) : Prop where
  msgtype : request.block.msgtype = vmProcStateReq
  systemid : request.block.systemid = reqHeader.systemId
  message : request.block.message.toList = msg.image order

/-- The blocks queued of a connection. -/
def queuedOf (s : System) (c : Nat) : List Request :=
  s.queued.filter fun request => decide (request.conn.id = c)

section Frames

variable {order : ByteOrder}

def IsFrame (order : ByteOrder) (frame : List UInt8) : Prop :=
  tpktLength order (frame.take tpktHeaderSize) = some frame.length ∧ tpktHeaderSize < frame.length

theorem isFrame_delimited : Delimited (IsFrame order) where
  some_ := by
    rintro frame ⟨_, body⟩ rfl
    exact absurd body (Nat.not_lt_zero _)
  unique := by
    intro frame other bytes isFrame also front behind
    have next (frame : List UInt8) (isFrame : IsFrame order frame) (front : frame <+: bytes) :
        FrameNext order (singly bytes) frame :=
      ⟨by rwa [stream_singly], isFrame.1, isFrame.2⟩
    exact (next frame isFrame front).unique (next other also behind)

theorem message_length (order : ByteOrder) (msg : VmProcStateMsg) :
    ((reqHeader.hton order).image order ++ msg.image order).length = tcpMsgLength := by
  rw [List.length_append, CommonTcpmsg.image_length, VmProcStateMsg.image_length]
  rfl

theorem wireOf_length (order : ByteOrder) (msg : VmProcStateMsg) :
    (wireOf order msg).length = tcpMsgLength := by
  rw [wireOf, framed_length _ _ (by rw [message_length]; decide), message_length]

theorem wireOf_isFrame (msg : VmProcStateMsg) : IsFrame order (wireOf order msg) := by
  refine ⟨?_, by rw [wireOf_length]; decide⟩
  rw [wireOf_length, wireOf, framed, List.take_left' (tpktHeader_length ..), message_length,
    tpktLength_tpktHeader order _ (by decide)]

/-- What a report comes to: its bytes go in, or a part of them and the agent gives up, or
nothing. -/
theorem reportStep_cases {p next : Pipe VmProcStateMsg UInt8} {fd : Int} {call : ReportCall}
    {env : SendEnv} (done : reportStep order p fd call env = some next) :
    ∃ msg, ReportOf order call.conf call.up msg ∧
      (next = p.put msg (wireOf order msg) ∨
        (∃ part, Incomplete (wireOf order) part ∧ next = p.cut part) ∨ next = p) := by
  obtain ⟨conf', msg, sndbuf, requested, report, built⟩ :=
    sendProcStateReq_report order call.up call.reportable
  refine ⟨msg, report, ?_⟩
  unfold reportStep at done
  rw [requested, Option.bind_some] at done
  simp only at done
  by_cases open_ : 0 < fd
  · obtain ⟨result, sent, begun, outcome⟩ := sendFrame_outcome order open_ sndbuf
      (show tpktHeaderSize ≤ tcpMsgLength by decide) (Nat.le_refl _) env
    have whole : sndbuf.toList.take tcpMsgLength =
        (reqHeader.hton order).image order ++ msg.image order := by
      rw [built, List.take_of_length_le (by rw [message_length])]
    rw [whole] at begun outcome
    rw [sent, Option.map_some, Option.some_inj] at done
    subst done
    rcases outcome with ⟨length, kept, complete⟩ | ⟨failed, torn, nothing⟩
    · rw [if_pos (by rw [length]; decide), complete]
      exact Or.inl rfl
    · rw [if_neg (by rw [failed]; decide)]
      cases lost : result.disconnect with
      | true => exact Or.inr (Or.inl ⟨_, Or.inr ⟨msg, begun, torn⟩, rfl⟩)
      | false => exact Or.inr (Or.inr rfl)
  · rw [sendFrame_closed order (by omega), Option.map_some, Option.some_inj] at done
    subst done
    exact Or.inr (Or.inr rfl)

end Frames

section Delivery

variable {order : ByteOrder} {traced : Bool} {s next : System}

/-- The blocks of a connection are those of the first reports put into its pipe. As long as
the host still reads the connection, or has yet to accept it, the pipe holds the others. -/
def Carried (order : ByteOrder) (s : System) (c : Nat) : Prop :=
  ∃ read, List.Forall₂ (Brings order) (queuedOf s c) read ∧ read <+: (s.pipes c).sent ∧
    (Lives s.host c ∨ s.host.accepted < c → Holds (wireOf order) (s.pipes c) read)

theorem Carried.kept {c : Nat} (carried : Carried order s c)
    (queued : queuedOf next c = queuedOf s c) (pipe : next.pipes c = s.pipes c)
    (lives : Lives next.host c ∨ next.host.accepted < c → Lives s.host c ∨ s.host.accepted < c) :
    Carried order next c := by
  obtain ⟨read, brought, front, holds⟩ := carried
  refine ⟨read, by rwa [queued], by rwa [pipe], fun live => ?_⟩
  rw [pipe]
  exact holds (lives live)

structure WireInv (order : ByteOrder) (s : System) : Prop where
  table : TableInv s.host.tables s.host.accepting
  conns : ConnInv s.host
  known : ∀ request ∈ s.queued, request.conn.id ≤ s.host.accepted
  waiting : s.host.fifo <:+ s.queued
  held : ∀ request ∈ taken s.host.handler, request ∈ s.queued
  formed : ∀ c, ∀ msg ∈ (s.pipes c).sent, ∃ call : ReportCall, ReportOf order call.conf call.up msg
  carried : ∀ c, Carried order s c

theorem init_wireInv (order : ByteOrder) {listenFd : Int} (listening : 0 < listenFd) :
    WireInv order (System.init listenFd) where
  table := init_tableInv listening
  conns := ⟨fun _ => Nat.le_refl 0, fun _ _ lives => absurd lives (show ¬ (0 : Int) < -1 by decide)⟩
  known := fun _ member => absurd member List.not_mem_nil
  waiting := List.suffix_refl _
  held := fun _ member => absurd member List.not_mem_nil
  formed := fun _ _ member => absurd member List.not_mem_nil
  carried := fun _ => ⟨[], .nil, List.prefix_refl _, fun _ => holds_empty _⟩

/-- A change of one pipe that keeps what the host has read of it. -/
theorem WireInv.setPipe (inv : WireInv order s) (c : Nat) {p : Pipe VmProcStateMsg UInt8}
    (more : (s.pipes c).sent <+: p.sent)
    (formed : ∀ msg ∈ p.sent, ∃ call : ReportCall, ReportOf order call.conf call.up msg)
    (holds : ∀ read, Holds (wireOf order) (s.pipes c) read → Holds (wireOf order) p read) :
    WireInv order { s with pipes := Function.update s.pipes c p } where
  table := inv.table
  conns := inv.conns
  known := inv.known
  waiting := inv.waiting
  held := inv.held
  formed := by
    intro k msg member
    by_cases here : k = c
    · subst here
      exact formed msg (by simpa using member)
    · exact inv.formed k msg (by simpa [here] using member)
  carried := by
    intro k
    by_cases here : k = c
    · subst here
      obtain ⟨read, brought, first, rest⟩ := inv.carried k
      refine ⟨read, brought, ?_, fun live => ?_⟩
      · simpa using first.trans more
      · simpa using holds read (rest live)
    · exact (inv.carried k).kept rfl (by simp [here]) id

theorem report_wireInv (inv : WireInv order s) {c : Nat} {fd : Int} {call : ReportCall}
    {env : SendEnv} (stepped : step order traced s (.report c fd call env) = some next) :
    WireInv order next := by
  simp only [step] at stepped
  split at stepped
  · cases stepped
  · rename_i opened
    obtain ⟨p, done, rfl⟩ := Option.map_eq_some_iff.mp stepped
    have open_ : (s.pipes c).closed = false := by simpa using opened
    obtain ⟨msg, report, rfl | ⟨part, short, rfl⟩ | rfl⟩ := reportStep_cases done
    · refine inv.setPipe c (List.prefix_append _ _) (fun other member => ?_)
        fun read holds => holds.put open_ msg
      rcases List.mem_append.mp member with old | new
      · exact inv.formed c other old
      · obtain rfl := List.mem_singleton.mp new
        exact ⟨call, report⟩
    · exact inv.setPipe c (List.prefix_refl _) (inv.formed c) fun read holds =>
        holds.cut open_ short
    · exact inv.setPipe c (List.prefix_refl _) (inv.formed c) fun read holds => holds

theorem close_wireInv (inv : WireInv order s) (c : Nat) :
    WireInv order { s with pipes := Function.update s.pipes c ((s.pipes c).cut []) } := by
  refine inv.setPipe c (List.prefix_refl _) (inv.formed c) fun read holds => ?_
  obtain ⟨pending, part, sent, bytes, _, short⟩ := holds
  refine ⟨pending, part, sent, ?_, fun closed => ?_, short⟩
  · rw [Pipe.cut, List.append_nil, bytes]
  · cases closed

/-- A step of the host that queues nothing. -/
theorem WireInv.setHost (inv : WireInv order s) {host : Host}
    (table : TableInv host.tables host.accepting) (conns : ConnInv host)
    (accepted : s.host.accepted ≤ host.accepted) (waiting : host.fifo <:+ s.host.fifo)
    (held : ∀ request ∈ taken host.handler,
      request ∈ s.host.fifo ∨ request ∈ taken s.host.handler)
    (lives : ∀ c, Lives host c → Lives s.host c ∨ s.host.accepted < c) :
    WireInv order { s with host } where
  table := table
  conns := conns
  known := fun request member => Nat.le_trans (inv.known request member) accepted
  waiting := waiting.trans inv.waiting
  held := fun request member =>
    (held request member).elim (fun queued => inv.waiting.subset queued) (inv.held request)
  formed := inv.formed
  carried := by
    intro c
    refine (inv.carried c).kept rfl rfl fun live => ?_
    rcases live with live | later
    · exact lives c live
    · exact Or.inr (Nat.lt_of_le_of_lt accepted later)

/-- The block that a frame is queued as is that of its report, and its slot is registered
under the address in the report. -/
theorem tcpdSockEvent_brings {size : Nat} {msg : VmProcStateMsg} {i : Slot}
    {rBuf buf changed : Bytes size} {block : Block} {conn : Connection}
    (stored : storeBytes rBuf tpktHeaderSize ((wireOf order msg).drop tpktHeaderSize) = some buf)
    (queued : tcpdSockEvent order i buf = some (changed, block)) :
    Brings order ⟨block, conn⟩ msg ∧
      load32 order buf defaultTcpComhdrLength = some msg.vmIpaddress := by
  rw [wireOf, framed, List.drop_left' (tpktHeader_length ..)] at stored
  have built : (⟨_, message_length order msg⟩ : Bytes 952).toList =
      (reqHeader.hton order).image order ++ msg.image order := rfl
  obtain ⟨four, behind, place, layout⟩ := received_layout built stored
  obtain ⟨_, other, again, systemid, msgtype, _, image⟩ := tcpdSockEvent_image place i reqHeader
    (by rw [VmProcStateMsg.image_length]; decide) layout
  cases queued.symm.trans again
  refine ⟨⟨msgtype, systemid, image⟩, ?_⟩
  obtain ⟨fields, split⟩ : ∃ fields,
      msg.image order = order.bytesOf 4 msg.vmIpaddress.toNat ++ fields := by
    simp only [VmProcStateMsg.image, List.append_assoc, List.append_cancel_left_eq, exists_eq']
  have address : buf.toList = (four ++ ((reqHeader.hton order).image order).drop 4) ++
      order.bytesOf 4 msg.vmIpaddress.toNat ++ (fields ++ behind) := by
    rw [layout, split]
    simp only [List.append_assoc]
  apply load32_field order address
  rw [List.length_append, place, List.length_drop, CommonTcpmsg.image_length]
  rfl

/-- A receive that takes a report out of the pipe of its slot: the next of those sent. -/
structure Takes (order : ByteOrder) (s next : System) (i : Slot) (msg : VmProcStateMsg)
    (request : Request) : Prop where
  brings : Brings order request msg
  conn : request.conn = s.host.conn i
  queued : next.queued = s.queued ++ [request]
  fifo : next.host.fifo = s.host.fifo ++ [request]
  handler : next.host.handler = s.host.handler
  pipes : next.pipes = Function.update s.pipes (s.host.conn i).id
    ((s.pipes (s.host.conn i).id).read (wireOf order msg).length)
  turn : ∃ read, List.Forall₂ (Brings order) (queuedOf s (s.host.conn i).id) read ∧
    read ++ [msg] <+: (s.pipes (s.host.conn i).id).sent ∧
    Holds (wireOf order) ((s.pipes (s.host.conn i).id).read (wireOf order msg).length)
      (read ++ [msg])
  registered : ∃ buf : Bytes TcpFraming.hostBufSize,
    load32 order buf defaultTcpComhdrLength = some msg.vmIpaddress ∧
    register order s.host.tables i buf = some next.host.tables

/-- A receive that gives the connection of its slot up. -/
structure Loses (s next : System) (i : Slot) : Prop where
  tables : next.host.tables = recvDisconnect s.host.tables i
  conn : next.host.conn = s.host.conn
  queued : next.queued = s.queued
  fifo : next.host.fifo = s.host.fifo
  handler : next.host.handler = s.host.handler
  pipes : ∃ count, next.pipes = Function.update s.pipes (s.host.conn i).id
    ((s.pipes (s.host.conn i).id).read count)

theorem hostStep_receive (inv : WireInv order s) {i : Slot} {events : List RecvEvent}
    (stepped : hostStep order traced s (.receive i events) = some next) :
    HostSystem.step order traced s.host (.receive i events) = some next.host ∧
      0 < (s.host.tables.alist i).acceptFd ∧
      ((∃ msg request, Takes order s next i msg request) ∨ Loses s next i) := by
  simp only [hostStep, Option.ite_none_right_eq_some] at stepped
  obtain ⟨arrives, stepped⟩ := stepped
  obtain ⟨result, received, stepped⟩ := Option.bind_eq_some_iff.mp stepped
  obtain ⟨host, moved, rfl⟩ := Option.map_eq_some_iff.mp stepped
  obtain ⟨lives, other, again, cases⟩ := receive_split moved
  cases received.symm.trans again
  refine ⟨moved, lives, ?_⟩
  rcases cases with ⟨positive, tables, buf, block, registered, queued, rfl⟩ | rfl
  · obtain ⟨frame, first⟩ := recvFrame_positive received positive
    have fits := Nat.le_trans (tpktLength_le first.length) (show 65535 ≤ TcpFraming.hostBufSize by
      decide)
    obtain ⟨same, found, _, _, consumed, stored⟩ := recvFrame_next first s.host.buf fits
    cases received.symm.trans found
    have count : (stream events).length - (stream result.events).length = frame.length := by
      rw [consumed, List.length_append]
      omega
    obtain ⟨read, brought, _, holds⟩ := inv.carried (s.host.conn i).id
    obtain ⟨msg, isReport, sent, left⟩ := (holds (Or.inl ⟨i, lives, rfl⟩)).read isFrame_delimited
      wireOf_isFrame ⟨first.length, first.body⟩ (first.first.trans arrives)
    subst isReport
    obtain ⟨brings, address⟩ := tcpdSockEvent_brings stored queued
    refine Or.inl ⟨msg, ⟨block, s.host.conn i⟩, brings, rfl, ?_, rfl, rfl, ?_,
      ⟨read, brought, sent, left⟩, result.rBuf, address, registered⟩
    · simp only [List.drop_left]
    · simp only [count]
  · refine Or.inr ⟨rfl, rfl, ?_, rfl, rfl, _, rfl⟩
    simp only [List.drop_length, List.append_nil]

theorem Takes.carried {i : Slot} {msg : VmProcStateMsg} {request : Request}
    (takes : Takes order s next i msg request) : Carried order next (s.host.conn i).id := by
  obtain ⟨read, brought, sent, left⟩ := takes.turn
  have pipe : next.pipes (s.host.conn i).id =
      (s.pipes (s.host.conn i).id).read (wireOf order msg).length := by
    rw [takes.pipes, Function.update_self]
  refine ⟨read ++ [msg], ?_, by rw [pipe]; exact sent, fun _ => by rw [pipe]; exact left⟩
  simp only [queuedOf, takes.queued, List.filter_append, List.filter_cons, takes.conn, decide_true,
    if_true, List.filter_nil]
  exact List.rel_append brought (.cons takes.brings .nil)

/-- A receive that queues a block takes the next report out of the pipe of its slot; one
that does not gives the connection up. -/
theorem receive_wireInv (inv : WireInv order s) {i : Slot} {events : List RecvEvent}
    (stepped : hostStep order traced s (.receive i events) = some next) :
    WireInv order next := by
  obtain ⟨moved, lives, cases⟩ := hostStep_receive inv stepped
  have table := step_tableInv inv.table moved
  have shrinks := step_shrinks inv.table moved (fun _ _ _ same => by cases same)
  have formed {count : Nat} (pipes : next.pipes = Function.update s.pipes (s.host.conn i).id
      ((s.pipes (s.host.conn i).id).read count)) : ∀ c, ∀ msg ∈ (next.pipes c).sent,
      ∃ call : ReportCall, ReportOf order call.conf call.up msg := by
    intro c
    rw [pipes]
    by_cases here : c = (s.host.conn i).id
    · rw [here, Function.update_self]
      exact inv.formed _
    · rw [Function.update_of_ne here]
      exact inv.formed c
  have still {c : Nat} (live : Lives next.host c ∨ next.host.accepted < c) :
      Lives s.host c ∨ s.host.accepted < c :=
    live.imp shrinks.lives (fun later => by rwa [shrinks.accepted] at later)
  rcases cases with ⟨msg, request, takes⟩ | loses
  · refine ⟨table, shrinks.connInv inv.conns, ?_, ?_, ?_, formed takes.pipes, fun c => ?_⟩
    · intro other member
      rw [shrinks.accepted]
      rw [takes.queued] at member
      rcases List.mem_append.mp member with old | new
      · exact inv.known other old
      · obtain rfl := List.mem_singleton.mp new
        rw [takes.conn]
        exact inv.conns.accepted i
    · obtain ⟨before, split⟩ := inv.waiting
      exact ⟨before, by rw [takes.queued, takes.fifo, ← List.append_assoc, split]⟩
    · intro other member
      rw [takes.handler] at member
      rw [takes.queued]
      exact List.mem_append_left _ (inv.held other member)
    · by_cases here : c = (s.host.conn i).id
      · subst here
        exact takes.carried
      · apply (inv.carried c).kept _ (by rw [takes.pipes, Function.update_of_ne here]) still
        have apart : ¬ (s.host.conn i).id = c := fun same => here same.symm
        simp only [queuedOf, takes.queued, List.filter_append, List.filter_cons, takes.conn, apart,
          decide_false, Bool.false_eq_true, if_false, List.filter_nil, List.append_nil]
  · obtain ⟨count, pipes⟩ := loses.pipes
    refine ⟨table, shrinks.connInv inv.conns, ?_, ?_, ?_, formed pipes, fun c => ?_⟩
    · rw [loses.queued, shrinks.accepted]
      exact inv.known
    · rw [loses.queued, loses.fifo]
      exact inv.waiting
    · rw [loses.queued, loses.handler]
      exact inv.held
    · have queued : queuedOf next c = queuedOf s c := by rw [queuedOf, loses.queued, queuedOf]
      by_cases here : c = (s.host.conn i).id
      · -- the slot is free, and no other has its connection
        subst here
        obtain ⟨read, brought, front, _⟩ := inv.carried (s.host.conn i).id
        refine ⟨read, by rwa [queued], ?_, fun live => ?_⟩
        · rw [pipes, Function.update_self]
          exact front
        rcases live with ⟨j, open_, same⟩ | later
        · rw [loses.conn] at same
          simp only [loses.tables, recvDisconnect_live inv.table.mode lives] at open_
          obtain ⟨apart, kept⟩ := teardown_acceptFd open_
          exact absurd (inv.conns.unique j i (kept ▸ open_) lives same) apart
        · rw [shrinks.accepted] at later
          exact absurd (inv.conns.accepted i) (Nat.not_le_of_lt later)
      · exact (inv.carried c).kept queued (by rw [pipes, Function.update_of_ne here]) still

/-- A round of `CheckTcpStatus` resets entries, and changes none otherwise. -/
theorem checkVm_resets {s : TcpStatus} {checkTcpstatusMin : Int} {vstatus : Slot → VmcStatus}
    {i : Slot} {before after : Slot → VmcStateinfo} (table : s.stateinfo = some before)
    (done : (HostTcpStatus.checkVm checkTcpstatusMin vstatus s i).stateinfo = some after)
    (j : Slot) : after j = before j ∨ after j = baseStateinfo := by
  have kept (same : some before = some after) : after j = before j ∨ after j = baseStateinfo := by
    rw [Option.some_inj] at same
    exact Or.inl (by rw [same])
  cases found : findSystem s.vmcSystem (vstatus i).vmIpaddr with
  | none =>
      rw [checkVm_missing vstatus found, table] at done
      exact kept done
  | some k =>
      by_cases below : belowMin checkTcpstatusMin (s.vmcSystem k).linkStatus = true
      · simp only [checkVm_below vstatus found below, table] at done
        exact kept done
      · simp only [checkVm_hung vstatus found below, table, Option.bind_some] at done
        by_cases held : ∃ v, (before v).vmIp = (vstatus i).vmIpaddr
        · rw [resetHung_present held] at done
          split at done
          · have same := Option.some_inj.mp done
            by_cases here : j = 0
            · subst here
              right
              rw [← same, Function.update_self]
            · left
              rw [← same, Function.update_of_ne here]
          · cases done
        · rw [resetHung_absent fun v same => held ⟨v, same⟩] at done
          exact kept done

theorem checkStep_spec {t next : HostTables} {checkTcpstatusMin : Int}
    {vstatus : Slot → VmcStatus} {i : Slot}
    (done : checkStep t checkTcpstatusMin vstatus i = some next) :
    ∃ vmcSystem stateinfo, next = { t with vmcSystem, stateinfo } ∧
      (∀ j, (vmcSystem j).systemport = (t.vmcSystem j).systemport ∧
        (vmcSystem j).systemaddr = (t.vmcSystem j).systemaddr) ∧
      ∀ j, stateinfo j = t.stateinfo j ∨ stateinfo j = baseStateinfo := by
  simp only [checkStep, Option.map_eq_some_iff] at done
  obtain ⟨stateinfo, reset, rfl⟩ := done
  refine ⟨_, stateinfo, rfl, fun j => ?_, checkVm_resets rfl reset⟩
  rw [checkVm_vmcSystem]
  split <;> exact ⟨rfl, rfl⟩

/-- Every step keeps what the pipes have carried. -/
theorem step_wireInv {event : NetworkEvent} (inv : WireInv order s)
    (stepped : step order traced s event = some next) : WireInv order next := by
  cases event with
  | report c fd call env => exact report_wireInv inv stepped
  | close c =>
      cases stepped
      exact close_wireInv inv c
  | host event =>
      have quiet (host : Host) (moved : HostSystem.step order traced s.host event = some host)
          (other : ∀ i events, event ≠ .receive i events) : WireInv order { s with host } := by
        obtain ⟨waiting, held⟩ := step_fifo moved other inv.table
        have table := step_tableInv inv.table moved
        by_cases accept : ∃ fd port vm, event = .accept fd port vm
        · obtain ⟨fd, port, vm, rfl⟩ := accept
          rcases accept_taken inv.table moved with ⟨i, taken⟩ | ⟨rfl, _⟩
          · exact inv.setHost table (taken.connInv inv.conns) (by rw [taken.accepted]; omega)
              waiting held fun _ => taken.lives
          · exact inv.setHost table inv.conns (Nat.le_refl _) waiting held fun _ => Or.inl
        · have shrinks := step_shrinks inv.table moved fun fd port vm same =>
            accept ⟨fd, port, vm, same⟩
          exact inv.setHost table (shrinks.connInv inv.conns) (Nat.le_of_eq shrinks.accepted.symm)
            waiting held fun c live => Or.inl (shrinks.lives live)
      cases event with
      | receive i events => exact receive_wireInv inv stepped
      | _ =>
          obtain ⟨host, moved, rfl⟩ := Option.map_eq_some_iff.mp stepped
          exact quiet host moved nofun
  | checkVm checkTcpstatusMin vstatus i =>
      simp only [step, Option.map_eq_some_iff] at stepped
      obtain ⟨tables, done, rfl⟩ := stepped
      obtain ⟨vmcSystem, stateinfo, rfl, ports, _⟩ := checkStep_spec done
      refine inv.setHost ?_ ⟨inv.conns.accepted, inv.conns.unique⟩ (Nat.le_refl _)
        (List.suffix_refl _) (fun _ held => Or.inr held) fun _ live => Or.inl live
      exact inv.table.frame rfl rfl rfl rfl (fun _ => rfl) (fun _ => rfl)
        fun j => Or.inl (ports j).1
  | process call answers accepted =>
      simp only [step, Option.map_eq_some_iff] at stepped
      obtain ⟨table, _, rfl⟩ := stepped
      exact ⟨inv.table, inv.conns, inv.known, inv.waiting, inv.held, inv.formed, inv.carried⟩

theorem run_wireInv {listenFd : Int} (listening : 0 < listenFd) {events : List NetworkEvent}
    {final : System}
    (reached : run (step order traced) (System.init listenFd) events = some final) :
    WireInv order final :=
  run_invariant (WireInv order) (fun _ _ _ before stepped => step_wireInv before stepped)
    (init_wireInv order listening) reached

/-- Reports arrive once, whole and in order. In every state of the system the blocks queued
of a connection are those of the first reports of its agent, one for each; while the host
reads the connection the others are still on their way, and with nothing on its way every
report has been queued. No block is handled twice or out of turn. -/
theorem run_delivered {listenFd : Int} (listening : 0 < listenFd) {events : List NetworkEvent}
    {final : System}
    (reached : run (step order traced) (System.init listenFd) events = some final) (c : Nat) :
    (∃ read, List.Forall₂ (Brings order) (queuedOf final c) read ∧
      read <+: (final.pipes c).sent ∧
      (Lives final.host c → Holds (wireOf order) (final.pipes c) read ∧
        ((final.pipes c).bytes = [] → read = (final.pipes c).sent))) ∧
    final.host.fifo <:+ final.queued := by
  have inv := run_wireInv listening reached
  obtain ⟨read, brought, front, holds⟩ := inv.carried c
  refine ⟨⟨read, brought, front, fun live => ?_⟩, inv.waiting⟩
  have here := holds (Or.inl live)
  exact ⟨here, here.drained isFrame_delimited wireOf_isFrame⟩

def sshd : Bytes (maxNameLength * 2) := ⟨[115, 115, 104, 100] ++ List.replicate 60 0, rfl⟩

/-- A VM at 10.0.0.1 whose agent watches one process. -/
def watchingConf : VmctConfig :=
  { sampleConf with
    vmType := vmTypeUtm
    vmctProc := ⟨1, fun _ => ⟨sshd, 0⟩⟩ }

theorem watchingConf_reportable : Reportable watchingConf where
  count := by decide
  names := fun _ _ => (by decide : (str sshd).isSome)
  manage := ⟨[45], by decide, by decide⟩
  name := by decide

def sampleCall (found : Bool) : ReportCall :=
  ⟨watchingConf, fun _ => found, watchingConf_reportable⟩

/-- An agent connects and reports twice, the second time in parts; meanwhile its process has
ended. -/
def sampleReports : List NetworkEvent :=
  [.host (.accept 5 40000 1), .host .acceptSet, .report 1 7 (sampleCall true) ⟨[], []⟩,
    .report 1 7 (sampleCall false) ⟨[.interrupted], [.accepted 100, .accepted 1]⟩]

/-- The bytes on their way in the first connection. -/
def sampleBytes : List UInt8 :=
  ((run (step .little false) (.init 3) sampleReports).map fun s => (s.pipes 1).bytes).getD []

/-- The host reads both reports, the header of the first in two parts and its end in one segment
with the beginning of the second, and takes the first. -/
def sampleRun : List NetworkEvent :=
  sampleReports ++ [.host (.receive 0 (segments [3, 1, 500] (sampleBytes.take 1000))),
    .host (.receive 0 (segments [48] (sampleBytes.drop tcpMsgLength))), .host .get]

set_option maxRecDepth 8192 in
theorem sampleRun_reached :
    ∃ final, run (step .little false) (System.init 3) sampleRun = some final ∧
      0 < (final.host.tables.alist 0).acceptFd ∧ (final.host.conn 0).id = 1 ∧
        (final.pipes 1).bytes = [] ∧ (final.pipes 1).sent.length = 2 ∧
          final.host.fifo.length = 1 :=
  exists_of_any (by decide +kernel)

theorem run_delivered_sample :
    ∃ final, run (step .little false) (System.init 3) sampleRun = some final ∧
      (final.pipes 1).sent.length = 2 ∧
        List.Forall₂ (Brings .little) (queuedOf final 1) (final.pipes 1).sent ∧
        final.host.fifo.length = 1 ∧ final.host.fifo <:+ final.queued := by
  obtain ⟨final, reached, open_, conn, drained, sent, waiting⟩ := sampleRun_reached
  obtain ⟨⟨read, brought, _, live⟩, behind⟩ := run_delivered (by decide) reached 1
  obtain ⟨_, all⟩ := live ⟨0, open_, conn⟩
  rw [all drained] at brought
  exact ⟨final, reached, sent, brought, waiting, behind⟩

end Delivery

end VnfMonitoring.Network
