import VnfMonitoring.HostSock

set_option autoImplicit false

/- A received message in the host: `TcpdSock_Event` and `tcp_PutFifo` queue it as a
block, `FifoGet_Event` answers it and stores its report. The loads are from an array
of exactly `MsgSize` bytes and have no value outside it. -/
namespace VnfMonitoring.HostReport

open VnfMonitoring.Memory VnfMonitoring.Socket VnfMonitoring.TcpFrame VnfMonitoring.Bpapp
  VnfMonitoring.HostSock

/-- `block_t`, its links apart. -/
structure Block where
  systemid : UInt32
  msgtype : UInt16
  msgsize : UInt16
  alistIdx : Slot
  message : Bytes msgsize.toNat

/-- `TCP_MSG_NTOH` on the header at the start of a buffer. -/
def tcpMsgNtoh {size : Nat} (order : ByteOrder) (buf : Bytes size) : Option (Bytes size) :=
  (load32 order buf 4).bind fun systemId =>
  (store32 order buf 4 (order.ntohl systemId)).bind fun buf =>
  (load16 order buf 8).bind fun msgType =>
  (store16 order buf 8 (order.ntohs msgType)).bind fun buf =>
  (load16 order buf 10).bind fun msgSize =>
  store16 order buf 10 (order.ntohs msgSize)

/-- `tcp_PutFifo` of the message behind a header; its allocations succeed. -/
def tcpPutFifo {size : Nat} (order : ByteOrder) (buf : Bytes size) (alistIdx : Slot) :
    Option Block :=
  (load32 order buf 4).bind fun systemid =>
  (load16 order buf 8).bind fun msgtype =>
  (load16 order buf 10).bind fun msgsize =>
  (loadBytes buf defaultTcpComhdrLength msgsize.toNat).map fun message =>
    { systemid, msgtype, msgsize, alistIdx, message }

/-- `TcpdSock_Event`: the buffer it leaves and the block it queues. -/
def tcpdSockEvent {size : Nat} (order : ByteOrder) (alistIdx : Slot) (buf : Bytes size) :
    Option (Bytes size × Block) :=
  (tcpMsgNtoh order buf).bind fun buf =>
  (tcpPutFifo order buf alistIdx).map fun block => (buf, block)

section Message

variable {n : Nat}

/-- The characters that a `%s` or a `strcpy` reads from an offset on. -/
def readStr (message : Bytes n) (offset : Nat) : Option (List UInt8) :=
  cstr (message.toList.drop offset)

/-- The text that `%s` formats when the message level is traced; only then are the
characters read. -/
def traceStr (traced : Bool) (message : Bytes n) (offset : Nat) : Option Unit :=
  if traced then (readStr message offset).map fun _ => () else some ()

/-- The loop of `DebugVmProcessState` over the processes: `remaining` rounds from `i`. -/
def debugProcesses (order : ByteOrder) (traced : Bool) (message : Bytes n) :
    Nat → Nat → Option Unit
  | 0, _ => some ()
  | remaining + 1, i =>
      if i < maxVmProcNum then
        (traceStr traced message (pstateAt i)).bind fun _ =>
        (load32 order message (processStateAt i)).bind fun _ =>
        debugProcesses order traced message remaining (i + 1)
      else none

/-- `DebugVmProcessState`: `count` is an `int`. -/
def debugVmProcessState (order : ByteOrder) (traced : Bool) (message : Bytes n) : Option Unit :=
  (load32 order message pcountAt).bind fun count =>
  (load32 order message vmTypeAt).bind fun _ =>
  (load32 order message vmIpaddressAt).bind fun _ =>
  (traceStr traced message vmIdAt).bind fun _ =>
  (traceStr traced message vmNameAt).bind fun _ =>
  (traceStr traced message manageIpAt).bind fun _ =>
  debugProcesses order traced message (order.ntohl count).toInt32.toInt.toNat 0

/-- The loop that converts the process states in place: `remaining` rounds from `i`. -/
def ntohStates (order : ByteOrder) : Nat → Nat → Bytes n → Option (Bytes n)
  | 0, _, message => some message
  | remaining + 1, i, message =>
      (load32 order message (processStateAt i)).bind fun state =>
      (store32 order message (processStateAt i) (order.ntohl state)).bind
        (ntohStates order remaining (i + 1))

/-- One element of the `memcpy` of `pstate`. -/
def loadProcessState (order : ByteOrder) (message : Bytes n) (i : Nat) : Option ProcessState :=
  (loadBytes message (pstateAt i) 64).bind fun processName =>
  (load32 order message (processStateAt i)).map fun processState =>
    ⟨processName, processState⟩

def loadPstate (order : ByteOrder) (message : Bytes n) :
    Option (Fin maxVmProcNum → ProcessState) :=
  if inside : ∀ k : Fin maxVmProcNum, (loadProcessState order message k).isSome then
    some fun k => (loadProcessState order message k).get (inside k)
  else none

/-- The assignments that both searches of `SetVmProcessStateInfo` make to an entry. -/
def fillEntry (order : ByteOrder) (message : Bytes n) (vmType pcount : UInt32)
    (entry : VmcStateinfo) : Option VmcStateinfo :=
  (loadPstate order message).bind fun pstate =>
  (strcpy entry.vmId (message.toList.drop vmIdAt)).bind fun vmId =>
  (strcpy entry.vmName (message.toList.drop vmNameAt)).bind fun vmName =>
  (strcpy entry.manageIp (message.toList.drop manageIpAt)).map fun manageIp =>
    { entry with
      vmType := vmType.toUInt16, pcount := pcount.toUInt16, pstate, vmId, vmName, manageIp }

/-- The two searches of `SetVmProcessStateInfo`: an entry of the address, else a free
one. It returns the index of the entry it fills, or -1. -/
def storeEntry (vmstate : Slot → VmcStateinfo) (vmIp : UInt32)
    (fill : VmcStateinfo → Option VmcStateinfo) : Option (Int × (Slot → VmcStateinfo)) :=
  match Fin.find? fun i : Slot => decide ((vmstate i).vmIp = vmIp) with
  | some i =>
      (fill (vmstate i)).map fun entry => ((i.val : Int), Function.update vmstate i entry)
  | none =>
      match Fin.find? fun i : Slot => decide ((vmstate i).vmIp = 0) with
      | some i =>
          (fill { vmstate i with vmIp }).map fun entry =>
            ((i.val : Int), Function.update vmstate i entry)
      | none => some (-1, vmstate)

/-- `SetVmProcessStateInfo` between its two locked sections: what it makes of its copy
of the table, which it writes back unless the index is -1. -/
def setVmProcessStateInfo (order : ByteOrder) (vmstate : Slot → VmcStateinfo)
    (message : Bytes n) : Option (Int × (Slot → VmcStateinfo)) :=
  (load32 order message vmIpaddressAt).bind fun vmIpaddress =>
  (load32 order message vmTypeAt).bind fun vmType =>
  (load32 order message pcountAt).bind fun pcount =>
  (ntohStates order maxVmProcNum 0 message).bind fun message =>
  storeEntry vmstate (order.ntohl vmIpaddress)
    (fillEntry order message (order.ntohl vmType) (order.ntohl pcount))

end Message

def rspHeader (systemid : UInt32) : CommonTcpmsg where
  tpktHdr := 0x00
  systemId := systemid
  msgType := vmProcStateRsp
  msgSize := 0

/-- The first part of `SendVmProcStateRsp`, outside the mutex: the system it finds for
the slot's address. -/
@[irreducible] def resetLinkStatus (s : HostTables) (alistIdx : Slot) : Option (Slot × HostTables) :=
  (Fin.find? fun i : Slot =>
      decide ((s.vmcSystem i).systemaddr = (s.alist alistIdx).sysinfo.systemaddr)).map fun i =>
    (i, { s with
      vmcSystem := Function.update s.vmcSystem i
        { s.vmcSystem i with isCheck := 1, linkStatus := 0 } })

/-- The section of `SendVmProcStateRsp` under `TcpMutex`: what it puts on the wire. -/
def sendRsp (order : ByteOrder) (s : HostTables) (alistIdx : Slot) (systemid : UInt32)
    (env : SendEnv) : Option (HostTables × List UInt8) :=
  let acceptFd := (s.alist alistIdx).acceptFd
  if acceptFd < 0 then some (s, [])
  else
    (tcpSend order s alistIdx acceptFd
      (⟨((rspHeader systemid).hton order).image order, CommonTcpmsg.image_length _ _⟩ :
        Bytes defaultTcpComhdrLength) defaultTcpComhdrLength env).map
      fun (s, result) => (s, result.wire)

def sendVmProcStateRsp (order : ByteOrder) (s : HostTables) (alistIdx : Slot)
    (systemid : UInt32) (env : SendEnv) : Option (Int × HostTables × List UInt8) :=
  match resetLinkStatus s alistIdx with
  | none => some (-1, s, [])
  | some (_, s) =>
      (sendRsp order s alistIdx systemid env).map fun (s, wire) => ((alistIdx.val : Int), s, wire)

/-- `FifoGet_Event` when no other thread runs in between. -/
def fifoGetEvent (order : ByteOrder) (traced : Bool) (s : HostTables) (block : Block)
    (env : SendEnv) : Option HostTables :=
  if block.msgtype = vmProcStateReq then
    (load32 order block.message vmIpaddressAt).bind fun _ =>
    (debugVmProcessState order traced block.message).bind fun _ =>
    (sendVmProcStateRsp order s block.alistIdx block.systemid env).bind fun (_, s, _) =>
    (setVmProcessStateInfo order s.stateinfo block.message).map fun (ret, vmstate) =>
      if ret = -1 then s else { s with stateinfo := vmstate }
  else some s

/-- The system found has the slot's address, and only its check and link status change. -/
theorem resetLinkStatus_some {s next : HostTables} {alistIdx i : Slot}
    (found : resetLinkStatus s alistIdx = some (i, next)) :
    (s.vmcSystem i).systemaddr = (s.alist alistIdx).sysinfo.systemaddr ∧
      ∃ vmcSystem, next = { s with vmcSystem } ∧ ∀ k,
        (vmcSystem k).systemaddr = (s.vmcSystem k).systemaddr ∧
          (vmcSystem k).systemport = (s.vmcSystem k).systemport := by
  unfold resetLinkStatus at found
  obtain ⟨j, search, pair⟩ := Option.map_eq_some_iff.mp found
  cases pair
  refine ⟨by simpa using (Fin.find?_eq_some_iff.mp search).1, _, rfl, fun k => ?_⟩
  by_cases here : k = i
  · subst here
    simp
  · simp [here]

theorem tcpdSockEvent_slot {size : Nat} {order : ByteOrder} {alistIdx : Slot}
    {buf changed : Bytes size} {block : Block}
    (queued : tcpdSockEvent order alistIdx buf = some (changed, block)) :
    block.alistIdx = alistIdx := by
  obtain ⟨_, _, rest⟩ := Option.bind_eq_some_iff.mp queued
  obtain ⟨_, put, same⟩ := Option.map_eq_some_iff.mp rest
  cases same
  obtain ⟨_, _, rest⟩ := Option.bind_eq_some_iff.mp put
  obtain ⟨_, _, rest⟩ := Option.bind_eq_some_iff.mp rest
  obtain ⟨_, _, rest⟩ := Option.bind_eq_some_iff.mp rest
  obtain ⟨_, _, rfl⟩ := Option.map_eq_some_iff.mp rest
  rfl

theorem sendRsp_total (order : ByteOrder) (s : HostTables) (alistIdx : Slot) (systemid : UInt32)
    (env : SendEnv) :
    ∃ next wire, sendRsp order s alistIdx systemid env = some (next, wire) ∧
      next.stateinfo = s.stateinfo := by
  simp only [sendRsp, tcpSend]
  split
  · exact ⟨s, [], rfl, rfl⟩
  · obtain ⟨result, sent⟩ := Option.isSome_iff_exists.mp
      (sendFrame_isSome order (s.alist alistIdx).acceptFd
        (⟨((rspHeader systemid).hton order).image order, CommonTcpmsg.image_length _ _⟩ :
          Bytes defaultTcpComhdrLength) defaultTcpComhdrLength (by decide)
        (Int.le_refl _) env)
    refine ⟨_, _, by rw [sent]; rfl, ?_⟩
    simp only
    split
    · exact sendDisconnect_stateinfo s alistIdx
    · rfl

/-- The section of the response either leaves the tables alone or tears the connection
of the slot down, and writes only to a live one. -/
theorem sendRsp_eq {order : ByteOrder} {s next : HostTables} {alistIdx : Slot}
    {systemid : UInt32} {env : SendEnv} {wire : List UInt8}
    (sent : sendRsp order s alistIdx systemid env = some (next, wire)) :
    (next = s ∨ next = sendDisconnect s alistIdx) ∧
      (wire ≠ [] → 0 < (s.alist alistIdx).acceptFd) := by
  simp only [sendRsp] at sent
  split at sent
  · cases sent
    exact ⟨Or.inl rfl, fun written => absurd rfl written⟩
  · obtain ⟨⟨after, result⟩, done, pair⟩ := Option.map_eq_some_iff.mp sent
    obtain ⟨frame, same⟩ := tcpSend_eq done
    cases pair
    refine ⟨?_, fun written => ?_⟩
    · rw [same]
      split
      · exact Or.inr rfl
      · exact Or.inl rfl
    · by_contra closed
      rw [sendFrame_closed order (by omega)] at frame
      cases frame
      exact written rfl

/-- The response never fails, whatever the socket does, and keeps the VMs' states. -/
theorem sendVmProcStateRsp_total (order : ByteOrder) (s : HostTables) (alistIdx : Slot)
    (systemid : UInt32) (env : SendEnv) :
    ∃ ret next wire, sendVmProcStateRsp order s alistIdx systemid env = some (ret, next, wire) ∧
      next.stateinfo = s.stateinfo := by
  unfold sendVmProcStateRsp
  cases found : resetLinkStatus s alistIdx with
  | none => exact ⟨-1, s, [], rfl, rfl⟩
  | some reset =>
      obtain ⟨i, reset⟩ := reset
      obtain ⟨next, wire, sent, same⟩ := sendRsp_total order reset alistIdx systemid env
      refine ⟨_, next, wire, by simp only [sent, Option.map_some]; rfl, same.trans ?_⟩
      obtain ⟨_, _, rfl, _⟩ := resetLinkStatus_some found
      rfl

end VnfMonitoring.HostReport
