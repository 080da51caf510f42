import VnfMonitoring.HostReport
import VnfMonitoring.Lib.Runs
import VnfMonitoring.TcpFraming

set_option autoImplicit false

/- The host as a step system: `tcp_rcvTask` accepts and receives, `fifo_getTask` answers
and stores. A step is a section under `TcpMutex` or `StateMutex`, or what a thread does
between two of them. -/
namespace VnfMonitoring.HostSystem

open VnfMonitoring.Memory VnfMonitoring.Socket VnfMonitoring.TcpFrame VnfMonitoring.Bpapp
  VnfMonitoring.HostSock VnfMonitoring.HostReport VnfMonitoring.Runs

/-- An accepted connection: its number, and the address of the VM at its other end. -/
structure Connection where
  id : Nat
  vm : UInt32
  deriving DecidableEq, Repr

/-- A queued block with the connection it was received on. -/
structure Request where
  block : Block
  conn : Connection

/-- The response to a request, with the connection it was written to. -/
structure Reply where
  request : Connection
  written : Connection
  deriving DecidableEq, Repr

/-- The reset for a request of the entry of a system. -/
structure Reset where
  request : Connection
  system : Connection
  deriving DecidableEq, Repr

/-- Where `fifo_getTask` stands in `FifoGet_Event`: before it, before the response, before
or after the copy of the table. -/
inductive Handler where
  | idle
  | got (request : Request)
  | found (request : Request)
  | answered (request : Request)
  | stored (request : Request) (ret : Int) (vmstate : Slot → VmcStateinfo)

/-- The host. `accepting` is the slot between the two sections of an accept; the last
fields record which connection was last accepted into a slot, and what was sent. -/
structure Host where
  tables : HostTables
  accepting : Option Slot
  buf : Bytes TcpFraming.hostBufSize
  fifo : List Request
  handler : Handler
  accepted : Nat
  conn : Slot → Connection
  replies : List Reply
  resets : List Reset

/-- The host once `tcp_rcvTask` has opened its listening socket. -/
def Host.init (listenFd : Int) : Host where
  tables :=
    { HostTables.init with listenFd, allset := {listenFd}, openFds := {listenFd} }
  accepting := none
  buf := .zero _
  fifo := []
  handler := .idle
  accepted := 0
  conn := fun _ => ⟨0, 0⟩
  replies := []
  resets := []

inductive HostEvent where
  /-- The section around `TcpAccept`, for a connection of a VM. -/
  | accept (fd : Int) (port : UInt16) (vm : UInt32)
  /-- The section around `FD_SET`. -/
  | acceptSet
  /-- One slot of the receive loop. -/
  | receive (i : Slot) (events : List RecvEvent)
  | get
  /-- `SendVmProcStateRsp` up to its section. -/
  | reset
  | send (env : SendEnv)
  /-- `SetVmProcessStateInfo` up to its second section. -/
  | copy
  | writeBack

/-- The assignments that register the address of a VM for a slot. -/
def registerAs (t : HostTables) (i : Slot) (systemaddr : UInt32) : HostTables :=
  { t with
    alist := Function.update t.alist i
      { t.alist i with sysinfo := { (t.alist i).sysinfo with systemaddr } }
    vmcSystem := Function.update t.vmcSystem i
      { t.vmcSystem i with systemaddr, systemport := (t.alist i).sysinfo.port } }

/-- The registration of a slot at the first message received on it. -/
def register {size : Nat} (order : ByteOrder) (t : HostTables) (i : Slot) (buf : Bytes size) :
    Option HostTables :=
  if (t.vmcSystem i).systemport = 0 then
    (load32 order buf defaultTcpComhdrLength).map fun vmIpaddress =>
      registerAs t i (order.ntohl vmIpaddress)
  else some t

/-- The second section of an accept. -/
def watch (t : HostTables) (i : Slot) : HostTables :=
  if (t.alist i).acceptFd > 0 then { t with allset := insert (t.alist i).acceptFd t.allset } else t

/-- What the accept of a connection assumes: the descriptor is positive and not in use,
and the port is not 0. -/
def AcceptOk (s : Host) (fd : Int) (port : UInt16) : Prop :=
  s.accepting = none ∧ 0 < fd ∧ fd ∉ s.tables.openFds ∧ port ≠ 0

instance (s : Host) (fd : Int) (port : UInt16) : Decidable (AcceptOk s fd port) :=
  inferInstanceAs (Decidable (_ ∧ _ ∧ _ ∧ _))

def acceptStep (s : Host) (fd : Int) (port : UInt16) (vm : UInt32) : Host :=
  let (result, tables) := tcpAccept s.tables s.tables.listenFd (some (fd, port))
  match result with
  | .taken i =>
      { s with
        tables
        accepting := some i
        accepted := s.accepted + 1
        conn := Function.update s.conn i ⟨s.accepted + 1, vm⟩ }
  | _ => { s with tables }

/-- One slot of the receive loop: the first message registers the slot, and every message
is queued. -/
def receiveStep (order : ByteOrder) (s : Host) (i : Slot) (events : List RecvEvent) :
    Option Host :=
  (tcpRecv order s.tables i s.buf events).bind fun (tables, result) =>
    if result.nRecv > 0 then
      (register order tables i result.rBuf).bind fun tables =>
      (tcpdSockEvent order i result.rBuf).map fun (buf, block) =>
        { s with tables, buf, fifo := s.fifo ++ [⟨block, s.conn i⟩] }
    else some { s with tables, buf := result.rBuf }

/-- `FifoGet_Event` up to the section of the response. -/
def resetStep (order : ByteOrder) (traced : Bool) (s : Host) (request : Request) :
    Option Host :=
  if request.block.msgtype = vmProcStateReq then
    (load32 order request.block.message vmIpaddressAt).bind fun _ =>
    (debugVmProcessState order traced request.block.message).map fun _ =>
      match resetLinkStatus s.tables request.block.alistIdx with
      | none => { s with handler := .answered request }
      | some (i, tables) =>
          { s with
            tables
            handler := .found request
            resets := s.resets ++ [⟨request.conn, s.conn i⟩] }
  else some { s with handler := .idle }

def sendStep (order : ByteOrder) (s : Host) (request : Request) (env : SendEnv) :
    Option Host :=
  (sendRsp order s.tables request.block.alistIdx request.block.systemid env).map
    fun (tables, wire) =>
      { s with
        tables
        handler := .answered request
        replies :=
          if wire = [] then s.replies
          else s.replies ++ [⟨request.conn, s.conn request.block.alistIdx⟩] }

def step (order : ByteOrder) (traced : Bool) (s : Host) : HostEvent → Option Host
  | .accept fd port vm => if AcceptOk s fd port then some (acceptStep s fd port vm) else none
  | .acceptSet =>
      s.accepting.map fun i => { s with tables := watch s.tables i, accepting := none }
  | .receive i events =>
      if s.accepting = none ∧ (s.tables.alist i).acceptFd > 0 then receiveStep order s i events
      else none
  | .get =>
      match s.handler, s.fifo with
      | .idle, request :: fifo => some { s with fifo, handler := .got request }
      | _, _ => none
  | .reset =>
      match s.handler with
      | .got request => resetStep order traced s request
      | _ => none
  | .send env =>
      match s.handler with
      | .found request => sendStep order s request env
      | _ => none
  | .copy =>
      match s.handler with
      | .answered request =>
          (setVmProcessStateInfo order s.tables.stateinfo request.block.message).map
            fun (ret, vmstate) => { s with handler := .stored request ret vmstate }
      | _ => none
  | .writeBack =>
      match s.handler with
      | .stored _ ret vmstate =>
          let tables := if ret = -1 then s.tables else { s.tables with stateinfo := vmstate }
          some { s with tables, handler := .idle }
      | _ => none

section Cases

variable {order : ByteOrder} {traced : Bool} {s next : Host}

/-- A receive queues a whole message, registering its slot if it is the first, or it
finds the connection lost, or nothing. -/
theorem receive_cases {i : Slot} {events : List RecvEvent}
    (stepped : step order traced s (.receive i events) = some next) :
    s.accepting = none ∧ 0 < (s.tables.alist i).acceptFd ∧
      ∃ result, recvFrame order s.buf events = some result ∧
        ((0 < result.nRecv ∧ ∃ tables buf block, register order s.tables i result.rBuf = some tables ∧
            block.alistIdx = i ∧
            tcpdSockEvent order i result.rBuf = some (buf, block) ∧
            next = { s with tables, buf, fifo := s.fifo ++ [⟨block, s.conn i⟩] }) ∨
          next =
            { s with
              tables := if result.disconnect then recvDisconnect s.tables i else s.tables
              buf := result.rBuf }) := by
  simp only [step] at stepped
  split at stepped
  · rename_i lives
    obtain ⟨⟨tables, result⟩, received, rest⟩ := Option.bind_eq_some_iff.mp stepped
    obtain ⟨frame, same⟩ := tcpRecv_eq received
    refine ⟨lives.1, lives.2, result, frame, ?_⟩
    simp only at rest
    split at rest
    · rename_i positive
      have connected : ¬ result.disconnect = true := fun torn => by
        have := recvFrame_disconnect order frame torn
        omega
      rw [if_neg connected] at same
      subst same
      obtain ⟨tables, registered, rest⟩ := Option.bind_eq_some_iff.mp rest
      obtain ⟨⟨buf, block⟩, queued, rfl⟩ := Option.map_eq_some_iff.mp rest
      exact Or.inl
        ⟨positive, tables, buf, block, registered, tcpdSockEvent_slot queued, queued, rfl⟩
    · cases rest
      exact Or.inr (by rw [same])
  · cases stepped

theorem register_cases {t tables : HostTables} {i : Slot} {size : Nat} {buf : Bytes size}
    (done : register order t i buf = some tables) :
    ((t.vmcSystem i).systemport ≠ 0 ∧ tables = t) ∨
      (t.vmcSystem i).systemport = 0 ∧ ∃ vmIpaddress,
        load32 order buf defaultTcpComhdrLength = some vmIpaddress ∧
        tables = registerAs t i (order.ntohl vmIpaddress) := by
  unfold register at done
  split at done
  · rename_i unknown
    obtain ⟨vmIpaddress, loaded, rfl⟩ := Option.map_eq_some_iff.mp done
    exact Or.inr ⟨unknown, vmIpaddress, loaded, rfl⟩
  · rename_i known
    cases done
    exact Or.inl ⟨known, rfl⟩

theorem get_cases (stepped : step order traced s .get = some next) :
    ∃ request fifo, s.handler = .idle ∧ s.fifo = request :: fifo ∧
      next = { s with fifo, handler := .got request } := by
  simp only [step] at stepped
  split at stepped
  · rename_i request fifo idle queued
    cases stepped
    exact ⟨request, fifo, idle, queued, rfl⟩
  · cases stepped

theorem reset_cases (stepped : step order traced s .reset = some next) :
    ∃ request, s.handler = .got request ∧
      (next = { s with handler := .idle } ∨ request.block.msgtype = vmProcStateReq ∧
        (next = { s with handler := .answered request } ∨
          ∃ i tables, resetLinkStatus s.tables request.block.alistIdx = some (i, tables) ∧
            next =
              { s with
                tables
                handler := .found request
                resets := s.resets ++ [⟨request.conn, s.conn i⟩] })) := by
  simp only [step] at stepped
  split at stepped
  · rename_i request got
    refine ⟨request, got, ?_⟩
    unfold resetStep at stepped
    split at stepped
    · rename_i report
      obtain ⟨_, _, rest⟩ := Option.bind_eq_some_iff.mp stepped
      obtain ⟨_, _, same⟩ := Option.map_eq_some_iff.mp rest
      split at same
      · exact Or.inr ⟨report, Or.inl same.symm⟩
      · rename_i i tables found
        exact Or.inr ⟨report, Or.inr ⟨i, tables, found, same.symm⟩⟩
    · cases stepped
      exact Or.inl rfl
  · cases stepped

theorem send_cases {env : SendEnv} (stepped : step order traced s (.send env) = some next) :
    ∃ request tables wire, s.handler = .found request ∧
      sendRsp order s.tables request.block.alistIdx request.block.systemid env =
        some (tables, wire) ∧
      next =
        { s with
          tables
          handler := .answered request
          replies :=
            if wire = [] then s.replies
            else s.replies ++ [⟨request.conn, s.conn request.block.alistIdx⟩] } := by
  simp only [step] at stepped
  split at stepped
  · rename_i request found
    obtain ⟨⟨tables, wire⟩, sent, rfl⟩ := Option.map_eq_some_iff.mp stepped
    exact ⟨request, tables, wire, found, sent, rfl⟩
  · cases stepped

theorem copy_cases (stepped : step order traced s .copy = some next) :
    ∃ request ret vmstate, s.handler = .answered request ∧
      setVmProcessStateInfo order s.tables.stateinfo request.block.message =
        some (ret, vmstate) ∧
      next = { s with handler := .stored request ret vmstate } := by
  simp only [step] at stepped
  split at stepped
  · rename_i request answered
    obtain ⟨⟨ret, vmstate⟩, done, rfl⟩ := Option.map_eq_some_iff.mp stepped
    exact ⟨request, ret, vmstate, answered, done, rfl⟩
  · cases stepped

theorem writeBack_cases (stepped : step order traced s .writeBack = some next) :
    ∃ request ret vmstate, s.handler = .stored request ret vmstate ∧
      next =
        { s with
          tables := if ret = -1 then s.tables else { s.tables with stateinfo := vmstate }
          handler := .idle } := by
  simp only [step] at stepped
  split at stepped
  · rename_i request ret vmstate stored
    cases stepped
    exact ⟨request, ret, vmstate, stored, rfl⟩
  · cases stepped

end Cases

section Handling

variable {order : ByteOrder} {traced : Bool} {s : Host} {request : Request}

/-- The steps in which `fifo_getTask` handles a block when no other task runs. -/
def handling (t : HostTables) (request : Request) (env : SendEnv) : List HostEvent :=
  if request.block.msgtype = vmProcStateReq then
    match resetLinkStatus t request.block.alistIdx with
    | none => [.reset, .copy, .writeBack]
    | some _ => [.reset, .send env, .copy, .writeBack]
  else [.reset]

theorem run_store (answered : s.handler = .answered request) :
    (run (step order traced) s [.copy, .writeBack]).map Host.tables =
      (setVmProcessStateInfo order s.tables.stateinfo request.block.message).map
        fun (ret, vmstate) =>
          if ret = -1 then s.tables else { s.tables with stateinfo := vmstate } := by
  simp only [run, step, answered]
  cases setVmProcessStateInfo order s.tables.stateinfo request.block.message with
  | none => rfl
  | some stored => rfl

/-- `FifoGet_Event` is the run of these steps. -/
theorem run_handling (got : s.handler = .got request) (env : SendEnv) :
    (run (step order traced) s (handling s.tables request env)).map Host.tables =
      fifoGetEvent order traced s.tables request.block env := by
  by_cases report : request.block.msgtype = vmProcStateReq
  · have reset : step order traced s .reset = resetStep order traced s request := by
      simp only [step, got]
    rw [resetStep, if_pos report] at reset
    rw [handling, if_pos report, fifoGetEvent, if_pos report, sendVmProcStateRsp]
    generalize resetLinkStatus s.tables request.block.alistIdx = found at reset ⊢
    cases first : load32 order request.block.message vmIpaddressAt with
    | none =>
        rw [first, Option.bind_none] at reset
        cases found <;> simp only [run_cons, reset, Option.bind_none, Option.map_none]
    | some vmIpaddress =>
        cases debug : debugVmProcessState order traced request.block.message with
        | none =>
            rw [first, debug, Option.bind_some, Option.map_none] at reset
            cases found <;>
              simp only [run_cons, reset, Option.bind_none, Option.bind_some, Option.map_none]
        | some printed =>
            rw [first, debug, Option.bind_some, Option.map_some] at reset
            simp only [Option.bind_some]
            cases found with
            | none =>
                simp only [Option.bind_some] at reset ⊢
                rw [run_cons, reset, Option.bind_some]
                exact run_store rfl
            | some pair =>
                obtain ⟨i, tables⟩ := pair
                simp only at reset ⊢
                rw [run_cons, reset, Option.bind_some, run_cons]
                simp only [step, sendStep]
                cases sendRsp order tables request.block.alistIdx request.block.systemid env with
                | none => simp only [Option.map_none, Option.bind_none]
                | some sent =>
                    simp only [Option.map_some, Option.bind_some]
                    exact run_store rfl
  · simp only [handling, fifoGetEvent, if_neg report, run_cons, step, got, resetStep,
      Option.bind_some, run_nil, Option.map_some]

end Handling

end VnfMonitoring.HostSystem
