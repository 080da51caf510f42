import VnfMonitoring.HostRegistration

set_option autoImplicit false

/- To whom the host answers: a queued block names its connection by the slot only, which
is right as long as the slot is not taken again before the answer. -/
namespace VnfMonitoring.HostReply

open VnfMonitoring.Memory VnfMonitoring.Socket VnfMonitoring.TcpFrame VnfMonitoring.Bpapp
  VnfMonitoring.HostSock VnfMonitoring.HostReport VnfMonitoring.HostSystem VnfMonitoring.HostTable
  VnfMonitoring.HostRegistration VnfMonitoring.Runs

/-- Every response was written to the connection of its request, and every entry reset
is that of the VM that sent the request. -/
def Answered (s : Host) : Prop :=
  (∀ reply ∈ s.replies, reply.written = reply.request) ∧
    ∀ reset ∈ s.resets, reset.system.vm = reset.request.vm

/-- The request that `fifo_getTask` has taken and not answered. -/
def unanswered : Handler → List Request
  | .got request => [request]
  | .found request => [request]
  | _ => []

/-- The requests queued or being answered. -/
def outstanding (s : Host) : List Request := s.fifo ++ unanswered s.handler

/-- No accept takes a slot while a block received on it waits for its answer, and every
VM registers its own address. -/
def ReplyOk (order : ByteOrder) (s : Host) (event : HostEvent) : Prop :=
  RegisterOk order s event ∧
    match event with
    | .accept _ _ _ => ∀ i, freeSlot s.tables = some i →
        ∀ request ∈ outstanding s, request.block.alistIdx ≠ i
    | _ => True

instance (order : ByteOrder) (s : Host) (event : HostEvent) : Decidable (ReplyOk order s event) :=
  match event with
  | .accept _ _ _ | .acceptSet | .receive _ _ | .get | .reset | .send _ | .copy | .writeBack =>
      inferInstanceAs (Decidable (_ ∧ _))

/-- The slot of a request is still that of its connection, under the address of its VM. -/
structure Held (t : HostTables) (conn : Slot → Connection) (request : Request) : Prop where
  same : request.conn = conn request.block.alistIdx
  addr : (t.alist request.block.alistIdx).sysinfo.systemaddr = request.conn.vm
  present : request.conn.vm ≠ 0

structure ReplyInv (s : Host) : Prop where
  table : TableInv s.tables s.accepting
  registered : Registered s.tables s.conn
  held : ∀ request ∈ outstanding s, Held s.tables s.conn request
  answered : Answered s

theorem init_replyInv {listenFd : Int} (listening : 0 < listenFd) :
    ReplyInv (Host.init listenFd) where
  table := init_tableInv listening
  registered := init_registered listenFd
  held := fun _ member => absurd member List.not_mem_nil
  answered :=
    ⟨fun _ member => absurd member List.not_mem_nil, fun _ member => absurd member List.not_mem_nil⟩

section Step

variable {t : HostTables} {conn : Slot → Connection} {request : Request}

theorem Held.congr (held : Held t conn request) {next : HostTables}
    (addrs : ∀ i, (next.alist i).sysinfo.systemaddr = (t.alist i).sysinfo.systemaddr) :
    Held next conn request :=
  { held with addr := (addrs _).trans held.addr }

theorem teardown_addr (t : HostTables) (i j : Slot) :
    ((teardown t i).alist j).sysinfo.systemaddr = (t.alist j).sysinfo.systemaddr := by
  by_cases here : j = i
  · subst here
    simp [teardown, clearSystem, closeSlot]
  · simp [teardown, clearSystem, closeSlot, here]

theorem Held.sendDisconnect (held : Held t conn request) {accepting : Option Slot}
    (inv : TableInv t accepting) (i : Slot) : Held (sendDisconnect t i) conn request := by
  rcases sendDisconnect_cases inv.mode i with same | ⟨_, same⟩
  · rwa [same]
  · rw [same]
    exact held.congr (teardown_addr t i)

theorem Held.recvDisconnect (held : Held t conn request) {accepting : Option Slot}
    (inv : TableInv t accepting) (i : Slot) : Held (recvDisconnect t i) conn request := by
  rcases recvDisconnect_cases inv.mode i with same | ⟨_, same⟩
  · rwa [same]
  · rw [same]
    exact held.congr (teardown_addr t i)

theorem Held.takeSlot (held : Held t conn request) {i : Slot}
    (other : request.block.alistIdx ≠ i) (fd : Int) (port : UInt16) (openFds : Finset Int)
    (fresh : Connection) :
    Held (takeSlot { t with openFds } i fd port) (Function.update conn i fresh) request := by
  obtain ⟨same, addr, present⟩ := held
  exact ⟨by simpa [other] using same, by simpa [HostSock.takeSlot, other] using addr, present⟩

/-- The registration of a slot gives it the address of its own connection's VM. -/
theorem Held.register (held : Held t conn request) {order : ByteOrder} {i : Slot} {size : Nat}
    {buf : Bytes size} {tables : HostTables} (done : register order t i buf = some tables)
    (registered : Registered tables conn) (known : (tables.vmcSystem i).systemport ≠ 0) :
    Held tables conn request := by
  obtain ⟨same, addr, present⟩ := held
  refine ⟨same, ?_, present⟩
  by_cases here : request.block.alistIdx = i
  · rw [here, (registered.known i known).1, same, here]
  · rcases register_cases done with ⟨_, rfl⟩ | ⟨_, vmIpaddress, _, rfl⟩
    · exact addr
    · simpa [registerAs, here] using addr

/-- An entry that `SendVmProcStateRsp` finds for a request is that of its VM. -/
theorem resetLinkStatus_owner (held : Held t conn request) (registered : Registered t conn)
    {i : Slot} {tables : HostTables}
    (found : resetLinkStatus t request.block.alistIdx = some (i, tables)) :
    (conn i).vm = request.conn.vm := by
  have same := (resetLinkStatus_some found).1
  rw [held.addr] at same
  by_cases known : (t.vmcSystem i).systemport = 0
  · rw [registered.unknown i known] at same
    exact absurd same.symm held.present
  · rw [← same, (registered.known i known).2.1]

end Step

/-- The part of the invariant that is about the requests and their answers. -/
structure AnswersInv (s : Host) : Prop where
  held : ∀ request ∈ outstanding s, Held s.tables s.conn request
  answered : Answered s

section Events

variable {order : ByteOrder} {traced : Bool} {s next : Host}

/-- A block that arrives is queued under the slot of its connection. -/
theorem receive_answersInv (inv : ReplyInv s) {i : Slot} {events : List RecvEvent}
    (ok : RegisterOk order s (.receive i events))
    (stepped : step order traced s (.receive i events) = some next) : AnswersInv next := by
  obtain ⟨table, registered, held, answered⟩ := inv
  obtain ⟨_, lives, result, received, cases⟩ := receive_cases stepped
  rcases cases with ⟨positive, tables, buf, block, done, slot, _, rfl⟩ | rfl
  · obtain ⟨after, known⟩ :=
      register_registered registered table lives ok received positive done
    refine ⟨fun request member => ?_, answered⟩
    simp only [outstanding, List.append_assoc, List.mem_append] at member
    rcases member with queued | new | taken
    · exact (held request (List.mem_append_left _ queued)).register done after known
    · obtain rfl := List.mem_singleton.mp new
      obtain ⟨addr, _, present⟩ := after.known i known
      exact ⟨by simp only [slot], by simpa only [slot] using addr, present⟩
    · exact (held request (List.mem_append_right _ taken)).register done after known
  · refine ⟨fun request member => ?_, answered⟩
    simp only
    split
    · exact (held request member).recvDisconnect table i
    · exact held request member

theorem get_answersInv (inv : ReplyInv s) (stepped : step order traced s .get = some next) :
    AnswersInv next := by
  obtain ⟨request, fifo, idle, queued, rfl⟩ := get_cases stepped
  refine ⟨fun other member => inv.held other ?_, inv.answered⟩
  simp only [outstanding, unanswered, List.mem_append, List.mem_singleton] at member
  rw [outstanding, queued, idle]
  rcases member with later | rfl
  · simp [later]
  · simp

/-- The entry that is reset is found under the address of the request's connection. -/
theorem reset_answersInv (inv : ReplyInv s) (stepped : step order traced s .reset = some next) :
    AnswersInv next := by
  obtain ⟨_, registered, held, answered⟩ := inv
  obtain ⟨request, got, cases⟩ := reset_cases stepped
  have fewer : ∀ other ∈ s.fifo, other ∈ outstanding s := fun _ member =>
    List.mem_append_left _ member
  have own : request ∈ outstanding s := by simp [outstanding, got, unanswered]
  rcases cases with rfl | ⟨_, rfl | ⟨i, tables, found, rfl⟩⟩
  · exact ⟨fun other member =>
      held other (fewer other (by simpa [outstanding, unanswered] using member)), answered⟩
  · exact ⟨fun other member =>
      held other (fewer other (by simpa [outstanding, unanswered] using member)), answered⟩
  · have owner := resetLinkStatus_owner (held request own) registered found
    obtain ⟨_, _, rfl, _⟩ := resetLinkStatus_some found
    refine ⟨fun other member => ?_, answered.1, fun reset member => ?_⟩
    · refine (held other ?_).congr fun _ => rfl
      simpa [outstanding, got, unanswered] using member
    · rcases List.mem_append.mp member with old | new
      · exact answered.2 reset old
      · obtain rfl := List.mem_singleton.mp new
        exact owner

/-- The response goes out on the slot of the request, which is still its connection's. -/
theorem send_answersInv (inv : ReplyInv s) {env : SendEnv}
    (stepped : step order traced s (.send env) = some next) : AnswersInv next := by
  obtain ⟨table, _, held, answered⟩ := inv
  obtain ⟨request, tables, wire, found, sent, rfl⟩ := send_cases stepped
  have own : request ∈ outstanding s := by simp [outstanding, found, unanswered]
  have replies : ∀ reply ∈ (if wire = [] then s.replies
      else s.replies ++ [⟨request.conn, s.conn request.block.alistIdx⟩]),
      reply.written = reply.request := by
    intro reply member
    split at member
    · exact answered.1 reply member
    · rcases List.mem_append.mp member with old | new
      · exact answered.1 reply old
      · obtain rfl := List.mem_singleton.mp new
        exact (held request own).same.symm
  refine ⟨fun other member => ?_, replies, answered.2⟩
  have kept : Held s.tables s.conn other :=
    held other (List.mem_append_left _ (by simpa [outstanding, unanswered] using member))
  rcases (sendRsp_eq sent).1 with rfl | rfl
  · exact kept
  · exact kept.sendDisconnect table _

theorem writeBack_answersInv (inv : ReplyInv s)
    (stepped : step order traced s .writeBack = some next) : AnswersInv next := by
  obtain ⟨request, ret, vmstate, stored, rfl⟩ := writeBack_cases stepped
  refine ⟨fun other member => (inv.held other ?_).congr fun j => ?_, inv.answered⟩
  · simpa [outstanding, stored, unanswered] using member
  · simp only
    split <;> rfl

end Events

variable {order : ByteOrder} {traced : Bool}

/-- Every step that meets the condition keeps the answers right. -/
theorem step_replyInv {s next : Host} {event : HostEvent} (inv : ReplyInv s)
    (ok : ReplyOk order s event) (stepped : step order traced s event = some next) :
    ReplyInv next := by
  have answers : AnswersInv next := by
    cases event with
    | accept fd port vm =>
        obtain ⟨_, ⟨i, found, rfl⟩ | ⟨_, rfl⟩⟩ := accept_cases inv.table stepped
        · exact ⟨fun request member => (inv.held request member).takeSlot
            (ok.2 i found request member) fd port _ _, inv.answered⟩
        · exact ⟨inv.held, inv.answered⟩
    | acceptSet =>
        obtain ⟨i, half, rfl⟩ := Option.map_eq_some_iff.mp stepped
        have same := watch_entries s.tables i
        exact ⟨fun request member => (inv.held request member).congr fun j => by rw [same.1],
          inv.answered⟩
    | receive i events => exact receive_answersInv inv ok.1 stepped
    | get => exact get_answersInv inv stepped
    | reset => exact reset_answersInv inv stepped
    | send env => exact send_answersInv inv stepped
    | copy =>
        obtain ⟨request, ret, vmstate, answering, _, rfl⟩ := copy_cases stepped
        refine ⟨fun other member => inv.held other ?_, inv.answered⟩
        simpa [outstanding, answering, unanswered] using member
    | writeBack => exact writeBack_answersInv inv stepped
  exact
    { table := step_tableInv inv.table stepped
      registered := step_registered inv.registered inv.table ok.1 stepped
      held := answers.held
      answered := answers.answered }

/-- In every run whose steps all meet the condition, every response sent was written to
the connection of its request, and every reset was of the VM that sent it. -/
theorem run_replies {listenFd : Int} (listening : 0 < listenFd) {events : List HostEvent}
    (allowed : AllSteps (step order traced) (ReplyOk order) (Host.init listenFd) events)
    {final : Host} (reached : run (step order traced) (Host.init listenFd) events = some final) :
    Answered final :=
  (run_invariant_of ReplyInv (fun _ _ _ inv ok stepped => step_replyInv inv ok stepped)
    (init_replyInv listening) allowed reached).answered

/-- A whole report of a VM with no process, arriving in one piece. -/
def report (ip : List UInt8) : List RecvEvent :=
  [.data 4 ([0, 0xB8, 0x03, 0, 0, 0, 1, 0, 1, 0x03, 0xAC] ++ ip ++ List.replicate 936 0)]

/-- A connection lost after its answer, whose slot is then taken again. -/
def answeredRun (i : Slot) : List HostEvent :=
  [.accept 5 40000 0x0A000001, .acceptSet, .receive i (report [10, 0, 0, 1]), .get, .reset,
    .send ⟨[], []⟩, .receive i [.closed], .accept 6 40001 0x0A000002, .acceptSet]

theorem run_replies_answered :
    ∃ final, run (step .little false) (Host.init 3) (answeredRun 0) = some final ∧
      final.replies = [⟨⟨1, 0x0A000001⟩, ⟨1, 0x0A000001⟩⟩] ∧ Answered final := by
  obtain ⟨final, reached, replies⟩ :=
    exists_of_any (P := fun final : Host => final.replies = [⟨⟨1, 0x0A000001⟩, ⟨1, 0x0A000001⟩⟩])
      (show (run (step .little false) (Host.init 3) (answeredRun 0)).any _ = true by decide +kernel)
  exact ⟨final, reached, replies, run_replies (by decide) (by decide +kernel) reached⟩

/-- A report whose connection is lost, and its slot taken, before it is answered: the
answer goes to the other VM. -/
theorem send_otherVm :
    ∃ final, run (step .little false) (Host.init 3) [.accept 5 40000 0x0A000001, .acceptSet,
        .receive 0 (report [10, 0, 0, 1]), .receive 0 [.closed],
        .accept 6 40001 0x0A000002, .acceptSet, .receive 0 (report [10, 0, 0, 2]),
        .get, .reset, .send ⟨[], []⟩] = some final ∧
      ∃ reply ∈ final.replies, reply.written ≠ reply.request :=
  exists_of_any (by decide +kernel)

end VnfMonitoring.HostReply
