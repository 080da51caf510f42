import VnfMonitoring.HostTable

set_option autoImplicit false

/- The connections of the host over its steps: which of them the live slots have, and the
queue with the block that has been taken from it. -/
namespace VnfMonitoring.HostConnection

open VnfMonitoring.Memory VnfMonitoring.Socket VnfMonitoring.TcpFrame VnfMonitoring.Bpapp
  VnfMonitoring.HostSock VnfMonitoring.HostReport VnfMonitoring.HostSystem VnfMonitoring.HostTable

/-- The connection is that of a live slot. -/
def Lives (s : Host) (c : Nat) : Prop :=
  ∃ i, 0 < (s.tables.alist i).acceptFd ∧ (s.conn i).id = c

/-- The block that `fifo_getTask` has taken. -/
def taken : Handler → List Request
  | .idle => []
  | .got request | .found request | .answered request | .stored request _ _ => [request]

variable {order : ByteOrder} {traced : Bool} {s next : Host}

/-- The connections of the live slots are different ones, all accepted before. -/
structure ConnInv (s : Host) : Prop where
  accepted : ∀ i, (s.conn i).id ≤ s.accepted
  unique : ∀ i j, 0 < (s.tables.alist i).acceptFd → 0 < (s.tables.alist j).acceptFd →
    (s.conn i).id = (s.conn j).id → i = j

/-- Nothing but the accepts brings a connection to a slot. -/
structure Shrinks (s next : Host) : Prop where
  conn : next.conn = s.conn
  accepted : next.accepted = s.accepted
  listenFd : next.tables.listenFd = s.tables.listenFd
  fds : ∀ i, 0 < (next.tables.alist i).acceptFd →
    (next.tables.alist i).acceptFd = (s.tables.alist i).acceptFd

theorem Shrinks.live (shrinks : Shrinks s next) (i : Slot)
    (lives : 0 < (next.tables.alist i).acceptFd) : 0 < (s.tables.alist i).acceptFd := by
  rwa [← shrinks.fds i lives]

theorem teardown_acceptFd {t : HostTables} {i j : Slot}
    (lives : 0 < ((teardown t i).alist j).acceptFd) :
    j ≠ i ∧ ((teardown t i).alist j).acceptFd = (t.alist j).acceptFd := by
  by_cases here : j = i
  · subst here
    simp [teardown, clearSystem, closeSlot] at lives
  · exact ⟨here, by simp [teardown, clearSystem, closeSlot, here]⟩

theorem registerAs_acceptFd (t : HostTables) (i j : Slot) (systemaddr : UInt32) :
    ((registerAs t i systemaddr).alist j).acceptFd = (t.alist j).acceptFd := by
  by_cases here : j = i
  · subst here
    simp [registerAs]
  · simp [registerAs, here]

/-- A receive queues the block of a frame that is next, or finds the connection lost. -/
theorem receive_split {i : Slot} {events : List RecvEvent}
    (stepped : HostSystem.step order traced s (.receive i events) = some next) :
    0 < (s.tables.alist i).acceptFd ∧ ∃ result, recvFrame order s.buf events = some result ∧
      ((0 < result.nRecv ∧ ∃ tables buf block, register order s.tables i result.rBuf = some tables ∧
          tcpdSockEvent order i result.rBuf = some (buf, block) ∧
          next = { s with tables, buf, fifo := s.fifo ++ [⟨block, s.conn i⟩] }) ∨
        next = { s with tables := recvDisconnect s.tables i, buf := result.rBuf }) := by
  obtain ⟨idle, lives, result, received, cases⟩ := receive_cases stepped
  refine ⟨lives, result, received, ?_⟩
  rcases cases with ⟨positive, tables, buf, block, done, _, queued, same⟩ | same
  · exact Or.inl ⟨positive, tables, buf, block, done, queued, same⟩
  · cases torn : result.disconnect with
    | true =>
        rw [torn, if_pos rfl] at same
        exact Or.inr same
    | false =>
        have positive := recvFrame_connected received torn
        simp only [HostSystem.step, if_pos (And.intro idle lives), receiveStep, tcpRecv, received,
          Option.map_some, Option.bind_some, torn, Bool.false_eq_true, if_false,
          if_pos (show result.nRecv > 0 from positive)] at stepped
        obtain ⟨tables, registered, rest⟩ := Option.bind_eq_some_iff.mp stepped
        obtain ⟨⟨buf, block⟩, queued, done⟩ := Option.map_eq_some_iff.mp rest
        exact Or.inl ⟨positive, tables, buf, block, registered, queued, done.symm⟩

theorem step_shrinks {event : HostEvent} (inv : TableInv s.tables s.accepting)
    (stepped : HostSystem.step order traced s event = some next)
    (other : ∀ fd port vm, event ≠ .accept fd port vm) : Shrinks s next := by
  cases event with
  | accept fd port vm => exact absurd rfl (other fd port vm)
  | acceptSet =>
      obtain ⟨i, _, rfl⟩ := Option.map_eq_some_iff.mp stepped
      simp only [watch]
      split <;> exact ⟨rfl, rfl, rfl, fun _ _ => rfl⟩
  | receive i events =>
      obtain ⟨_, result, _, ⟨_, tables, buf, block, registered, _, rfl⟩ | rfl⟩ :=
        receive_split stepped
      · rcases register_cases registered with ⟨_, rfl⟩ | ⟨_, vmIpaddress, _, rfl⟩
        · exact ⟨rfl, rfl, rfl, fun _ _ => rfl⟩
        · exact ⟨rfl, rfl, rfl, fun j _ => registerAs_acceptFd ..⟩
      · rcases recvDisconnect_cases inv.mode i with same | ⟨_, same⟩
        · simp only [same]
          exact ⟨rfl, rfl, rfl, fun _ _ => rfl⟩
        · simp only [same]
          exact ⟨rfl, rfl, rfl, fun j lives => (teardown_acceptFd lives).2⟩
  | get =>
      obtain ⟨_, _, _, _, rfl⟩ := get_cases stepped
      exact ⟨rfl, rfl, rfl, fun _ _ => rfl⟩
  | reset =>
      obtain ⟨request, _, rfl | ⟨_, rfl | ⟨i, tables, found, rfl⟩⟩⟩ := reset_cases stepped
      · exact ⟨rfl, rfl, rfl, fun _ _ => rfl⟩
      · exact ⟨rfl, rfl, rfl, fun _ _ => rfl⟩
      · obtain ⟨_, _, rfl, _⟩ := resetLinkStatus_some found
        exact ⟨rfl, rfl, rfl, fun _ _ => rfl⟩
  | send env =>
      obtain ⟨request, tables, wire, _, sent, rfl⟩ := send_cases stepped
      rcases (sendRsp_eq sent).1 with rfl | rfl
      · exact ⟨rfl, rfl, rfl, fun _ _ => rfl⟩
      · rcases sendDisconnect_cases inv.mode request.block.alistIdx with same | ⟨_, same⟩
        · simp only [same]
          exact ⟨rfl, rfl, rfl, fun _ _ => rfl⟩
        · simp only [same]
          exact ⟨rfl, rfl, rfl, fun j lives => (teardown_acceptFd lives).2⟩
  | copy =>
      obtain ⟨_, _, _, _, _, rfl⟩ := copy_cases stepped
      exact ⟨rfl, rfl, rfl, fun _ _ => rfl⟩
  | writeBack =>
      obtain ⟨_, _, _, _, rfl⟩ := writeBack_cases stepped
      simp only
      split <;> exact ⟨rfl, rfl, rfl, fun _ _ => rfl⟩

theorem Shrinks.connInv (shrinks : Shrinks s next) (inv : ConnInv s) : ConnInv next where
  accepted := by
    rw [shrinks.conn, shrinks.accepted]
    exact inv.accepted
  unique := by
    intro i j first second same
    rw [shrinks.conn] at same
    exact inv.unique i j (shrinks.live i first) (shrinks.live j second) same

theorem Shrinks.lives (shrinks : Shrinks s next) {c : Nat} (lives : Lives next c) : Lives s c := by
  obtain ⟨i, open_, same⟩ := lives
  exact ⟨i, shrinks.live i open_, by rw [← same, shrinks.conn]⟩

/-- What a slot is registered as: the port, and the address in both tables. -/
def registration (t : HostTables) (i : Slot) : UInt16 × UInt32 × UInt32 :=
  ((t.vmcSystem i).systemport, (t.vmcSystem i).systemaddr, (t.alist i).sysinfo.systemaddr)

/-- An accept that gives the next connection to a slot. -/
structure TakenBy (s next : Host) (i : Slot) : Prop where
  accepting : next.accepting = some i
  accepted : next.accepted = s.accepted + 1
  conn : (next.conn i).id = s.accepted + 1
  listenFd : next.tables.listenFd = s.tables.listenFd
  others : ∀ j, j ≠ i →
    (next.tables.alist j).acceptFd = (s.tables.alist j).acceptFd ∧ next.conn j = s.conn j
  free : ¬ 0 < (s.tables.alist i).acceptFd
  registered : ∀ j, registration next.tables j = registration s.tables j

/-- An accept gives the next connection to a slot, or changes nothing. -/
theorem accept_taken {fd : Int} {port : UInt16} {vm : UInt32}
    (inv : TableInv s.tables s.accepting)
    (stepped : HostSystem.step order traced s (.accept fd port vm) = some next) :
    (∃ i, TakenBy s next i) ∨ next = s ∧ s.accepting = none := by
  obtain ⟨⟨idle, _, _, _⟩, ⟨i, found, rfl⟩ | ⟨_, rfl⟩⟩ := accept_cases inv stepped
  · refine Or.inl ⟨i, rfl, rfl, by simp, rfl, fun j other => ?_, fun lives => ?_, fun j => ?_⟩
    · simp [takeSlot, other]
    · exact (inv.live i).mpr lives (freeSlot_eq_some found).1
    · by_cases here : j = i
      · subst here
        simp [registration, takeSlot]
      · simp [registration, takeSlot, here]
  · exact Or.inr ⟨rfl, idle⟩

/-- What the accept makes of a connection of a slot. -/
theorem TakenBy.slot {i : Slot} (taken : TakenBy s next i) (j : Slot) :
    (j = i ∧ (next.conn j).id = s.accepted + 1) ∨
      (j ≠ i ∧ (next.tables.alist j).acceptFd = (s.tables.alist j).acceptFd ∧
        next.conn j = s.conn j) := by
  by_cases here : j = i
  · subst here
    exact Or.inl ⟨rfl, taken.conn⟩
  · exact Or.inr ⟨here, taken.others j here⟩

theorem TakenBy.connInv {i : Slot} (taken : TakenBy s next i) (conns : ConnInv s) :
    ConnInv next where
  accepted := by
    intro j
    have before := conns.accepted j
    rw [taken.accepted]
    rcases taken.slot j with ⟨_, new⟩ | ⟨_, _, kept⟩
    · exact Nat.le_of_eq new
    · rw [kept]
      omega
  unique := by
    intro j k first second same
    have beforeJ := conns.accepted j
    have beforeK := conns.accepted k
    rcases taken.slot j with ⟨rfl, newJ⟩ | ⟨_, fdJ, keptJ⟩ <;>
      rcases taken.slot k with ⟨rfl, newK⟩ | ⟨_, fdK, keptK⟩
    · rfl
    · rw [newJ, keptK] at same
      omega
    · rw [newK, keptJ] at same
      omega
    · rw [keptJ, keptK] at same
      exact conns.unique j k (fdJ ▸ first) (fdK ▸ second) same

theorem TakenBy.lives {i : Slot} (taken : TakenBy s next i) {c : Nat} (lives : Lives next c) :
    Lives s c ∨ s.accepted < c := by
  obtain ⟨j, open_, same⟩ := lives
  rcases taken.slot j with ⟨_, new⟩ | ⟨_, fd, kept⟩
  · exact Or.inr (by omega)
  · exact Or.inl ⟨j, fd ▸ open_, by rw [← same, kept]⟩

/-- Only a receive queues, and a block is handled once, in its turn. -/
theorem step_fifo {event : HostEvent} (stepped : HostSystem.step order traced s event = some next)
    (other : ∀ i events, event ≠ .receive i events) (inv : TableInv s.tables s.accepting) :
    next.fifo <:+ s.fifo ∧
      ∀ request ∈ taken next.handler, request ∈ s.fifo ∨ request ∈ taken s.handler := by
  cases event with
  | accept fd port vm =>
      obtain ⟨_, ⟨i, _, rfl⟩ | ⟨_, rfl⟩⟩ := accept_cases inv stepped
      · exact ⟨List.suffix_refl _, fun _ held => Or.inr held⟩
      · exact ⟨List.suffix_refl _, fun _ held => Or.inr held⟩
  | acceptSet =>
      obtain ⟨i, _, rfl⟩ := Option.map_eq_some_iff.mp stepped
      exact ⟨List.suffix_refl _, fun _ held => Or.inr held⟩
  | receive i events => exact absurd rfl (other i events)
  | get =>
      obtain ⟨request, fifo, _, queued, rfl⟩ := get_cases stepped
      refine ⟨⟨[request], queued.symm⟩, fun other held => Or.inl ?_⟩
      rw [queued]
      obtain rfl := List.mem_singleton.mp held
      exact List.mem_cons_self
  | reset =>
      obtain ⟨request, got, rfl | ⟨_, rfl | ⟨i, tables, _, rfl⟩⟩⟩ := reset_cases stepped
      · exact ⟨List.suffix_refl _, fun _ held => absurd held List.not_mem_nil⟩
      · exact ⟨List.suffix_refl _, fun _ held => Or.inr (by rw [got]; exact held)⟩
      · exact ⟨List.suffix_refl _, fun _ held => Or.inr (by rw [got]; exact held)⟩
  | send env =>
      obtain ⟨request, tables, wire, found, _, rfl⟩ := send_cases stepped
      exact ⟨List.suffix_refl _, fun _ held => Or.inr (by rw [found]; exact held)⟩
  | copy =>
      obtain ⟨request, ret, vmstate, answered, _, rfl⟩ := copy_cases stepped
      exact ⟨List.suffix_refl _, fun _ held => Or.inr (by rw [answered]; exact held)⟩
  | writeBack =>
      obtain ⟨_, _, _, _, rfl⟩ := writeBack_cases stepped
      exact ⟨List.suffix_refl _, fun _ held => absurd held List.not_mem_nil⟩

end VnfMonitoring.HostConnection
