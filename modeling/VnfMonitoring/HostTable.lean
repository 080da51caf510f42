import VnfMonitoring.HostSystem

set_option autoImplicit false

/- The connection table of the host over every run: liveness of a slot is the same in
its port, its descriptor, the descriptors watched and the VM registered. -/
namespace VnfMonitoring.HostTable

open VnfMonitoring.Memory VnfMonitoring.Socket VnfMonitoring.TcpFrame VnfMonitoring.Bpapp
  VnfMonitoring.HostSock VnfMonitoring.HostReport VnfMonitoring.HostSystem VnfMonitoring.Runs

/-- The tables agree on which slots are live; the descriptor of an accept between its
two sections is not watched yet. -/
structure TableInv (t : HostTables) (accepting : Option Slot) : Prop where
  mode : t.mode = .server
  listening : 0 < t.listenFd
  live : ∀ i, (t.alist i).sysinfo.port ≠ 0 ↔ 0 < (t.alist i).acceptFd
  distinct : ∀ i j, 0 < (t.alist i).acceptFd → (t.alist i).acceptFd = (t.alist j).acceptFd → i = j
  apart : ∀ i, (t.alist i).acceptFd ≠ t.listenFd
  watched : ∀ fd, fd ∈ t.allset ↔
    fd = t.listenFd ∨ ∃ i, accepting ≠ some i ∧ 0 < fd ∧ (t.alist i).acceptFd = fd
  opened : ∀ fd, fd ∈ t.openFds ↔ fd = t.listenFd ∨ ∃ i, 0 < fd ∧ (t.alist i).acceptFd = fd
  registered : ∀ i, (t.vmcSystem i).systemport ≠ 0 →
    0 < (t.alist i).acceptFd ∧ (t.vmcSystem i).systemport = (t.alist i).sysinfo.port

theorem init_tableInv {listenFd : Int} (listening : 0 < listenFd) :
    TableInv (Host.init listenFd).tables none where
  mode := rfl
  listening := listening
  live := fun _ => by simp [Host.init, HostTables.init]
  distinct := fun _ _ positive => absurd positive (show ¬ (0 : Int) < -1 by decide)
  apart := fun _ same => by
    have positive : listenFd = -1 := same.symm
    omega
  watched := fun fd => by
    simp only [Host.init, HostTables.init, Finset.mem_singleton]
    refine ⟨Or.inl, fun watched => watched.elim id ?_⟩
    rintro ⟨_, _, positive, same⟩
    omega
  opened := fun fd => by
    simp only [Host.init, HostTables.init, Finset.mem_singleton]
    refine ⟨Or.inl, fun opened => opened.elim id ?_⟩
    rintro ⟨_, positive, same⟩
    omega
  registered := fun _ present => absurd rfl present

section Step

variable {t : HostTables} {accepting : Option Slot}

/-- A change that keeps descriptors, ports and sets, and registers live slots only. -/
theorem TableInv.frame (inv : TableInv t accepting) {next : HostTables}
    (mode : next.mode = t.mode) (listenFd : next.listenFd = t.listenFd)
    (allset : next.allset = t.allset) (openFds : next.openFds = t.openFds)
    (fds : ∀ i, (next.alist i).acceptFd = (t.alist i).acceptFd)
    (ports : ∀ i, (next.alist i).sysinfo.port = (t.alist i).sysinfo.port)
    (systems : ∀ i, (next.vmcSystem i).systemport = (t.vmcSystem i).systemport ∨
      0 < (t.alist i).acceptFd ∧ (next.vmcSystem i).systemport = (t.alist i).sysinfo.port) :
    TableInv next accepting := by
  obtain ⟨server, listening, live, distinct, apart, watched, opened, registered⟩ := inv
  refine ⟨mode.trans server, listenFd ▸ listening, ?_, ?_, ?_, ?_, ?_, ?_⟩
  · simpa only [fds, ports] using live
  · simpa only [fds] using distinct
  · simpa only [fds, listenFd] using apart
  · simpa only [fds, listenFd, allset] using watched
  · simpa only [fds, listenFd, openFds] using opened
  · intro i present
    rw [fds, ports]
    rcases systems i with same | here
    · rw [same] at present ⊢
      exact registered i present
    · exact here

/-- Taking a free slot for a new descriptor. -/
theorem takeSlot_inv (inv : TableInv t none) {i : Slot} (free : (t.alist i).sysinfo.port = 0)
    {fd : Int} (positive : 0 < fd) (fresh : fd ∉ t.openFds) {port : UInt16} (present : port ≠ 0) :
    TableInv (takeSlot { t with openFds := insert fd t.openFds } i fd port) (some i) := by
  obtain ⟨server, listening, live, distinct, apart, watched, opened, registered⟩ := inv
  have closed : ¬ 0 < (t.alist i).acceptFd := fun lives => (live i).mpr lives free
  rw [opened, not_or, not_exists] at fresh
  have other (j : Slot) : (t.alist j).acceptFd ≠ fd := fun same => fresh.2 j ⟨positive, same⟩
  refine ⟨server, listening, ?_, ?_, ?_, ?_, ?_, ?_⟩
  · intro j
    by_cases here : j = i
    · subst here
      simpa [takeSlot, positive] using present
    · simpa [takeSlot, here] using live j
  · intro j k lives same
    by_cases first : j = i <;> by_cases second : k = i <;>
      simp only [takeSlot, first, second, Function.update_self, ne_eq, not_false_eq_true,
        Function.update_of_ne] at lives same ⊢
    · exact absurd same.symm (other k)
    · exact absurd same (other j)
    · exact distinct j k lives same
  · intro j
    by_cases here : j = i
    · subst here
      simpa [takeSlot] using fresh.1
    · simpa [takeSlot, here] using apart j
  · intro x
    rw [show x ∈ (takeSlot { t with openFds := insert fd t.openFds } i fd port).allset ↔
      x ∈ t.allset from Iff.rfl, watched]
    refine or_congr Iff.rfl (exists_congr fun j => ?_)
    by_cases here : j = i
    · subst here
      simp only [takeSlot, Function.update_self, ne_eq, reduceCtorEq, not_false_eq_true, true_and,
        not_true_eq_false, false_and, iff_false]
      rintro ⟨lives, rfl⟩
      exact closed lives
    · simp [takeSlot, here, Ne.symm here]
  · intro x
    rw [show x ∈ (takeSlot { t with openFds := insert fd t.openFds } i fd port).openFds ↔
      x ∈ insert fd t.openFds from Iff.rfl, Finset.mem_insert, opened]
    constructor
    · rintro (rfl | listen | ⟨j, lives, same⟩)
      · exact Or.inr ⟨i, positive, by simp [takeSlot]⟩
      · exact Or.inl listen
      · refine Or.inr ⟨j, lives, ?_⟩
        have here : j ≠ i := by
          rintro rfl
          omega
        simpa [takeSlot, here] using same
    · rintro (listen | ⟨j, lives, same⟩)
      · exact Or.inr (Or.inl listen)
      · by_cases here : j = i
        · subst here
          exact Or.inl (by simpa [takeSlot] using same.symm)
        · exact Or.inr (Or.inr ⟨j, lives, by simpa [takeSlot, here] using same⟩)
  · intro j here
    by_cases same : j = i
    · subst same
      simp only [takeSlot, Function.update_self] at here ⊢
      exact absurd (registered j here).1 closed
    · simpa [takeSlot, same] using registered j (by simpa [takeSlot, same] using here)

theorem watch_inv {i : Slot} (inv : TableInv t (some i)) : TableInv (watch t i) none := by
  obtain ⟨server, listening, live, distinct, apart, watched, opened, registered⟩ := inv
  unfold watch
  split
  · rename_i lives
    refine ⟨server, listening, live, distinct, apart, fun fd => ?_, opened, registered⟩
    rw [Finset.mem_insert, watched]
    constructor
    · rintro (rfl | listen | ⟨j, _, positive, same⟩)
      · exact Or.inr ⟨i, by simp, lives, rfl⟩
      · exact Or.inl listen
      · exact Or.inr ⟨j, by simp, positive, same⟩
    · rintro (listen | ⟨j, _, positive, same⟩)
      · exact Or.inr (Or.inl listen)
      · by_cases here : i = j
        · exact Or.inl (here ▸ same.symm)
        · exact Or.inr (Or.inr ⟨j, by simpa using here, positive, same⟩)
  · rename_i lost
    refine ⟨server, listening, live, distinct, apart, fun fd => ?_, opened, registered⟩
    rw [watched]
    refine or_congr Iff.rfl (exists_congr fun j => ?_)
    simp only [ne_eq, Option.some.injEq, reduceCtorEq, not_false_eq_true, true_and,
      and_iff_right_iff_imp]
    rintro ⟨positive, same⟩ rfl
    omega

/-- Both disconnection branches, the VM's state apart. -/
theorem teardown_inv (inv : TableInv t accepting) {i : Slot} (lives : 0 < (t.alist i).acceptFd) :
    TableInv (teardown t i) accepting := by
  obtain ⟨server, listening, live, distinct, apart, watched, opened, registered⟩ := inv
  have kept (j : Slot) (other : j ≠ i) :
      (teardown t i).alist j = t.alist j := by
    simp [teardown, clearSystem, closeSlot, other]
  have gone : (teardown t i).alist i =
      ⟨-1, { (t.alist i).sysinfo with port := 0 }⟩ := by
    simp [teardown, clearSystem, closeSlot]
  have moved (P : Slot → Prop) (fd : Int) :
      (fd ≠ (t.alist i).acceptFd ∧
          (fd = t.listenFd ∨ ∃ j, P j ∧ 0 < fd ∧ (t.alist j).acceptFd = fd)) ↔
        (fd = t.listenFd ∨ ∃ j, P j ∧ 0 < fd ∧
          ((teardown t i).alist j).acceptFd = fd) := by
    constructor
    · rintro ⟨other, listen | ⟨j, allowed, positive, same⟩⟩
      · exact Or.inl listen
      · have here : j ≠ i := by
          rintro rfl
          exact other same.symm
        exact Or.inr ⟨j, allowed, positive, by rw [kept j here]; exact same⟩
    · rintro (rfl | ⟨j, allowed, positive, same⟩)
      · exact ⟨(apart i).symm, Or.inl rfl⟩
      · have here : j ≠ i := by
          rintro rfl
          rw [gone] at same
          simp only at same
          omega
        rw [kept j here] at same
        refine ⟨?_, Or.inr ⟨j, allowed, positive, same⟩⟩
        rintro rfl
        exact here (distinct j i (same ▸ positive) same)
  refine ⟨server, listening, ?_, ?_, ?_, ?_, ?_, ?_⟩
  · intro j
    by_cases here : j = i
    · subst here
      simp [gone]
    · rw [kept j here]
      exact live j
  · intro j k positive same
    by_cases first : j = i
    · subst first
      rw [gone] at positive
      exact absurd positive (show ¬ (0 : Int) < -1 by decide)
    · by_cases second : k = i
      · subst second
        rw [gone] at same
        rw [same] at positive
        exact absurd positive (show ¬ (0 : Int) < -1 by decide)
      · rw [kept j first, kept k second] at same
        rw [kept j first] at positive
        exact distinct j k positive same
  · intro j
    by_cases here : j = i
    · subst here
      rw [gone]
      change (-1 : Int) ≠ t.listenFd
      omega
    · rw [kept j here]
      exact apart j
  · intro fd
    change fd ∈ t.allset.erase (t.alist i).acceptFd ↔ _
    rw [Finset.mem_erase, watched]
    exact moved (fun j => accepting ≠ some j) fd
  · intro fd
    change fd ∈ t.openFds.erase (t.alist i).acceptFd ↔ _
    rw [Finset.mem_erase, opened]
    have same := moved (fun _ => True) fd
    simp only [true_and] at same
    exact same
  · intro j present
    by_cases here : j = i
    · subst here
      exact absurd present (by simp [teardown, clearSystem, VmcSystem.zero])
    · have system : (teardown t i).vmcSystem j = t.vmcSystem j := by
        simp [teardown, clearSystem, closeSlot, here]
      rw [system] at present ⊢
      rw [kept j here]
      exact registered j present

theorem sendDisconnect_inv (inv : TableInv t accepting) (i : Slot) :
    TableInv (sendDisconnect t i) accepting := by
  rcases sendDisconnect_cases inv.mode i with same | ⟨lives, same⟩
  · rwa [same]
  · rw [same]
    exact teardown_inv inv lives

theorem recvDisconnect_inv (inv : TableInv t accepting) (i : Slot) :
    TableInv (recvDisconnect t i) accepting := by
  rcases recvDisconnect_cases inv.mode i with same | ⟨lives, same⟩
  · rwa [same]
  · rw [same]
    exact (teardown_inv inv lives).frame rfl rfl rfl rfl (fun _ => rfl) (fun _ => rfl)
      fun _ => Or.inl rfl

theorem register_inv (inv : TableInv t accepting) {order : ByteOrder} {size : Nat}
    {buf : Bytes size} {i : Slot} (lives : 0 < (t.alist i).acceptFd) {next : HostTables}
    (done : register order t i buf = some next) : TableInv next accepting := by
  rcases register_cases done with ⟨_, rfl⟩ | ⟨_, vmIpaddress, _, rfl⟩
  · exact inv
  · refine inv.frame rfl rfl rfl rfl (fun j => ?_) (fun j => ?_) (fun j => ?_)
    all_goals by_cases here : j = i
    · subst here
      simp [registerAs]
    · simp [registerAs, here]
    · subst here
      simp [registerAs]
    · simp [registerAs, here]
    · subst here
      exact Or.inr ⟨lives, by simp [registerAs]⟩
    · exact Or.inl (by simp [registerAs, here])

theorem resetLinkStatus_inv (inv : TableInv t accepting) {alistIdx i : Slot} {next : HostTables}
    (found : resetLinkStatus t alistIdx = some (i, next)) : TableInv next accepting := by
  obtain ⟨_, _, rfl, same⟩ := resetLinkStatus_some found
  exact inv.frame rfl rfl rfl rfl (fun _ => rfl) (fun _ => rfl) fun k => Or.inl (same k).2

end Step

section Run

variable {order : ByteOrder} {traced : Bool}

/-- An accept takes the first free slot, or leaves everything as it was. -/
theorem accept_cases {s next : Host} (inv : TableInv s.tables s.accepting) {fd : Int}
    {port : UInt16} {vm : UInt32} (stepped : step order traced s (.accept fd port vm) = some next) :
    AcceptOk s fd port ∧
      ((∃ i, freeSlot s.tables = some i ∧ next =
        { s with
          tables := takeSlot { s.tables with openFds := insert fd s.tables.openFds } i fd port
          accepting := some i
          accepted := s.accepted + 1
          conn := Function.update s.conn i ⟨s.accepted + 1, vm⟩ }) ∨
        freeSlot s.tables = none ∧ next = s) := by
  simp only [step, Option.ite_none_right_eq_some, Option.some.injEq] at stepped
  obtain ⟨ok, rfl⟩ := stepped
  have search : freeSlot { s.tables with openFds := insert fd s.tables.openFds } =
    freeSlot s.tables := freeSlot_congr rfl
  have listening := inv.listening
  refine ⟨ok, ?_⟩
  rcases Option.eq_none_or_eq_some (freeSlot s.tables) with found | ⟨i, found⟩
  · refine Or.inr ⟨found, ?_⟩
    simp only [acceptStep, tcpAccept, if_neg (show ¬ s.tables.listenFd ≤ 0 by omega), search,
      found, Finset.erase_insert ok.2.2.1]
  · refine Or.inl ⟨i, found, ?_⟩
    simp only [acceptStep, tcpAccept, if_neg (show ¬ s.tables.listenFd ≤ 0 by omega), search,
      found]

/-- Every step keeps the tables in agreement. -/
theorem step_tableInv {s next : Host} {event : HostEvent} (inv : TableInv s.tables s.accepting)
    (stepped : step order traced s event = some next) : TableInv next.tables next.accepting := by
  cases event with
  | accept fd port vm =>
      obtain ⟨⟨idle, positive, fresh, present⟩, ⟨i, found, rfl⟩ | ⟨_, rfl⟩⟩ :=
        accept_cases inv stepped
      · rw [idle] at inv
        exact takeSlot_inv inv (freeSlot_eq_some found).1 positive fresh present
      · exact inv
  | acceptSet =>
      obtain ⟨i, half, rfl⟩ := Option.map_eq_some_iff.mp stepped
      rw [half] at inv
      exact watch_inv inv
  | receive i events =>
      obtain ⟨_, lives, result, _, cases⟩ := receive_cases stepped
      rcases cases with ⟨_, tables, buf, block, registered, _, _, rfl⟩ | rfl
      · exact register_inv inv lives registered
      · simp only
        split
        · exact recvDisconnect_inv inv i
        · exact inv
  | get =>
      obtain ⟨request, fifo, _, _, rfl⟩ := get_cases stepped
      exact inv
  | reset =>
      obtain ⟨request, _, rfl | ⟨_, rfl | ⟨i, tables, found, rfl⟩⟩⟩ := reset_cases stepped
      · exact inv
      · exact inv
      · exact resetLinkStatus_inv inv found
  | send env =>
      obtain ⟨request, tables, wire, _, sent, rfl⟩ := send_cases stepped
      rcases (sendRsp_eq sent).1 with rfl | rfl
      · exact inv
      · exact sendDisconnect_inv inv _
  | copy =>
      obtain ⟨request, ret, vmstate, _, _, rfl⟩ := copy_cases stepped
      exact inv
  | writeBack =>
      obtain ⟨request, ret, vmstate, _, rfl⟩ := writeBack_cases stepped
      simp only
      split
      · exact inv
      · exact inv.frame rfl rfl rfl rfl (fun _ => rfl) (fun _ => rfl) fun _ => Or.inl rfl

theorem run_tableInv {listenFd : Int} (listening : 0 < listenFd) {events : List HostEvent}
    {final : Host} (reached : run (step order traced) (Host.init listenFd) events = some final) :
    TableInv final.tables final.accepting :=
  run_invariant (fun s => TableInv s.tables s.accepting)
    (fun _ _ _ before stepped => step_tableInv before stepped) (init_tableInv listening) reached

/-- What an accept does: it takes the lowest free slot and changes no other, or, when no
slot is free, closes the new descriptor and changes nothing. -/
def AcceptSpec (s next : Host) (fd : Int) (port : UInt16) : Prop :=
  (∃ i, (s.tables.alist i).sysinfo.port = 0 ∧ (∀ j < i, (s.tables.alist j).sysinfo.port ≠ 0) ∧
      next.accepting = some i ∧ (next.tables.alist i).acceptFd = fd ∧
      (next.tables.alist i).sysinfo.port = port ∧
      ∀ j, j ≠ i → next.tables.alist j = s.tables.alist j ∧
        next.tables.vmcSystem j = s.tables.vmcSystem j) ∨
    (∀ i, (s.tables.alist i).sysinfo.port ≠ 0) ∧ next = s

theorem accept_spec {s next : Host} (inv : TableInv s.tables s.accepting) {fd : Int}
    {port : UInt16} {vm : UInt32} (stepped : step order traced s (.accept fd port vm) = some next) :
    AcceptSpec s next fd port := by
  obtain ⟨_, ⟨i, found, rfl⟩ | ⟨full, same⟩⟩ := accept_cases inv stepped
  · obtain ⟨free, lower⟩ := freeSlot_eq_some found
    refine Or.inl ⟨i, free, lower, rfl, by simp [takeSlot], by simp [takeSlot], ?_⟩
    intro j other
    simp [takeSlot, other]
  · exact Or.inr ⟨freeSlot_eq_none.mp full, same⟩

/-- In every state of every run the port and the descriptor of a slot agree, live
descriptors are distinct and, with the listening one, are those watched (but for the one
that an accept has between its two sections), only live slots are registered, and an
accept takes the lowest free slot, if there is one. -/
theorem run_tables {listenFd : Int} (listening : 0 < listenFd) {events : List HostEvent}
    {final : Host} (reached : run (step order traced) (Host.init listenFd) events = some final) :
    (∀ i, (final.tables.alist i).sysinfo.port ≠ 0 ↔ 0 < (final.tables.alist i).acceptFd) ∧
    (∀ i j, 0 < (final.tables.alist i).acceptFd →
      (final.tables.alist i).acceptFd = (final.tables.alist j).acceptFd → i = j) ∧
    (∀ fd, fd ∈ final.tables.allset ↔ fd = final.tables.listenFd ∨
      ∃ i, final.accepting ≠ some i ∧ 0 < fd ∧ (final.tables.alist i).acceptFd = fd) ∧
    (∀ i, (final.tables.vmcSystem i).systemport ≠ 0 → 0 < (final.tables.alist i).acceptFd ∧
      (final.tables.vmcSystem i).systemport = (final.tables.alist i).sysinfo.port) ∧
    ∀ fd port vm next, step order traced final (.accept fd port vm) = some next →
      AcceptSpec final next fd port := by
  have inv := run_tableInv listening reached
  exact ⟨inv.live, inv.distinct, inv.watched, inv.registered,
    fun _ _ _ _ stepped => accept_spec inv stepped⟩

/-- Two connections are accepted, and the first of them is lost. -/
def closedRun : List HostEvent :=
  [.accept 5 40000 1, .acceptSet, .accept 6 40001 2, .acceptSet, .receive 0 [.closed]]

theorem closedRun_reached :
    ∃ final, run (step .little false) (Host.init 3) closedRun = some final ∧
      (final.tables.alist 0).acceptFd = -1 ∧ (final.tables.alist 1).acceptFd = 6 ∧
        final.accepting = none :=
  exists_of_any (by decide +kernel)

theorem run_tables_closed :
    ∃ final, run (step .little false) (Host.init 3) closedRun = some final ∧
      (final.tables.alist 0).sysinfo.port = 0 ∧ (final.tables.alist 1).sysinfo.port ≠ 0 ∧
      6 ∈ final.tables.allset ∧
      ∀ fd port vm next, step .little false final (.accept fd port vm) = some next →
        AcceptSpec final next fd port := by
  obtain ⟨final, reached, closed, open_, settled⟩ := closedRun_reached
  obtain ⟨live, _, watched, _, accepts⟩ := run_tables (by decide) reached
  refine ⟨final, reached, ?_, (live 1).mpr (by rw [open_]; decide), ?_, accepts⟩
  · by_contra named
    have lives := (live 0).mp named
    rw [closed] at lives
    exact absurd lives (by decide)
  · refine (watched 6).mpr (Or.inr ⟨1, ?_, by decide, open_⟩)
    rw [settled]
    exact (Option.some_ne_none 1).symm

/-- Between the two sections of an accept the new descriptor is not watched. -/
theorem accept_notWatched :
    ∃ final, run (step .little false) (Host.init 3) [.accept 5 40000 1] = some final ∧
      (final.tables.alist 0).acceptFd = 5 ∧ 5 ∉ final.tables.allset :=
  exists_of_any (by decide +kernel)

end Run

end VnfMonitoring.HostTable
