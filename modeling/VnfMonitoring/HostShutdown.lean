import VnfMonitoring.HostSystem
import VnfMonitoring.Lib.Handles

set_option autoImplicit false

/- The end of the host: `host_shutdown` closes the connections slot by slot without
`TcpMutex` while the tasks go on, and cancels `tcp_rcvTask`, whose `ThreadCleanUp` closes
what is open by then. -/
namespace VnfMonitoring.HostShutdown

open VnfMonitoring.Memory VnfMonitoring.Socket VnfMonitoring.TcpFrame VnfMonitoring.Bpapp
  VnfMonitoring.HostSock VnfMonitoring.HostReport VnfMonitoring.HostSystem VnfMonitoring.Handles
  VnfMonitoring.Runs

/-- The cells of the table with a descriptor: the listening socket and the slots. -/
abbrev Cell := Option Slot

def cellOf (t : HostTables) : Cell → Int
  | none => t.listenFd
  | some i => (t.alist i).acceptFd

/-- The three statements of `host_shutdown` for a cell. They keep the port. -/
def closeCell (t : HostTables) (c : Cell) : HostTables :=
  { t with openFds := t.openFds.erase (cellOf t c) }

def clearCell (t : HostTables) (c : Cell) : HostTables :=
  { t with allset := t.allset.erase (cellOf t c) }

def markCell (t : HostTables) : Cell → HostTables
  | none => { t with listenFd := -1 }
  | some i => { t with alist := Function.update t.alist i { t.alist i with acceptFd := -1 } }

/-- The statements of `ThreadCleanUp` for one slot. -/
def cleanSlot (t : HostTables) (i : Slot) : HostTables :=
  if (t.alist i).acceptFd > 0 then closeSlot t i else t

/-- The statements of `ThreadCleanUp` for the listening socket. -/
def cleanListen (t : HostTables) : HostTables :=
  if t.listenFd > 0 then
    { t with
      openFds := t.openFds.erase t.listenFd
      allset := t.allset.erase t.listenFd
      listenFd := -1 }
  else t

/-- `ThreadCleanUp` of `tcp_rcvTask`: it does nothing when its `ThreadFlags` is reset. -/
def threadCleanUp (threadFlag : Bool) (t : HostTables) : HostTables :=
  if threadFlag then
    match t.mode with
    | .server => cleanListen ((List.finRange maxSystemNum).foldl cleanSlot t)
    | .client => t
  else t

/-- Where `host_shutdown` stands: before the signal, before a slot, before the listening
socket, between the `close` of a cell and its `FD_CLR` or its `-1`, before
`ThreadAlive[PTASK0] = FALSE`, before the `pthread_cancel` of that task, or past it. -/
inductive Stage where
  | running
  | slot (k : Nat)
  | listen
  | clear (c : Cell)
  | mark (c : Cell)
  | alive
  | cancel
  | cancelled
  deriving DecidableEq, Repr

/-- The cell whose descriptor is closed but still in it. -/
def Stage.closing : Stage → Option Cell
  | .clear c | .mark c => some c
  | .running | .slot _ | .listen | .alive | .cancel | .cancelled => none

/-- The cell whose closed descriptor is still watched. -/
def Stage.clearing : Stage → Option Cell
  | .clear c => some c
  | .running | .slot _ | .listen | .mark _ | .alive | .cancel | .cancelled => none

/-- `tcp_rcvTask`: in its loop, cancelled but not cleaned up yet, cleaned up, or past its
loop. -/
inductive RcvTask where
  | looping
  | cancelled
  | cleaned
  | left
  deriving DecidableEq, Repr

/-- The host and its end. `known` records how many connections were accepted before the
signal. -/
structure Ending where
  host : Host
  stage : Stage
  rcvTask : RcvTask
  known : Nat

def Ending.init (listenFd : Int) : Ending := ⟨.init listenFd, .running, .looping, 0⟩

/-- The sections of `tcp_rcvTask`. -/
def OfRcvTask : HostEvent → Prop
  | .accept _ _ _ | .acceptSet | .receive _ _ => True
  | _ => False

instance : (event : HostEvent) → Decidable (OfRcvTask event)
  | .accept _ _ _ | .acceptSet | .receive _ _ => isTrue trivial
  | .get | .reset | .send _ | .copy | .writeBack => isFalse id

/-- The section around `TcpAccept`. -/
def Accepts : HostEvent → Prop
  | .accept _ _ _ => True
  | _ => False

instance : (event : HostEvent) → Decidable (Accepts event)
  | .accept _ _ _ => isTrue trivial
  | .acceptSet | .receive _ _ | .get | .reset | .send _ | .copy | .writeBack => isFalse id

/-- The two sections of an accept. -/
def OfAccept : HostEvent → Prop
  | .accept _ _ _ | .acceptSet => True
  | _ => False

instance : (event : HostEvent) → Decidable (OfAccept event)
  | .accept _ _ _ | .acceptSet => isTrue trivial
  | .receive _ _ | .get | .reset | .send _ | .copy | .writeBack => isFalse id

inductive EndingEvent where
  /-- A section of a task under `TcpMutex`. It is one step against `host_shutdown` too, which
  does not take the mutex. -/
  | host (event : HostEvent)
  /-- `host_shutdown` is entered; `once` lets it pass only the first time. -/
  | signal
  /-- Its next statements. -/
  | shut
  /-- `tcp_rcvTask` leaves its loop when it finds `ThreadAlive[PTASK0]` reset. -/
  | leave
  /-- `ThreadCleanUp` of the cancelled task, under `TcpMutex`. -/
  | cleanUp

/-- The next statement of `host_shutdown`. -/
def shutStep (s : Ending) : Option Ending :=
  match s.stage with
  | .running | .cancelled => none
  | .slot k =>
      if inside : k < maxSystemNum then
        if (s.host.tables.alist ⟨k, inside⟩).acceptFd > 0 then
          some
            { s with
              host := { s.host with tables := closeCell s.host.tables (some ⟨k, inside⟩) }
              stage := .clear (some ⟨k, inside⟩) }
        else some { s with stage := .slot (k + 1) }
      else some { s with stage := .listen }
  | .listen =>
      if s.host.tables.listenFd > 0 then
        some
          { s with
            host := { s.host with tables := closeCell s.host.tables none }
            stage := .clear none }
      else some { s with stage := .alive }
  | .clear c =>
      some { s with host := { s.host with tables := clearCell s.host.tables c }, stage := .mark c }
  | .mark c =>
      some
        { s with
          host := { s.host with tables := markCell s.host.tables c }
          stage :=
            match c with
            | none => .alive
            | some i => .slot (i.val + 1) }
  | .alive => some { s with stage := .cancel }
  | .cancel =>
      some
        { s with
          stage := .cancelled
          rcvTask := if s.rcvTask = .looping then .cancelled else s.rcvTask }

/-- A section of `tcp_rcvTask` is of a task in its loop, and nothing is accepted from a
closed socket. -/
def Enabled (s : Ending) (event : HostEvent) : Prop :=
  (OfRcvTask event → s.rcvTask = .looping) ∧ (Accepts event → s.stage.closing ≠ some none)

instance (s : Ending) (event : HostEvent) : Decidable (Enabled s event) :=
  inferInstanceAs (Decidable (_ ∧ _))

def Ending.step (order : ByteOrder) (traced : Bool) (s : Ending) : EndingEvent → Option Ending
  | .host event =>
      if Enabled s event then
        (HostSystem.step order traced s.host event).map fun host => { s with host }
      else none
  | .signal =>
      match s.stage with
      | .running =>
          some
            { s with
              stage := if s.host.tables.mode = .server then .slot 0 else .listen
              known := s.host.accepted }
      | _ => some s
  | .shut => shutStep s
  | .leave =>
      if s.rcvTask = .looping ∧ s.host.accepting = none ∧ s.stage = .cancel then
        some
          { s with
            host := { s.host with tables := threadCleanUp false s.host.tables }
            rcvTask := .left }
      else none
  | .cleanUp =>
      if s.rcvTask = .cancelled then
        some
          { s with
            host := { s.host with tables := threadCleanUp true s.host.tables }
            rcvTask := .cleaned }
      else none

/-- The accept branch of `tcp_rcvTask` does not run between the statements of
`host_shutdown` for one cell. -/
def Undisturbed (s : Ending) : EndingEvent → Prop
  | .host event => OfAccept event → s.stage.closing = none
  | .signal | .shut | .leave | .cleanUp => True

instance (s : Ending) : (event : EndingEvent) → Decidable (Undisturbed s event)
  | .host event => inferInstanceAs (Decidable (OfAccept event → s.stage.closing = none))
  | .signal | .shut | .leave | .cleanUp => isTrue trivial

section Table

variable {stage : Stage} {t next : HostTables}

/-- The cells, with the one that is being closed counted as empty. -/
def openCell (stage : Stage) (t : HostTables) (c : Cell) : Int :=
  if stage.closing = some c then -1 else cellOf t c

/-- The table of a server: each open descriptor is in one cell, a slot with a connection
has its port, and only open descriptors are watched, besides the one that is being closed. -/
structure Guarded (stage : Stage) (t : HostTables) : Prop where
  mode : t.mode = .server
  held : Held (openCell stage t) t.openFds
  ports : ∀ i, 0 < (t.alist i).acceptFd → (t.alist i).sysinfo.port ≠ 0
  stale : ∀ c, stage.closing = some c → cellOf t c ∉ t.openFds
  watched : ∀ fd ∈ t.allset, fd ∈ t.openFds ∨ ∃ c, stage.clearing = some c ∧ cellOf t c = fd

theorem clearing_closing {c : Cell} (clearing : stage.clearing = some c) :
    stage.closing = some c := by
  cases stage with
  | clear d => exact clearing
  | running | slot | listen | mark | alive | cancel | cancelled => cases clearing

theorem openCell_other {c : Cell} (other : stage.closing ≠ some c) :
    openCell stage t c = cellOf t c := if_neg other

theorem openCell_none (none_ : stage.closing = none) : openCell stage t = cellOf t := by
  funext c
  apply openCell_other
  rw [none_]
  nofun

theorem Guarded.positive (guarded : Guarded stage t) {fd : Int} (member : fd ∈ t.openFds) :
    0 < fd := ((guarded.held.mem fd).mp member).1

/-- With no cell being closed, all that matters is the table. -/
theorem Guarded.move (guarded : Guarded stage t) (before : stage.closing = none) {later : Stage}
    (after : later.closing = none) : Guarded later t where
  mode := guarded.mode
  held := by
    have held := guarded.held
    rwa [openCell_none before, ← openCell_none after] at held
  ports := guarded.ports
  stale := by
    intro c closing
    rw [after] at closing
    cases closing
  watched := by
    intro fd member
    rcases guarded.watched fd member with here | ⟨c, clearing, _⟩
    · exact Or.inl here
    · rw [clearing_closing clearing] at before
      cases before

theorem Guarded.watched_open (guarded : Guarded stage t) (none_ : stage.closing = none) :
    t.allset ⊆ t.openFds := by
  intro fd member
  rcases guarded.watched fd member with here | ⟨c, clearing, _⟩
  · exact here
  · rw [clearing_closing clearing] at none_
    cases none_

/-- The same descriptors, ports and sets. -/
structure SameFds (t next : HostTables) : Prop where
  mode : next.mode = t.mode
  listenFd : next.listenFd = t.listenFd
  slots : ∀ i, (next.alist i).acceptFd = (t.alist i).acceptFd ∧
    (next.alist i).sysinfo.port = (t.alist i).sysinfo.port
  allset : next.allset = t.allset
  openFds : next.openFds = t.openFds

theorem SameFds.cells (same : SameFds t next) : cellOf next = cellOf t := by
  funext c
  cases c with
  | none => exact same.listenFd
  | some i => exact (same.slots i).1

theorem Guarded.same (guarded : Guarded stage t) (same : SameFds t next) : Guarded stage next where
  mode := same.mode.trans guarded.mode
  held := by
    have cells : openCell stage next = openCell stage t := by
      funext c
      rw [openCell, openCell, same.cells]
    rw [cells, same.openFds]
    exact guarded.held
  ports := by
    intro i
    rw [(same.slots i).1, (same.slots i).2]
    exact guarded.ports i
  stale := by
    rw [same.cells, same.openFds]
    exact guarded.stale
  watched := by
    rw [same.cells, same.allset, same.openFds]
    exact guarded.watched

/-- No cell is filled. -/
structure Fewer (stage : Stage) (t next : HostTables) : Prop where
  guarded : Guarded stage next
  less : ∀ c, 0 < cellOf next c → 0 < cellOf t c

theorem Fewer.same {middle : HostTables} (fewer : Fewer stage t middle)
    (same : SameFds middle next) : Fewer stage t next where
  guarded := fewer.guarded.same same
  less := by
    intro c here
    rw [same.cells] at here
    exact fewer.less c here

theorem Guarded.fewer (guarded : Guarded stage t) (same : SameFds t next) : Fewer stage t next where
  guarded := guarded.same same
  less := by
    intro c here
    rwa [same.cells] at here

theorem Guarded.refl (guarded : Guarded stage t) : Fewer stage t t := ⟨guarded, fun _ => id⟩

/-- A cell is emptied besides. -/
structure Closes (stage : Stage) (t next : HostTables) (c : Cell) : Prop
    extends Fewer stage t next where
  empty : ¬ 0 < cellOf next c

/-- A task closes the descriptor of a cell and no longer watches it. Where `host_shutdown`
is closing that cell, the second `close` fails. -/
theorem Guarded.closes (guarded : Guarded stage t) {k : Cell} (lives : 0 < cellOf t k)
    (mode : next.mode = t.mode) (cells : cellOf next = Function.update (cellOf t) k (-1))
    (ports : ∀ i, some i ≠ k → (next.alist i).sysinfo.port = (t.alist i).sysinfo.port)
    (allset : next.allset = t.allset.erase (cellOf t k))
    (openFds : next.openFds = t.openFds.erase (cellOf t k)) : Closes stage t next k := by
  have gone : cellOf next k = -1 := by rw [cells, Function.update_self]
  have other {c : Cell} (apart : c ≠ k) : cellOf next c = cellOf t c := by
    rw [cells, Function.update_of_ne apart]
  have kept {c : Cell} (here : 0 < cellOf next c) : c ≠ k := by
    rintro rfl
    omega
  have less (c : Cell) (here : 0 < cellOf next c) : 0 < cellOf t c := by
    rwa [← other (kept here)]
  refine ⟨⟨⟨mode.trans guarded.mode, ?_, ?_, ?_, ?_⟩, less⟩, by omega⟩
  · rw [openFds]
    by_cases closing : stage.closing = some k
    · have same : openCell stage next = openCell stage t := by
        funext c
        by_cases here : c = k
        · subst here
          simp only [openCell, closing, if_true]
        · simp only [openCell, other here]
      rw [same, Finset.erase_eq_of_notMem (guarded.stale k closing)]
      exact guarded.held
    · have same : openCell stage next = Function.update (openCell stage t) k (-1) := by
        funext c
        by_cases here : c = k
        · subst here
          rw [Function.update_self, openCell_other closing, gone]
        · rw [Function.update_of_ne here]
          simp only [openCell, other here]
      rw [same, ← openCell_other (t := t) closing]
      apply guarded.held.drop _ (by decide)
      rwa [openCell_other closing]
  · intro i here
    have apart : some i ≠ k := kept (c := some i) here
    rw [ports i apart]
    exact guarded.ports i (less (some i) here)
  · intro c closing member
    by_cases here : c = k
    · subst here
      rw [gone, openFds] at member
      have positive := guarded.positive (Finset.mem_of_mem_erase member)
      omega
    · rw [other here, openFds] at member
      exact guarded.stale c closing (Finset.mem_of_mem_erase member)
  · intro fd member
    rw [allset, Finset.mem_erase] at member
    rcases guarded.watched fd member.2 with here | ⟨c, clearing, same⟩
    · rw [openFds, Finset.mem_erase]
      exact Or.inl ⟨member.1, here⟩
    · have apart : c ≠ k := by
        rintro rfl
        exact member.1 same.symm
      exact Or.inr ⟨c, clearing, (other apart).trans same⟩

/-- A cell without a descriptor is left alone. -/
theorem Guarded.closed (guarded : Guarded stage t) {k : Cell} (empty : ¬ 0 < cellOf t k) :
    Closes stage t t k := ⟨guarded.refl, empty⟩

theorem cellOf_slot {i : Slot} (listenFd : next.listenFd = t.listenFd)
    (here : (next.alist i).acceptFd = -1)
    (others : ∀ j, j ≠ i → next.alist j = t.alist j) :
    cellOf next = Function.update (cellOf t) (some i) (-1) := by
  funext c
  cases c with
  | none => exact listenFd
  | some j =>
      by_cases same : j = i
      · subst same
        rw [Function.update_self]
        exact here
      · rw [Function.update_of_ne (by simpa using same)]
        exact congrArg AcceptList.acceptFd (others j same)

theorem closeSlot_closes (guarded : Guarded stage t) {i : Slot}
    (lives : 0 < (t.alist i).acceptFd) : Closes stage t (closeSlot t i) (some i) := by
  refine guarded.closes ?_ ?_ ?_ ?_ ?_ ?_
  · exact lives
  · rfl
  · refine cellOf_slot ?_ ?_ ?_
    · rfl
    · simp [closeSlot]
    · intro j other
      simp [closeSlot, other]
  · intro j other
    have apart : j ≠ i := by simpa using other
    simp [closeSlot, apart]
  · rfl
  · rfl

theorem cleanSlot_closes (guarded : Guarded stage t) (i : Slot) :
    Closes stage t (cleanSlot t i) (some i) := by
  unfold cleanSlot
  split
  · rename_i lives
    exact closeSlot_closes guarded lives
  · rename_i empty
    exact guarded.closed empty

theorem cleanListen_closes (guarded : Guarded stage t) : Closes stage t (cleanListen t) none := by
  unfold cleanListen
  split
  · rename_i lives
    refine guarded.closes ?_ ?_ ?_ ?_ ?_ ?_
    · exact lives
    · rfl
    · funext c
      cases c with
      | none => rw [Function.update_self]; rfl
      | some i => rw [Function.update_of_ne (by simp)]; rfl
    · exact fun _ _ => rfl
    · rfl
    · rfl
  · rename_i empty
    exact guarded.closed empty

/-- The loop of `ThreadCleanUp` empties the slots that it visits. -/
theorem cleanSlots_closes (slots : List Slot) : ∀ {t : HostTables}, Guarded stage t →
    Guarded stage (slots.foldl cleanSlot t) ∧
      (∀ i ∈ slots, ¬ 0 < cellOf (slots.foldl cleanSlot t) (some i)) ∧
      ∀ c, 0 < cellOf (slots.foldl cleanSlot t) c → 0 < cellOf t c := by
  induction slots with
  | nil => exact fun guarded => ⟨guarded, nofun, fun _ => id⟩
  | cons i slots ih =>
      intro t guarded
      have first := cleanSlot_closes guarded i
      obtain ⟨kept, empty, less⟩ := ih first.guarded
      refine ⟨kept, fun j member => ?_, fun c here => first.less c (less c here)⟩
      rcases List.mem_cons.mp member with rfl | later
      · exact fun here => first.empty (less _ here)
      · exact empty j later

/-- `ThreadCleanUp` leaves no cell filled. -/
theorem threadCleanUp_closes (guarded : Guarded stage t) :
    Guarded stage (threadCleanUp true t) ∧ ∀ c, ¬ 0 < cellOf (threadCleanUp true t) c := by
  obtain ⟨kept, empty, _⟩ := cleanSlots_closes (List.finRange maxSystemNum) guarded
  have last := cleanListen_closes kept
  have same : threadCleanUp true t =
      cleanListen ((List.finRange maxSystemNum).foldl cleanSlot t) := by
    simp only [threadCleanUp, if_true, guarded.mode]
  rw [same]
  refine ⟨last.guarded, fun c => ?_⟩
  cases c with
  | none => exact last.empty
  | some i => exact fun here => empty i (List.mem_finRange i) (last.less _ here)

theorem Guarded.nothing_open (guarded : Guarded stage t) (none_ : stage.closing = none)
    (empty : ∀ c, ¬ 0 < cellOf t c) : t.openFds = ∅ ∧ t.allset = ∅ := by
  have closed : t.openFds = ∅ := by
    apply guarded.held.none_open
    rwa [openCell_none none_]
  refine ⟨closed, Finset.subset_empty.mp ?_⟩
  rw [← closed]
  exact guarded.watched_open none_

/-- The `close` of `host_shutdown`. -/
theorem closeCell_guarded (guarded : Guarded stage t) (none_ : stage.closing = none) {k : Cell}
    (lives : 0 < cellOf t k) : Guarded (.clear k) (closeCell t k) where
  mode := guarded.mode
  held := by
    have same : openCell (.clear k) (closeCell t k) = Function.update (cellOf t) k (-1) := by
      funext c
      by_cases here : c = k
      · subst here
        rw [Function.update_self]
        exact if_pos rfl
      · rw [Function.update_of_ne here]
        exact if_neg fun closing => here (Option.some.inj closing).symm
    rw [same]
    have held := guarded.held
    rw [openCell_none none_] at held
    exact held.drop lives (by decide)
  ports := guarded.ports
  stale := by
    intro c closing
    cases closing
    exact Finset.notMem_erase _ _
  watched := by
    intro fd member
    by_cases here : cellOf t k = fd
    · exact Or.inr ⟨k, rfl, here⟩
    · exact Or.inl (Finset.mem_erase.mpr
        ⟨fun same => here same.symm, guarded.watched_open none_ member⟩)

/-- Its `FD_CLR`. -/
theorem clearCell_guarded {k : Cell} (guarded : Guarded (.clear k) t) :
    Guarded (.mark k) (clearCell t k) where
  mode := guarded.mode
  held := guarded.held
  ports := guarded.ports
  stale := guarded.stale
  watched := by
    intro fd member
    obtain ⟨other, watched⟩ := Finset.mem_erase.mp member
    rcases guarded.watched fd watched with here | ⟨c, clearing, same⟩
    · exact Or.inl here
    · cases clearing
      exact absurd same.symm other

theorem cellOf_markCell (t : HostTables) (k : Cell) :
    cellOf (markCell t k) = Function.update (cellOf t) k (-1) := by
  cases k with
  | none =>
      funext c
      cases c with
      | none => rw [Function.update_self]; rfl
      | some i => rw [Function.update_of_ne (by simp)]; rfl
  | some i =>
      refine cellOf_slot ?_ ?_ ?_
      · rfl
      · simp [markCell]
      · intro j other
        simp [markCell, other]

/-- Its `-1`. -/
theorem markCell_closes {k : Cell} (guarded : Guarded (.mark k) t) (after : stage.closing = none) :
    Closes stage t (markCell t k) k := by
  have sets : (markCell t k).openFds = t.openFds ∧ (markCell t k).allset = t.allset ∧
      (markCell t k).mode = t.mode := by
    cases k with
    | none => exact ⟨rfl, rfl, rfl⟩
    | some i => exact ⟨rfl, rfl, rfl⟩
  have less (c : Cell) (here : 0 < cellOf (markCell t k) c) : c ≠ k ∧ 0 < cellOf t c := by
    rw [cellOf_markCell] at here
    have other : c ≠ k := by
      rintro rfl
      rw [Function.update_self] at here
      omega
    rw [Function.update_of_ne other] at here
    exact ⟨other, here⟩
  refine ⟨⟨⟨sets.2.2.trans guarded.mode, ?_, ?_, ?_, ?_⟩, fun c here => (less c here).2⟩, ?_⟩
  · have same : openCell stage (markCell t k) = openCell (.mark k) t := by
      rw [openCell_none after, cellOf_markCell]
      funext c
      by_cases here : c = k
      · subst here
        rw [Function.update_self]
        exact (if_pos rfl).symm
      · rw [Function.update_of_ne here]
        exact (if_neg fun closing => here (Option.some.inj closing).symm).symm
    rw [same, sets.1]
    exact guarded.held
  · intro i here
    obtain ⟨other, lives⟩ := less (some i) here
    have port : ((markCell t k).alist i).sysinfo.port = (t.alist i).sysinfo.port := by
      cases k with
      | none => rfl
      | some j =>
          have apart : i ≠ j := by simpa using other
          simp [markCell, apart]
    rw [port]
    exact guarded.ports i lives
  · intro c closing
    rw [after] at closing
    cases closing
  · intro fd member
    rw [sets.2.1] at member
    rw [sets.1]
    rcases guarded.watched fd member with here | ⟨c, clearing, _⟩
    · exact Or.inl here
    · cases clearing
  · exact fun here => (less k here).1 rfl

end Table

section Sections

variable {order : ByteOrder} {traced : Bool} {stage : Stage} {s next : Host}

/-- A connection that is taken fills a free slot. -/
theorem takeSlot_guarded {t : HostTables} (guarded : Guarded stage t) (none_ : stage.closing = none)
    {i : Slot} {fd : Int} {port : UInt16} (free : (t.alist i).sysinfo.port = 0) (positive : 0 < fd)
    (fresh : fd ∉ t.openFds) (present : port ≠ 0) :
    Guarded stage (takeSlot { t with openFds := insert fd t.openFds } i fd port) where
  mode := guarded.mode
  held := by
    have empty : ¬ 0 < cellOf t (some i) := fun lives => guarded.ports i lives free
    have cells : cellOf (takeSlot { t with openFds := insert fd t.openFds } i fd port) =
        Function.update (cellOf t) (some i) fd := by
      funext c
      cases c with
      | none =>
          rw [Function.update_of_ne (by simp)]
          rfl
      | some j =>
          by_cases here : j = i
          · subst here
            simp [cellOf, takeSlot]
          · rw [Function.update_of_ne (by simpa using here)]
            simp [cellOf, takeSlot, here]
    have held := guarded.held
    rw [openCell_none none_] at held ⊢
    rw [cells]
    exact held.take empty fresh positive
  ports := by
    intro j lives
    by_cases here : j = i
    · subst here
      simpa [takeSlot] using present
    · simp only [takeSlot, Function.update_of_ne here] at lives ⊢
      exact guarded.ports j lives
  stale := by
    intro c closing
    rw [none_] at closing
    cases closing
  watched := by
    intro fd member
    exact Or.inl (Finset.mem_insert_of_mem (guarded.watched_open none_ member))

theorem accept_tables {fd : Int} {port : UInt16} {vm : UInt32} (guarded : Guarded stage s.tables)
    (none_ : stage.closing = none)
    (stepped : HostSystem.step order traced s (.accept fd port vm) = some next) :
    Guarded stage next.tables ∧
      (next.accepted = s.accepted + 1 ∨
        next.accepted = s.accepted ∧ Fewer stage s.tables next.tables) := by
  simp only [HostSystem.step] at stepped
  split at stepped
  · rename_i ok
    obtain ⟨_, positive, fresh, present⟩ := ok
    cases stepped
    simp only [acceptStep, tcpAccept]
    by_cases shut : s.tables.listenFd ≤ 0
    · simp only [shut, if_true]
      exact ⟨guarded, Or.inr ⟨trivial, guarded.refl⟩⟩
    · simp only [shut, if_false]
      cases found : freeSlot { s.tables with openFds := insert fd s.tables.openFds } with
      | some i =>
          have free := (freeSlot_eq_some found).1
          exact ⟨takeSlot_guarded guarded none_ free positive fresh present, Or.inl rfl⟩
      | none =>
          simp only [Finset.erase_insert fresh]
          exact ⟨guarded, Or.inr ⟨trivial, guarded.refl⟩⟩
  · cases stepped

theorem teardown_fewer {t : HostTables} (guarded : Guarded stage t) {i : Slot}
    (lives : 0 < (t.alist i).acceptFd) : Fewer stage t (teardown t i) :=
  (closeSlot_closes guarded lives).toFewer.same
    ⟨rfl, rfl, fun _ => ⟨rfl, rfl⟩, rfl, rfl⟩

theorem watch_fewer {t : HostTables} (guarded : Guarded stage t) (none_ : stage.closing = none)
    (i : Slot) : Fewer stage t (watch t i) := by
  unfold watch
  split
  · rename_i lives
    have here : (t.alist i).acceptFd ∈ t.openFds := by
      have held := guarded.held
      rw [openCell_none none_] at held
      exact held.cell_mem (k := some i) lives
    refine ⟨⟨guarded.mode, guarded.held, guarded.ports, guarded.stale, ?_⟩, fun _ => id⟩
    intro fd member
    rcases Finset.mem_insert.mp member with rfl | before
    · exact Or.inl here
    · exact guarded.watched fd before
  · exact guarded.refl

theorem registerAs_same (t : HostTables) (i : Slot) (systemaddr : UInt32) :
    SameFds t (registerAs t i systemaddr) where
  mode := rfl
  listenFd := rfl
  slots := by
    intro j
    by_cases here : j = i
    · subst here
      simp [registerAs]
    · simp [registerAs, here]
  allset := rfl
  openFds := rfl

/-- A section fills a cell only where it accepts a connection. -/
theorem step_tables {event : HostEvent} (guarded : Guarded stage s.tables)
    (undisturbed : OfAccept event → stage.closing = none)
    (stepped : HostSystem.step order traced s event = some next) :
    Guarded stage next.tables ∧
      (OfRcvTask event ∧ next.accepted = s.accepted + 1 ∨
        next.accepted = s.accepted ∧ Fewer stage s.tables next.tables) := by
  have fewer (accepted : next.accepted = s.accepted) (fewer : Fewer stage s.tables next.tables) :
      Guarded stage next.tables ∧
        (OfRcvTask event ∧ next.accepted = s.accepted + 1 ∨
          next.accepted = s.accepted ∧ Fewer stage s.tables next.tables) :=
    ⟨fewer.guarded, Or.inr ⟨accepted, fewer⟩⟩
  have kept := guarded.refl
  cases event with
  | accept fd port vm =>
      obtain ⟨after, outcome⟩ := accept_tables guarded (undisturbed trivial) stepped
      exact ⟨after, outcome.imp_left fun more => ⟨trivial, more⟩⟩
  | acceptSet =>
      obtain ⟨i, _, rfl⟩ := Option.map_eq_some_iff.mp stepped
      exact fewer rfl (watch_fewer guarded (undisturbed trivial) i)
  | receive i events =>
      obtain ⟨_, lives, result, _, ⟨_, tables, buf, block, registered, _, _, rfl⟩ | rfl⟩ :=
        receive_cases stepped
      · apply fewer rfl
        rcases register_cases registered with ⟨_, rfl⟩ | ⟨_, vmIpaddress, _, rfl⟩
        · exact kept
        · exact guarded.fewer (registerAs_same s.tables i _)
      · apply fewer rfl
        simp only
        split
        · rw [recvDisconnect_live guarded.mode lives]
          exact (teardown_fewer guarded lives).same ⟨rfl, rfl, fun _ => ⟨rfl, rfl⟩, rfl, rfl⟩
        · exact kept
  | get =>
      obtain ⟨_, _, _, _, rfl⟩ := get_cases stepped
      exact fewer rfl kept
  | reset =>
      obtain ⟨request, _, rfl | ⟨_, rfl | ⟨i, tables, found, rfl⟩⟩⟩ := reset_cases stepped
      · exact fewer rfl kept
      · exact fewer rfl kept
      · obtain ⟨_, vmcSystem, rfl, _⟩ := resetLinkStatus_some found
        exact fewer rfl (guarded.fewer ⟨rfl, rfl, fun _ => ⟨rfl, rfl⟩, rfl, rfl⟩)
  | send env =>
      obtain ⟨request, tables, wire, _, sent, rfl⟩ := send_cases stepped
      apply fewer rfl
      rcases (sendRsp_eq sent).1 with rfl | rfl
      · exact kept
      · rcases sendDisconnect_cases guarded.mode request.block.alistIdx with same | ⟨lives, same⟩
        · simp only [same]
          exact kept
        · simp only [same]
          exact teardown_fewer guarded lives
  | copy =>
      obtain ⟨_, _, _, _, _, rfl⟩ := copy_cases stepped
      exact fewer rfl kept
  | writeBack =>
      obtain ⟨_, _, _, _, rfl⟩ := writeBack_cases stepped
      apply fewer rfl
      simp only
      split
      · exact kept
      · exact guarded.fewer ⟨rfl, rfl, fun _ => ⟨rfl, rfl⟩, rfl, rfl⟩

end Sections

section Runs

variable {order : ByteOrder} {traced : Bool} {s next : Ending}

/-- The cells that `host_shutdown` is past. -/
def Past : Stage → Cell → Prop
  | .running, _ => False
  | .slot k, some i => i.val < k
  | .clear (some j), some i | .mark (some j), some i => i < j
  | .listen, some _ | .clear none, some _ | .mark none, some _ => True
  | .slot _, none | .listen, none | .clear _, none | .mark _, none => False
  | .alive, _ | .cancel, _ | .cancelled, _ => True

/-- The cells behind `host_shutdown` stay empty unless a connection was accepted since the
signal, and all are empty once `tcp_rcvTask` is cleaned up. -/
structure EndingInv (s : Ending) : Prop where
  guarded : Guarded s.stage s.host.tables
  known : s.known ≤ s.host.accepted
  past : s.host.accepted = s.known → ∀ c, Past s.stage c → ¬ 0 < cellOf s.host.tables c
  ended : s.rcvTask = .cancelled ∨ s.rcvTask = .cleaned → s.stage = .cancelled
  cleaned : s.rcvTask = .cleaned → ∀ c, ¬ 0 < cellOf s.host.tables c

theorem init_endingInv {listenFd : Int} (listening : 0 < listenFd) :
    EndingInv (.init listenFd) where
  guarded :=
    { mode := rfl
      held :=
        { once := by
            intro c d lives same
            cases c with
            | some i => exact absurd lives (show ¬ (0 : Int) < -1 by decide)
            | none =>
                cases d with
                | none => rfl
                | some j =>
                    have closed : listenFd = -1 := same
                    omega
          mem := by
            intro fd
            rw [show fd ∈ (Ending.init listenFd).host.tables.openFds ↔ fd = listenFd from
              Finset.mem_singleton]
            constructor
            · rintro rfl
              exact ⟨listening, none, rfl⟩
            · rintro ⟨positive, c, same⟩
              cases c with
              | none => exact same.symm
              | some i =>
                  have closed : (-1 : Int) = fd := same
                  omega }
      ports := fun _ lives => absurd lives (show ¬ (0 : Int) < -1 by decide)
      stale := nofun
      watched := fun _ => Or.inl }
  known := Nat.le_refl 0
  past := fun _ _ past => past.elim
  ended := nofun
  cleaned := nofun

theorem host_endingInv {event : HostEvent} (inv : EndingInv s) (enabled : Enabled s event)
    (undisturbed : OfAccept event → s.stage.closing = none) {host : Host}
    (moved : HostSystem.step order traced s.host event = some host) :
    EndingInv { s with host } := by
  obtain ⟨guarded, ⟨recv, more⟩ | ⟨same, fewer⟩⟩ := step_tables inv.guarded undisturbed moved
  · have known := inv.known
    refine ⟨guarded, ?_, fun same => ?_, inv.ended, fun cleaned => ?_⟩
    · simp only
      omega
    · simp only at same
      omega
    · simp only [enabled.1 recv] at cleaned
      cases cleaned
  · refine ⟨guarded, same ▸ inv.known, fun none_ c past here => ?_, inv.ended,
      fun cleaned c here => ?_⟩
    · exact inv.past (same ▸ none_) c past (fewer.less c here)
    · exact inv.cleaned cleaned c (fewer.less c here)

/-- `host_shutdown` goes on: the cells that it is past now were past before, or it has
emptied them. -/
theorem EndingInv.moves (inv : EndingInv s) (before : s.stage ≠ .cancelled) {stage : Stage}
    {tables : HostTables} (guarded : Guarded stage tables)
    (less : ∀ c, 0 < cellOf tables c → 0 < cellOf s.host.tables c)
    (behind : ∀ c, Past stage c → ¬ 0 < cellOf tables c ∨ Past s.stage c) :
    EndingInv { s with host := { s.host with tables }, stage } where
  guarded := guarded
  known := inv.known
  past := by
    intro none_ c past here
    rcases behind c past with empty | earlier
    · exact empty here
    · exact inv.past none_ c earlier (less c here)
  ended := by
    intro ended
    exact absurd (inv.ended ended) before
  cleaned := by
    intro cleaned
    exact absurd (inv.ended (Or.inr cleaned)) before

theorem past_slot {j : Slot} {c : Cell} (past : Past (.slot (j.val + 1)) c) :
    c = some j ∨ Past (.slot j.val) c := by
  cases c with
  | none => exact past.elim
  | some i =>
      have below : i.val < j.val + 1 := past
      by_cases last : i = j
      · exact Or.inl (congrArg some last)
      · have apart : i.val ≠ j.val := fun same => last (Fin.ext same)
        exact Or.inr (show i.val < j.val by omega)

theorem slot_endingInv {k : Nat} (inv : EndingInv s) (at_ : s.stage = .slot k)
    (stepped : shutStep s = some next) : EndingInv next := by
  have guarded := inv.guarded
  rw [at_] at guarded
  have before : s.stage ≠ .cancelled := by simp [at_]
  simp only [shutStep, at_] at stepped
  split at stepped
  · rename_i inside
    split at stepped
    · rename_i lives
      cases stepped
      have closed := closeCell_guarded (k := some ⟨k, inside⟩) guarded rfl lives
      apply inv.moves before closed (fun _ => id)
      intro c past
      rw [at_]
      cases c with
      | none => exact past.elim
      | some i => exact Or.inr past
    · rename_i empty
      cases stepped
      apply inv.moves before (guarded.move rfl rfl) (fun _ => id)
      intro c past
      rw [at_]
      rcases past_slot (j := ⟨k, inside⟩) past with rfl | earlier
      · exact Or.inl empty
      · exact Or.inr earlier
  · rename_i outside
    cases stepped
    apply inv.moves before (guarded.move rfl rfl) (fun _ => id)
    intro c past
    rw [at_]
    cases c with
    | none => exact past.elim
    | some i =>
        have bound := i.isLt
        exact Or.inr (show i.val < k by omega)

theorem listen_endingInv (inv : EndingInv s) (at_ : s.stage = .listen)
    (stepped : shutStep s = some next) : EndingInv next := by
  have guarded := inv.guarded
  rw [at_] at guarded
  have before : s.stage ≠ .cancelled := by simp [at_]
  simp only [shutStep, at_] at stepped
  split at stepped
  · rename_i lives
    cases stepped
    have closed := closeCell_guarded (k := none) guarded rfl lives
    apply inv.moves before closed (fun _ => id)
    intro c past
    rw [at_]
    cases c with
    | none => exact past.elim
    | some i => exact Or.inr trivial
  · rename_i empty
    cases stepped
    apply inv.moves before (guarded.move rfl rfl) (fun _ => id)
    intro c _
    rw [at_]
    cases c with
    | none => exact Or.inl empty
    | some i => exact Or.inr trivial

theorem clear_endingInv {c : Cell} (inv : EndingInv s) (at_ : s.stage = .clear c)
    (stepped : shutStep s = some next) : EndingInv next := by
  have guarded := inv.guarded
  rw [at_] at guarded
  have before : s.stage ≠ .cancelled := by simp [at_]
  simp only [shutStep, at_] at stepped
  cases stepped
  apply inv.moves before (clearCell_guarded guarded) (fun _ => id)
  intro d past
  rw [at_]
  cases c with
  | none =>
      cases d with
      | none => exact past.elim
      | some i => exact Or.inr trivial
  | some j =>
      cases d with
      | none => exact past.elim
      | some i => exact Or.inr past

theorem mark_endingInv {c : Cell} (inv : EndingInv s) (at_ : s.stage = .mark c)
    (stepped : shutStep s = some next) : EndingInv next := by
  have guarded := inv.guarded
  rw [at_] at guarded
  have before : s.stage ≠ .cancelled := by simp [at_]
  simp only [shutStep, at_] at stepped
  cases stepped
  cases c with
  | none =>
      have closes : Closes .alive s.host.tables (markCell s.host.tables none) none :=
        markCell_closes guarded rfl
      apply inv.moves before closes.guarded closes.less
      intro d _
      rw [at_]
      cases d with
      | none => exact Or.inl closes.empty
      | some i => exact Or.inr trivial
  | some j =>
      have closes : Closes (.slot (j.val + 1)) s.host.tables (markCell s.host.tables (some j))
          (some j) := markCell_closes guarded rfl
      apply inv.moves before closes.guarded closes.less
      intro d past
      rw [at_]
      rcases past_slot past with rfl | earlier
      · exact Or.inl closes.empty
      · cases d with
        | none => exact earlier.elim
        | some i => exact Or.inr earlier

theorem shutStep_endingInv (inv : EndingInv s) (stepped : shutStep s = some next) :
    EndingInv next := by
  cases at_ : s.stage with
  | running | cancelled =>
      simp only [shutStep, at_] at stepped
      cases stepped
  | slot k => exact slot_endingInv inv at_ stepped
  | listen => exact listen_endingInv inv at_ stepped
  | clear c => exact clear_endingInv inv at_ stepped
  | mark c => exact mark_endingInv inv at_ stepped
  | alive =>
      have guarded := inv.guarded
      rw [at_] at guarded
      simp only [shutStep, at_] at stepped
      cases stepped
      apply inv.moves (by simp [at_]) (guarded.move rfl rfl) (fun _ => id)
      intro c _
      rw [at_]
      exact Or.inr trivial
  | cancel =>
      have guarded := inv.guarded
      rw [at_] at guarded
      simp only [shutStep, at_] at stepped
      cases stepped
      refine ⟨guarded.move rfl rfl, inv.known, fun none_ c _ => ?_, fun _ => rfl, fun done => ?_⟩
      · apply inv.past none_
        rw [at_]
        trivial
      · apply inv.cleaned
        simp only at done
        split at done
        · cases done
        · exact done

theorem step_endingInv {event : EndingEvent} (inv : EndingInv s)
    (undisturbed : Undisturbed s event) (stepped : s.step order traced event = some next) :
    EndingInv next := by
  cases event with
  | host event =>
      simp only [Ending.step] at stepped
      split at stepped
      · rename_i enabled
        obtain ⟨host, moved, rfl⟩ := Option.map_eq_some_iff.mp stepped
        exact host_endingInv inv enabled undisturbed moved
      · cases stepped
  | signal =>
      simp only [Ending.step] at stepped
      split at stepped
      · rename_i at_
        cases stepped
        have guarded := inv.guarded
        rw [at_] at guarded
        rw [if_pos inv.guarded.mode]
        refine ⟨guarded.move rfl rfl, Nat.le_refl _, fun _ c past => ?_, fun ended => ?_,
          inv.cleaned⟩
        · cases c with
          | none => exact past.elim
          | some i => exact absurd past (Nat.not_lt_zero _)
        · have stage := inv.ended ended
          rw [at_] at stage
          cases stage
      · cases stepped
        exact inv
  | shut => exact shutStep_endingInv inv stepped
  | leave =>
      simp only [Ending.step] at stepped
      split at stepped
      · cases stepped
        exact ⟨inv.guarded, inv.known, inv.past, nofun, nofun⟩
      · cases stepped
  | cleanUp =>
      simp only [Ending.step] at stepped
      split at stepped
      · rename_i at_
        cases stepped
        obtain ⟨guarded, empty⟩ := threadCleanUp_closes inv.guarded
        exact ⟨guarded, inv.known, fun _ c _ => empty c, fun _ => inv.ended (Or.inl at_),
          fun _ => empty⟩
      · cases stepped

/-- However the sections of the tasks and the statements of `host_shutdown` interleave, as
long as no section of an accept runs between the statements for one cell: the open
descriptors are those in the cells, each in one cell, without the one that is being closed,
and besides that one only open ones are watched. Once `host_shutdown` is past its closes,
nothing is open if no connection was accepted since the signal, and once a `tcp_rcvTask`
that was cancelled is cleaned up, nothing is open at all. -/
theorem run_shutdown {listenFd : Int} (listening : 0 < listenFd) {events : List EndingEvent}
    (undisturbed : AllSteps (Ending.step order traced) Undisturbed (.init listenFd) events)
    {final : Ending}
    (reached : run (Ending.step order traced) (.init listenFd) events = some final) :
    Held (openCell final.stage final.host.tables) final.host.tables.openFds ∧
      (∀ fd ∈ final.host.tables.allset, fd ∈ final.host.tables.openFds ∨
        ∃ c, final.stage.clearing = some c ∧ cellOf final.host.tables c = fd) ∧
      (final.host.accepted = final.known →
        final.stage = .alive ∨ final.stage = .cancel ∨ final.stage = .cancelled →
        final.host.tables.openFds = ∅ ∧ final.host.tables.allset = ∅) ∧
      (final.rcvTask = .cleaned →
        final.host.tables.openFds = ∅ ∧ final.host.tables.allset = ∅) := by
  have inv := run_invariant_of EndingInv
    (fun _ _ _ before allowed stepped => step_endingInv before allowed stepped)
    (init_endingInv listening) undisturbed reached
  have guarded := inv.guarded
  refine ⟨guarded.held, guarded.watched, fun none_ past => ?_, fun cleaned => ?_⟩
  · have empty (c : Cell) (here : Past final.stage c) : ¬ 0 < cellOf final.host.tables c :=
      inv.past none_ c here
    rcases past with at_ | at_ | at_
    all_goals
      rw [at_] at guarded empty
      exact guarded.nothing_open rfl fun c => empty c trivial
  · rw [inv.ended (Or.inr cleaned)] at guarded
    exact guarded.nothing_open rfl (inv.cleaned cleaned)

/-- A connection that is accepted behind `host_shutdown` stays open until the task is
cleaned up. -/
def acceptedBehind : List EndingEvent :=
  [.host (.accept 5 40000 1), .host .acceptSet, .signal] ++ List.replicate 4 .shut ++
    [.host (.accept 6 40001 2), .host .acceptSet] ++ List.replicate 132 .shut

set_option maxRecDepth 8192 in
theorem acceptedBehind_cleaned :
    ∃ final, run (Ending.step .little false) (.init 3) (acceptedBehind ++ [.cleanUp]) = some final ∧
      final.rcvTask = .cleaned :=
  exists_of_any (by decide +kernel)

theorem run_shutdown_sample :
    ∃ final, run (Ending.step .little false) (.init 3) (acceptedBehind ++ [.cleanUp]) = some final ∧
      final.host.tables.openFds = ∅ := by
  obtain ⟨final, reached, cleaned⟩ := acceptedBehind_cleaned
  have undisturbed : AllSteps (Ending.step .little false) Undisturbed (.init 3)
      (acceptedBehind ++ [.cleanUp]) := by
    set_option maxRecDepth 8192 in decide +kernel
  exact ⟨final, reached, ((run_shutdown (by decide) undisturbed reached).2.2.2 cleaned).1⟩

/-- A task that leaves its loop by itself has reset its flag, and its `ThreadCleanUp` closes
nothing. -/
theorem left_open :
    ∃ final, run (Ending.step .little false) (.init 3)
        (acceptedBehind.dropLast ++ [.leave, .shut]) = some final ∧
      final.rcvTask = .left ∧ final.stage = .cancelled ∧ final.host.tables.openFds = {6} :=
  exists_of_any (by set_option maxRecDepth 8192 in decide +kernel)

/-- The slot is lost between the `close` and the `-1`, and a connection is accepted into it:
nothing closes its descriptor. -/
theorem disturbed_open :
    ∃ final, run (Ending.step .little false) (.init 3)
        ([.host (.accept 5 40000 1), .host .acceptSet, .signal, .shut, .host (.receive 0 [.failed]),
          .host (.accept 5 40001 2), .host .acceptSet] ++ List.replicate 135 .shut ++ [.cleanUp]) =
        some final ∧
      final.rcvTask = .cleaned ∧ final.host.tables.openFds = {5} :=
  exists_of_any (by set_option maxRecDepth 8192 in decide +kernel)

end Runs

end VnfMonitoring.HostShutdown
