import VnfMonitoring.HostFifo

set_option autoImplicit false

/- `block_FifoGet` with a timed wait that may end in any way POSIX allows, whatever the
other threads do to the queue meanwhile. -/
namespace VnfMonitoring.HostFifoWait

open VnfMonitoring.Chain VnfMonitoring.Runs VnfMonitoring.HostReport VnfMonitoring.HostFifo

variable {space : Nat}

structure Queue (space : Nat) where
  heap : BlockHeap space
  fifo : BlockFifo space

/-- What another thread does while the lock is free: put a chain of new blocks, take the
first block, or empty the queue. -/
inductive Other (space : Nat) where
  | put (first : Fin space × Block) (rest : List (Fin space × Block))
  | take
  | empty

/-- `block_FifoGet` from `b = p_fifo->p_first` on. -/
def takeBlock (s : Queue space) : Option ((Fin space × Block) × Queue space) :=
  (takeFirst s.heap s.fifo).bind fun (fifo, b, block) =>
  (s.heap b).map fun cell =>
    ((b, block), ⟨Function.update s.heap b (some { cell with next := none }), fifo⟩)

/-- New blocks are at addresses of their own that were free, and only a queue with a block has
one taken. -/
def Allowed (s : Queue space) : Other space → Prop
  | .put first rest => (addrs (first :: rest)).Nodup ∧
      ∀ a ∈ addrs (first :: rest), (s.heap a).isNone = true
  | .take => s.fifo.pFirst ≠ none
  | .empty => True

instance (s : Queue space) : (event : Other space) → Decidable (Allowed s event)
  | .put first rest => inferInstanceAs (Decidable ((addrs (first :: rest)).Nodup ∧
      ∀ a ∈ addrs (first :: rest), (s.heap a).isNone = true))
  | .take => inferInstanceAs (Decidable (s.fifo.pFirst ≠ none))
  | .empty => inferInstanceAs (Decidable True)

def performOther (s : Queue space) : Other space → Option (Queue space)
  | .put first rest =>
      (blockFifoPut (build s.heap (first :: rest)) s.fifo first.1).map fun (heap, fifo, _) =>
        ⟨heap, fifo⟩
  | .take => (takeBlock s).map Prod.snd
  | .empty => (blockFifoEmpty s.heap s.fifo).map fun (heap, fifo) => ⟨heap, fifo⟩

def otherStep (s : Queue space) (event : Other space) : Option (Queue space) :=
  if Allowed s event then performOther s event else none

/-- The queue when the wait is over, or at once if there is none. -/
def atReturn (s : Queue space) (others : List (Other space)) : Option (Queue space) :=
  if s.fifo.pFirst = none then run otherStep s others else some s

/-- `block_FifoGet`, where `ret` is what `pthread_cond_timedwait` returns; no value when it
reads a field of NULL. -/
def blockFifoGet (s : Queue space) (others : List (Other space)) (ret : Int) :
    Option (Option (Fin space × Block) × Queue space) :=
  if s.fifo.pFirst = none then
    (run otherStep s others).bind fun s =>
      if ret ≠ 0 then some (none, s) else (takeBlock s).map fun (b, s) => (some b, s)
  else (takeBlock s).map fun (b, s) => (some b, s)

/-- The call returns NULL and leaves the queue `m` as it is, or the head of the blocks linked
in it. -/
def Delivers (m : Queue space) (result : Option (Option (Fin space × Block) × Queue space)) :
    Prop :=
  result = some (none, m) ∨
    ∃ b rest final, Queued m.heap m.fifo (b :: rest) none ∧ result = some (some b, final) ∧
      Queued final.heap final.fifo rest none

section Steps

variable {s next : Queue space} {linked : List (Fin space × Block)}

theorem takeBlock_queued {b : Fin space × Block} {rest : List (Fin space × Block)}
    (queued : Queued s.heap s.fifo (b :: rest) none) :
    ∃ final, takeBlock s = some (b, final) ∧ Queued final.heap final.fifo rest none := by
  obtain ⟨fifo, taken, after⟩ := takeFirst_queued queued
  obtain ⟨outside, _⟩ := List.nodup_cons.mp queued.distinct
  obtain ⟨_, pNext, found, _⟩ := queued.segment
  refine ⟨⟨Function.update s.heap b.1 (some ⟨none, b.2⟩), fifo⟩, ?_, ?_⟩
  · simp only [takeBlock, taken, Option.bind_some, found, Option.map_some]
  · refine after.congr fun a member => Function.update_of_ne ?_ _ _
    rintro rfl
    exact outside member

theorem takeBlock_empty (empty : s.fifo.pFirst = none) : takeBlock s = none := by
  rw [takeBlock, takeFirst, empty]
  rfl

/-- Every allowed act of another thread leaves a well formed queue. -/
theorem otherStep_queued {event : Other space} (queued : Queued s.heap s.fifo linked none)
    (stepped : otherStep s event = some next) :
    ∃ after, Queued next.heap next.fifo after none := by
  unfold otherStep at stepped
  split at stepped
  · rename_i allowed
    cases event with
    | put first rest =>
        obtain ⟨heap, fifo, total, put, after, _⟩ :=
          blockFifoPut_queued queued allowed.1 allowed.2
        rw [performOther, put] at stepped
        cases stepped
        exact ⟨_, after⟩
    | take =>
        cases linked with
        | nil => exact absurd queued.segment allowed
        | cons b rest =>
            obtain ⟨final, taken, after⟩ := takeBlock_queued queued
            rw [performOther, taken] at stepped
            cases stepped
            exact ⟨rest, after⟩
    | empty =>
        obtain ⟨heap, emptied, _⟩ := blockFifoEmpty_queued queued
        rw [performOther, emptied] at stepped
        cases stepped
        exact ⟨[], blockFifoNew_queued heap⟩
  · cases stepped

theorem run_queued {others : List (Other space)} (queued : Queued s.heap s.fifo linked none)
    (reached : run otherStep s others = some next) :
    ∃ after, Queued next.heap next.fifo after none :=
  run_invariant (fun s => ∃ linked, Queued s.heap s.fifo linked none)
    (fun _ _ _ ⟨_, queued⟩ stepped => otherStep_queued queued stepped) ⟨linked, queued⟩ reached

theorem delivers_take (queued : Queued s.heap s.fifo linked none) (some_ : s.fifo.pFirst ≠ none) :
    Delivers s ((takeBlock s).map fun (b, s) => (some b, s)) := by
  cases linked with
  | nil => exact absurd queued.segment some_
  | cons b rest =>
      obtain ⟨final, taken, after⟩ := takeBlock_queued queued
      exact Or.inr ⟨b, rest, final, queued, by rw [taken]; rfl, after⟩

end Steps

/-- From every well formed queue and for every behaviour of the other threads and of the wait,
the call does what it should unless the wait returns 0 with the queue empty. -/
theorem blockFifoGet_delivers {s m : Queue space} {linked : List (Fin space × Block)}
    (queued : Queued s.heap s.fifo linked none) {others : List (Other space)}
    (reached : atReturn s others = some m) (ret : Int) :
    Delivers m (blockFifoGet s others ret) ↔
      ¬ (s.fifo.pFirst = none ∧ ret = 0 ∧ m.fifo.pFirst = none) := by
  unfold atReturn at reached
  unfold blockFifoGet
  by_cases waits : s.fifo.pFirst = none
  · rw [if_pos waits] at reached ⊢
    rw [reached, Option.bind_some]
    by_cases failed : ret ≠ 0
    · rw [if_pos failed]
      exact iff_of_true (Or.inl rfl) fun bad => failed bad.2.1
    · rw [if_neg failed]
      by_cases empty : m.fifo.pFirst = none
      · refine iff_of_false ?_ (not_not_intro ⟨waits, not_not.mp failed, empty⟩)
        rw [takeBlock_empty empty]
        rintro (missing | ⟨_, _, _, _, missing, _⟩) <;> cases missing
      · obtain ⟨after, queued⟩ := run_queued queued reached
        exact iff_of_true (delivers_take queued empty) fun bad => empty bad.2.2
  · rw [if_neg waits] at reached ⊢
    cases reached
    exact iff_of_true (delivers_take queued waits) fun bad => waits bad.1

/-- The queue before the first put. -/
def Queue.init : Queue space := ⟨fun _ => none, blockFifoNew⟩

/-- A block that is put during the wait. -/
theorem blockFifoGet_delivers_put : ∃ m : Queue 1,
    atReturn .init [.put (0, emptyBlock) []] = some m ∧
      Delivers m (blockFifoGet .init [.put (0, emptyBlock) []] 0) := by
  obtain ⟨m, reached⟩ := Option.isSome_iff_exists.mp
    (show (atReturn (Queue.init : Queue 1) [.put (0, emptyBlock) []]).isSome by decide)
  have linked : m.fifo.pFirst ≠ none := by
    have all : (atReturn (Queue.init : Queue 1) [.put (0, emptyBlock) []]).all
        (·.fifo.pFirst ≠ none) := by decide
    rw [reached] at all
    simpa using all
  exact ⟨m, reached, (blockFifoGet_delivers (blockFifoNew_queued _) reached 0).mpr
    fun bad => linked bad.2.2⟩

/-- A wait that returns 0 although nothing was put. -/
theorem blockFifoGet_spurious :
    atReturn (Queue.init : Queue 1) [] = some .init ∧
      ¬ Delivers (Queue.init : Queue 1) (blockFifoGet .init [] 0) := by
  refine ⟨rfl, ?_⟩
  rintro (missing | ⟨_, _, _, _, missing, _⟩) <;> cases missing

/-- The state of every run of the queue and its users is one such. -/
theorem reached_queued {events : List (FifoEvent space)} {final : FifoSystem space}
    (reached : run HostFifo.step FifoSystem.init events = some final) :
    ∃ linked, Queued final.heap final.fifo linked none := by
  obtain ⟨linked, inv⟩ := HostFifo.run_inv reached
  exact ⟨linked, inv.queued⟩

end VnfMonitoring.HostFifoWait
