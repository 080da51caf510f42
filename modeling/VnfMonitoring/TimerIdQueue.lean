import VnfMonitoring.TimerIds
import VnfMonitoring.Lib.Queue
import VnfMonitoring.Lib.Runs

set_option autoImplicit false

/- The ring of timer ids against a queue of the free ids, over runs of `func_assign_tid` and
`func_cancel_tid`. -/
namespace VnfMonitoring.TimerIdQueue

open VnfMonitoring.Ring VnfMonitoring.Runs VnfMonitoring.Queue VnfMonitoring.TimerIds

inductive Call where
  | assign
  | cancel (id : Int)
  deriving DecidableEq

/-- The ring, with the ids assigned and not cancelled since, and all that the calls have
returned. -/
structure Allocator where
  tids : Tids
  assigned : List Int
  returned : List Int

def start (max : Nat) : Allocator := ⟨funcInitTid max, [], []⟩

def step (s : Allocator) : Call → Option Allocator
  | .assign => (funcAssignTid s.tids).map fun (id, tids) =>
      ⟨tids, if id = -1 then s.assigned else id :: s.assigned, s.returned ++ [id]⟩
  | .cancel id => (funcCancelTid s.tids id).map fun (ret, tids) =>
      ⟨tids, s.assigned.erase id, s.returned ++ [ret]⟩

/-- Only an id that is assigned is cancelled. -/
def Legal (s : Allocator) : Call → Prop
  | .assign => True
  | .cancel id => id ∈ s.assigned

instance (s : Allocator) : DecidablePred (Legal s)
  | .assign => isTrue trivial
  | .cancel id => inferInstanceAs (Decidable (id ∈ s.assigned))

/-- What a call does to the queue of the free ids. -/
def Call.op : Call → Op Int
  | .assign => .take
  | .cancel id => .put id

def freeAfter (max : Nat) (calls : List Call) : List Int := after (allIds max) (calls.map Call.op)

/-- What the calls return when the free ids are a queue. -/
def queueReturns : List Int → List Call → List Int
  | _, [] => []
  | free, .assign :: calls => free.head?.getD (-1) :: queueReturns free.tail calls
  | free, .cancel id :: calls => 0 :: queueReturns (free ++ [id]) calls

/-- `func_assign_tid` comes to the message that the id at `assign_ptr` is used. -/
def UsedError (t : Tids) : Prop :=
  0 < t.tremainder ∧ (t.comeback = false ∨ (t.assignPtr : Int) - t.cancelPtr < 0) ∧
    ∃ entry, t.tidList[t.assignPtr]? = some entry ∧ entry.flag = true

/-- It comes to the message about `assign_ptr` and `cancel_ptr`. -/
def PointerError (t : Tids) : Prop :=
  0 < t.tremainder ∧ t.comeback = true ∧ ¬ (t.assignPtr : Int) - t.cancelPtr < 0

/-- The ring stands for the queue. -/
structure Simulates (max : Nat) (s : Allocator) (free : List Int) : Prop where
  ids : (free ++ s.assigned).Perm (allIds max)
  remainder : s.tids.tremainder = free.length
  assignInside : s.tids.assignPtr < max
  cancelInside : s.tids.cancelPtr < max
  flags : ∀ i entry, s.tids.tidList[i]? = some entry →
    (entry.flag = true ↔ ∃ offset < max - free.length, place max s.tids.cancelPtr offset = i)
  used : UsedError s.tids → free = []
  pointers : PointerError s.tids → free = []

/-- An id that is cancelled is assigned again only after all that were free then. -/
def ReusedLast (max : Nat) (calls : List Call) (final : Allocator) : Prop :=
  ∀ earlier id later, calls = earlier ++ .cancel id :: later →
    ∀ middle, run step (start max) (earlier ++ [.cancel id]) = some middle →
      ∃ since, final.returned = middle.returned ++ since ∧
        (id ∈ since → freeAfter max earlier ++ [id] <+: since.filter (0 < ·))

section Ring

variable {t : Tids} {free : List Int} {used : List TidEntry}

/-- The flags tell the assigned cells from the free ones. -/
theorem flag_iff (holds : Holds t free used) {i : Nat} {entry : TidEntry}
    (found : t.tidList[i]? = some entry) :
    entry.flag = true ↔ ∃ offset < used.length, place t.maxtnum t.cancelPtr offset = i := by
  have inside : i < t.maxtnum := by
    rw [← holds.size]
    exact (List.getElem?_eq_some_iff.mp found).1
  have total := holds.total
  obtain ⟨offset, short, rfl⟩ := exists_place holds.cancelInside inside
  by_cases taken : offset < used.length
  · have cell := holds.usedCells.2 offset taken
    rw [holds.size, found] at cell
    cases cell
    exact iff_of_true (holds.marked _ (List.getElem_mem taken)) ⟨offset, taken, rfl⟩
  · have some_ : free ≠ [] := by
      rintro rfl
      rw [List.length_nil] at total
      omega
    have begins := holds.place_used some_
    rw [holds.size] at begins
    have behind : offset - used.length < (free.map (TidEntry.mk false)).length := by
      rw [List.length_map]
      omega
    have cell := holds.freeCells.2 (offset - used.length) behind
    rw [holds.size, ← begins, place_place holds.cancelInside (by omega),
      show used.length + (offset - used.length) = offset by omega, found] at cell
    cases cell
    apply iff_of_false
    · simp
    · rintro ⟨other, below, same⟩
      have equal := place_inj (by omega) short same
      omega

theorem not_usedError (holds : Holds t free used) : ¬ UsedError t := by
  rintro ⟨left, ahead, entry, found, flag⟩
  rw [holds.remainder] at left
  obtain ⟨id, rest, rfl⟩ := List.exists_cons_of_length_pos (show 0 < free.length by omega)
  have cells := holds.freeCells
  rw [List.map_cons] at cells
  have first := window_head (holds.size ▸ holds.assignInside) cells
  rw [found] at first
  cases first
  cases flag

theorem not_pointerError (holds : Holds t free used) : ¬ PointerError t := by
  rintro ⟨left, comeback, behind⟩
  have wrapped := holds.wrapped comeback
  rw [holds.remainder] at left
  omega

end Ring

/-- What holds between the calls. -/
structure Related (max : Nat) (s : Allocator) (free : List Int) : Prop where
  ids : (free ++ s.assigned).Perm (allIds max)
  maxtnum : s.tids.maxtnum = max
  holds : ∃ used, Holds s.tids free used

section Run

variable {max : Nat} {s : Allocator} {free : List Int}

theorem start_related (positive : 1 ≤ max) : Related max (start max) (allIds max) :=
  ⟨by simp [start], rfl, [], funcInitTid_holds positive⟩

theorem Related.simulates (related : Related max s free) : Simulates max s free := by
  obtain ⟨ids, maxtnum, used, holds⟩ := related
  have total := holds.total
  have count : max - free.length = used.length := by omega
  exact
    { ids
      remainder := holds.remainder
      assignInside := maxtnum ▸ holds.assignInside
      cancelInside := maxtnum ▸ holds.cancelInside
      flags := by
        intro i entry found
        rw [count, ← maxtnum]
        exact flag_iff holds found
      used := fun error => absurd error (not_usedError holds)
      pointers := fun error => absurd error (not_pointerError holds) }

theorem assign_related (related : Related max s free) :
    ∃ next, step s .assign = some next ∧ Related max next free.tail ∧
      next.returned = s.returned ++ [free.head?.getD (-1)] := by
  obtain ⟨ids, maxtnum, used, holds⟩ := related
  cases free with
  | nil =>
      refine ⟨⟨s.tids, s.assigned, s.returned ++ [-1]⟩, ?_, ⟨ids, maxtnum, used, holds⟩, rfl⟩
      rw [step, funcAssignTid_empty holds]
      rfl
  | cons id rest =>
      obtain ⟨tids, assigned, same, after⟩ := funcAssignTid_holds holds
      have known := mem_allIds.mp (ids.subset (List.mem_append_left _ List.mem_cons_self))
      have handed : id ≠ -1 := by omega
      refine ⟨⟨tids, id :: s.assigned, s.returned ++ [id]⟩, ?_,
        ⟨?_, same.trans maxtnum, _, after⟩, rfl⟩
      · rw [step, assigned, Option.map_some]
        simp only [handed, if_false]
      · exact List.perm_middle.trans ids

theorem cancel_related (related : Related max s free) {id : Int} (member : id ∈ s.assigned) :
    ∃ next, step s (.cancel id) = some next ∧ Related max next (free ++ [id]) ∧
      next.returned = s.returned ++ [0] := by
  obtain ⟨ids, maxtnum, used, holds⟩ := related
  have total := holds.total
  have count := ids.length_eq
  have assigned := List.length_pos_of_mem member
  simp only [List.length_append, allIds, List.length_map, List.length_range] at count
  obtain ⟨entry, rest, rfl⟩ := List.exists_cons_of_length_pos (show 0 < used.length by omega)
  have known := mem_allIds.mp (ids.subset (List.mem_append_right _ member))
  have valid : 1 ≤ id ∧ id ≤ s.tids.maxtnum := by omega
  obtain ⟨tids, cancelled, same, after⟩ := funcCancelTid_holds holds valid
  refine ⟨⟨tids, s.assigned.erase id, s.returned ++ [0]⟩, ?_, ⟨?_, same.trans maxtnum, _, after⟩,
    rfl⟩
  · rw [step, cancelled]
    rfl
  · rw [List.append_assoc]
    exact ((List.perm_cons_erase member).symm.append_left free).trans ids

/-- A call never leaves the table, whatever id it cancels. -/
theorem step_isSome (related : Related max s free) (call : Call) : (step s call).isSome := by
  obtain ⟨ids, maxtnum, used, holds⟩ := related
  cases call with
  | assign =>
      obtain ⟨next, stepped, _⟩ := assign_related ⟨ids, maxtnum, used, holds⟩
      rw [stepped]
      rfl
  | cancel id =>
      have inside : s.tids.cancelPtr < s.tids.tidList.length := holds.size ▸ holds.cancelInside
      rw [step, Option.isSome_map]
      unfold funcCancelTid putTid
      rw [if_pos inside]
      split_ifs <;> rfl

theorem step_related (related : Related max s free) {call : Call} (legal : Legal s call) :
    ∃ next, step s call = some next ∧ Related max next (Queue.step free call.op) ∧
      next.returned = s.returned ++ queueReturns free [call] := by
  cases call with
  | assign => exact assign_related related
  | cancel id => exact cancel_related related legal

/-- A run of legal calls goes through, and returns what the queue does. -/
theorem run_related (related : Related max s free) {calls : List Call}
    (legal : AllSteps step Legal s calls) :
    ∃ final, run step s calls = some final ∧ Related max final (after free (calls.map Call.op)) ∧
      final.returned = s.returned ++ queueReturns free calls := by
  induction calls generalizing s free with
  | nil => exact ⟨s, rfl, related, by simp [queueReturns]⟩
  | cons call rest ih =>
      obtain ⟨next, stepped⟩ := Option.isSome_iff_exists.mp (step_isSome related call)
      obtain ⟨here, later⟩ := legal next stepped
      obtain ⟨other, same, kept, first⟩ := step_related related here
      cases stepped.symm.trans same
      obtain ⟨final, reached, done, behind⟩ := ih kept later
      refine ⟨final, ?_, done, ?_⟩
      · rw [run_cons, stepped, Option.bind_some, reached]
      · rw [behind, first, List.append_assoc]
        cases call <;> rfl

/-- The ids among what a queue of ids returns. -/
theorem filter_queueReturns {calls : List Call} (positive : ∀ id ∈ free, 0 < id)
    (puts_ : ∀ id ∈ puts (calls.map Call.op), 0 < id) :
    (queueReturns free calls).filter (0 < ·) = taken free (calls.map Call.op) := by
  induction calls generalizing free with
  | nil => rfl
  | cons call rest ih =>
      cases call with
      | assign =>
          cases free with
          | nil => simpa [queueReturns, taken, Call.op] using ih (by simp) puts_
          | cons id free =>
              rw [List.forall_mem_cons] at positive
              simpa [queueReturns, taken, Call.op, positive.1] using ih positive.2 puts_
      | cancel id =>
          rw [List.map_cons, Call.op, puts, List.forall_mem_cons] at puts_
          have known : ∀ other ∈ free ++ [id], 0 < other := by
            simpa [or_imp, forall_and] using ⟨positive, puts_.1⟩
          simpa [queueReturns, taken, Call.op] using ih known puts_.2

theorem positive_of_related (related : Related max s free) {id : Int}
    (member : id ∈ free ++ s.assigned) : 0 < id := by
  have known := mem_allIds.mp (related.ids.subset member)
  omega

/-- The ids that a run of legal calls cancels. -/
theorem puts_positive (related : Related max s free) {calls : List Call}
    (legal : AllSteps step Legal s calls) : ∀ id ∈ puts (calls.map Call.op), 0 < id := by
  induction calls generalizing s free with
  | nil => simp [puts]
  | cons call rest ih =>
      obtain ⟨next, stepped⟩ := Option.isSome_iff_exists.mp (step_isSome related call)
      obtain ⟨here, later⟩ := legal next stepped
      obtain ⟨other, same, kept, _⟩ := step_related related here
      cases stepped.symm.trans same
      have behind := ih kept later
      cases call with
      | assign => exact behind
      | cancel id =>
          rw [List.map_cons, Call.op, puts, List.forall_mem_cons]
          exact ⟨positive_of_related related (List.mem_append_right _ here), behind⟩

/-- A cancelled id comes back last. -/
theorem since_cancelled (related : Related max s free) {id : Int} (member : id ∈ s.assigned)
    {next : Allocator} (cancelled : step s (.cancel id) = some next) {later : List Call}
    (legal : AllSteps step Legal next later)
    (again : id ∈ (queueReturns (free ++ [id]) later).filter (0 < ·)) :
    free ++ [id] <+: (queueReturns (free ++ [id]) later).filter (0 < ·) := by
  obtain ⟨other, same, kept, _⟩ := cancel_related related member
  cases cancelled.symm.trans same
  have known : ∀ other ∈ free ++ [id], 0 < other := fun other inside =>
    positive_of_related kept (List.mem_append_left _ inside)
  have new : id ∉ free := by
    have distinct := related.ids.nodup_iff.mpr (allIds_nodup max)
    intro inside
    exact (List.nodup_append.mp distinct).2.2 id inside id member rfl
  rw [filter_queueReturns known (puts_positive kept legal)] at again ⊢
  exact prefix_taken new again

end Run

/-- The ring is a queue of the free ids: after every legal run it stands for the queue that
the calls leave of all ids, and the calls have returned what the queue gives. -/
theorem run_queue {max : Nat} (positive : 1 ≤ max) {calls : List Call}
    (legal : AllSteps step Legal (start max) calls) :
    ∃ final, run step (start max) calls = some final ∧
      Simulates max final (freeAfter max calls) ∧
      final.returned = queueReturns (allIds max) calls ∧ ReusedLast max calls final := by
  have begins := start_related positive
  obtain ⟨final, reached, related, returned⟩ := run_related begins legal
  refine ⟨final, reached, related.simulates, returned, ?_⟩
  rintro earlier id later rfl middle before
  obtain ⟨front, behind⟩ := allSteps_append legal
  obtain ⟨state, there, kept, _⟩ := run_related begins front
  rw [run_append, there, Option.bind_some, run_singleton] at before
  obtain ⟨here, after⟩ := behind state there middle before
  obtain ⟨next, cancelled, moved, _⟩ := cancel_related kept here
  cases before.symm.trans cancelled
  obtain ⟨last, ended, _, since⟩ := run_related moved after
  rw [run_append, there, Option.bind_some, run_cons, before, Option.bind_some, ended] at reached
  cases reached
  have positive := positive_of_related kept (List.mem_append_right _ here)
  refine ⟨_, since, fun again => since_cancelled kept here before after ?_⟩
  exact List.mem_filter.mpr ⟨again, decide_eq_true positive⟩

/-- Two ids, assigned both and cancelled in the other order. -/
theorem run_queue_two : ∃ final,
    run step (start 2) [.assign, .assign, .cancel 2, .cancel 1, .assign] = some final ∧
      final.returned = [1, 2, 0, 0, 2] := by
  have positive : 1 ≤ 2 := by decide
  have legal : AllSteps step Legal (start 2)
      [.assign, .assign, .cancel 2, .cancel 1, .assign] := by decide
  obtain ⟨final, reached, _, returned, _⟩ := run_queue positive legal
  exact ⟨final, reached, returned.trans (by decide)⟩

end VnfMonitoring.TimerIdQueue
