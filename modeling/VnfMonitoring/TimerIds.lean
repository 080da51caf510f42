import Mathlib.Data.List.Nodup
import VnfMonitoring.Lib.Ring

set_option autoImplicit false

/- The timer-id allocator of `timer.c`: a circular table whose free ids run from
`assign_ptr` and whose assigned cells run from `cancel_ptr`. -/
namespace VnfMonitoring.TimerIds

open VnfMonitoring.Ring

structure TidEntry where
  flag : Bool
  id : Int
  deriving DecidableEq, Repr

structure Tids where
  assignPtr : Nat
  cancelPtr : Nat
  comeback : Bool
  maxtnum : Nat
  tremainder : Int
  tidList : List TidEntry
  deriving DecidableEq, Repr

def funcInitTid (max : Nat) : Tids where
  assignPtr := 0
  cancelPtr := 0
  comeback := false
  maxtnum := max
  tremainder := max
  tidList := (List.range max).map fun i : Nat => ⟨false, (i : Int) + 1⟩

/-- The body both branches of `func_assign_tid` share. It has no value when
`assign_ptr` is outside the table. -/
def takeTid (t : Tids) : Option (Int × Tids) :=
  match t.tidList[t.assignPtr]? with
  | none => none
  | some entry =>
      if entry.flag = false then
        some (entry.id,
          { t with
            tidList := t.tidList.set t.assignPtr { entry with flag := true }
            tremainder := t.tremainder - 1
            assignPtr := advance t.maxtnum t.assignPtr
            comeback := if t.maxtnum ≤ t.assignPtr + 1 then true else t.comeback })
      else some (-1, t)

def funcAssignTid (t : Tids) : Option (Int × Tids) :=
  if t.tremainder ≤ 0 then some (-1, t)
  else if t.comeback = false then takeTid t
  else if (t.assignPtr : Int) - t.cancelPtr < 0 then takeTid t
  else some (-1, t)

/-- The body both branches of `func_cancel_tid` share. -/
def putTid (t : Tids) (id : Int) : Option (Int × Tids) :=
  if t.cancelPtr < t.tidList.length then
    let tremainder := t.tremainder + 1
    some (0,
      { t with
        tidList := t.tidList.set t.cancelPtr ⟨false, id⟩
        tremainder := if tremainder > t.maxtnum then t.maxtnum else tremainder
        cancelPtr := advance t.maxtnum t.cancelPtr
        comeback := if t.maxtnum ≤ t.cancelPtr + 1 then false else t.comeback })
  else none

def funcCancelTid (t : Tids) (id : Int) : Option (Int × Tids) :=
  if 0 < id ∧ id ≤ t.maxtnum then
    if t.comeback = false then
      if (t.assignPtr : Int) - t.cancelPtr > 0 then putTid t id else some (-1, t)
    else putTid t id
  else some (-1, t)

/-- The table holds these free ids, in the order they will be assigned, and these
assigned cells. -/
structure Holds (t : Tids) (free : List Int) (used : List TidEntry) : Prop where
  size : t.tidList.length = t.maxtnum
  total : used.length + free.length = t.maxtnum
  assignInside : t.assignPtr < t.maxtnum
  cancelInside : t.cancelPtr < t.maxtnum
  wrapped : t.comeback = true → t.cancelPtr = t.assignPtr + free.length
  straight : t.comeback = false → t.assignPtr = t.cancelPtr + used.length
  freeCells : Window t.tidList t.assignPtr (free.map (TidEntry.mk false))
  usedCells : Window t.tidList t.cancelPtr used
  marked : ∀ entry ∈ used, entry.flag = true
  remainder : t.tremainder = free.length

def allIds (max : Nat) : List Int := (List.range max).map fun i : Nat => (i : Int) + 1

theorem mem_allIds {max : Nat} {id : Int} : id ∈ allIds max ↔ 1 ≤ id ∧ id ≤ max := by
  simp only [allIds, List.mem_map, List.mem_range]
  constructor
  · rintro ⟨i, inside, rfl⟩
    omega
  · rintro ⟨low, high⟩
    exact ⟨(id - 1).toNat, by omega, by omega⟩

theorem allIds_nodup (max : Nat) : (allIds max).Nodup := by
  refine List.Nodup.map ?_ List.nodup_range
  intro left right same
  have sum : (left : Int) + 1 = right + 1 := same
  omega

theorem funcInitTid_holds {max : Nat} (positive : 1 ≤ max) :
    Holds (funcInitTid max) (allIds max) [] where
  size := by simp [funcInitTid]
  total := by simp [funcInitTid, allIds]
  assignInside := positive
  cancelInside := positive
  wrapped := by simp [funcInitTid]
  straight := by simp [funcInitTid]
  freeCells := by
    refine ⟨by simp [funcInitTid, allIds], fun offset inside => ?_⟩
    have short : offset < max := by simpa [allIds] using inside
    simp [funcInitTid, allIds, place, short]
  usedCells := window_nil _ _
  marked := by simp
  remainder := by simp [funcInitTid, allIds]

/-- The cell after the assigned ones is the first free one. -/
theorem Holds.place_used {t : Tids} {free : List Int} {used : List TidEntry}
    (holds : Holds t free used) (some_ : free ≠ []) :
    place t.tidList.length t.cancelPtr used.length = t.assignPtr := by
  have positive := List.length_pos_of_ne_nil some_
  have total := holds.total
  have assignInside := holds.assignInside
  rw [holds.size]
  unfold place
  cases comeback : t.comeback with
  | false =>
      have straight := holds.straight comeback
      rw [if_pos (by omega)]
      exact straight.symm
  | true =>
      have wrapped := holds.wrapped comeback
      rw [if_neg (by omega)]
      omega

/-- The cell after the free ones is the first assigned one. -/
theorem Holds.place_free {t : Tids} {free : List Int} {used : List TidEntry}
    (holds : Holds t free used) (some_ : used ≠ []) :
    place t.tidList.length t.assignPtr free.length = t.cancelPtr := by
  have positive := List.length_pos_of_ne_nil some_
  have total := holds.total
  have cancelInside := holds.cancelInside
  rw [holds.size]
  unfold place
  cases comeback : t.comeback with
  | false =>
      have straight := holds.straight comeback
      rw [if_neg (by omega)]
      omega
  | true =>
      have wrapped := holds.wrapped comeback
      rw [if_pos (by omega)]
      exact wrapped.symm

theorem funcAssignTid_empty {t : Tids} {used : List TidEntry} (holds : Holds t [] used) :
    funcAssignTid t = some (-1, t) := by
  have none_left : t.tremainder ≤ 0 := by
    rw [holds.remainder]
    simp
  rw [funcAssignTid, if_pos none_left]

theorem takeTid_holds {t : Tids} {id : Int} {free : List Int} {used : List TidEntry}
    (holds : Holds t (id :: free) used) :
    ∃ next, takeTid t = some (id, next) ∧ next.maxtnum = t.maxtnum ∧
      Holds next free (used ++ [⟨true, id⟩]) := by
  have inside : t.assignPtr < t.tidList.length := holds.size ▸ holds.assignInside
  have cancelInside : t.cancelPtr < t.tidList.length := holds.size ▸ holds.cancelInside
  have total := holds.total
  have size := holds.size
  rw [List.length_cons] at total
  have freeCells := holds.freeCells
  rw [List.map_cons] at freeCells
  have first := window_head inside freeCells
  have place_used := holds.place_used (List.cons_ne_nil _ _)
  unfold takeTid
  simp only [first, ↓reduceIte]
  refine ⟨_, rfl, rfl, ?_⟩
  exact
    { size := by simpa using size
      total := by simp only [List.length_append, List.length_singleton]; omega
      assignInside := advance_lt holds.assignInside
      cancelInside := holds.cancelInside
      wrapped := by
        intro comeback
        have wrapped := holds.wrapped
        have straight := holds.straight
        have cancelInside := holds.cancelInside
        simp only [List.length_cons] at wrapped
        simp only [advance] at comeback ⊢
        split
        · cases old : t.comeback with
          | false =>
              have := straight old
              omega
          | true =>
              have := wrapped old
              omega
        · rename_i inner
          rw [if_neg inner] at comeback
          have := wrapped comeback
          omega
      straight := by
        intro comeback
        simp only [advance] at comeback ⊢
        split at comeback
        · cases comeback
        · rename_i inner
          rw [if_neg inner, holds.straight comeback]
          simp only [List.length_append, List.length_singleton]
          omega
      freeCells := by
        rw [← size]
        exact window_tail_set _ inside freeCells
      usedCells := by
        rw [← place_used]
        exact window_snoc _ cancelInside (by omega) holds.usedCells
      marked := by
        intro entry member
        rcases List.mem_append.mp member with old | new
        · exact holds.marked entry old
        · rw [List.mem_singleton.mp new]
      remainder := by
        have remainder := holds.remainder
        rw [List.length_cons] at remainder
        simp only [remainder]
        omega }

/-- `func_assign_tid` hands out the first free id. -/
theorem funcAssignTid_holds {t : Tids} {id : Int} {free : List Int} {used : List TidEntry}
    (holds : Holds t (id :: free) used) :
    ∃ next, funcAssignTid t = some (id, next) ∧ next.maxtnum = t.maxtnum ∧
      Holds next free (used ++ [⟨true, id⟩]) := by
  have left : ¬ t.tremainder ≤ 0 := by
    rw [holds.remainder, List.length_cons]
    omega
  have taken := takeTid_holds holds
  rw [funcAssignTid, if_neg left]
  cases comeback : t.comeback with
  | false => simpa using taken
  | true =>
      have wrapped := holds.wrapped comeback
      rw [List.length_cons] at wrapped
      rw [if_neg (by simp), if_pos (by omega)]
      exact taken

theorem putTid_holds {t : Tids} (id : Int) {free : List Int} {entry : TidEntry}
    {used : List TidEntry} (holds : Holds t free (entry :: used)) :
    ∃ next, putTid t id = some (0, next) ∧ next.maxtnum = t.maxtnum ∧
      Holds next (free ++ [id]) used := by
  have inside : t.assignPtr < t.tidList.length := holds.size ▸ holds.assignInside
  have cancelInside : t.cancelPtr < t.tidList.length := holds.size ▸ holds.cancelInside
  have total := holds.total
  have size := holds.size
  rw [List.length_cons] at total
  have place_free := holds.place_free (List.cons_ne_nil _ _)
  unfold putTid
  rw [if_pos cancelInside]
  refine ⟨_, rfl, rfl, ?_⟩
  exact
    { size := by simpa using size
      total := by simp only [List.length_append, List.length_singleton]; omega
      assignInside := holds.assignInside
      cancelInside := advance_lt holds.cancelInside
      wrapped := by
        intro comeback
        simp only [advance] at comeback ⊢
        split at comeback
        · cases comeback
        · rename_i inner
          rw [if_neg inner, holds.wrapped comeback]
          simp only [List.length_append, List.length_singleton]
          omega
      straight := by
        intro comeback
        have wrapped := holds.wrapped
        have straight := holds.straight
        have assignInside := holds.assignInside
        simp only [List.length_cons] at straight
        simp only [advance] at comeback ⊢
        split
        · cases old : t.comeback with
          | false =>
              have := straight old
              omega
          | true =>
              have := wrapped old
              omega
        · rename_i inner
          rw [if_neg inner] at comeback
          have := straight comeback
          omega
      freeCells := by
        have extended := window_snoc (TidEntry.mk false id) inside
          (by rw [List.length_map]; omega) holds.freeCells
        rwa [List.length_map, place_free, ← List.map_singleton, ← List.map_append] at extended
      usedCells := by
        rw [← size]
        exact window_tail_set _ cancelInside holds.usedCells
      marked := fun other member => holds.marked other (List.mem_cons_of_mem _ member)
      remainder := by
        have remainder := holds.remainder
        simp only [List.length_append, List.length_singleton]
        split <;> omega }

/-- While an id is assigned, `func_cancel_tid` takes any id back at the end. -/
theorem funcCancelTid_holds {t : Tids} {id : Int} {free : List Int} {entry : TidEntry}
    {used : List TidEntry} (holds : Holds t free (entry :: used))
    (valid : 1 ≤ id ∧ id ≤ t.maxtnum) :
    ∃ next, funcCancelTid t id = some (0, next) ∧ next.maxtnum = t.maxtnum ∧
      Holds next (free ++ [id]) used := by
  have put := putTid_holds id holds
  rw [funcCancelTid, if_pos ⟨by omega, valid.2⟩]
  cases comeback : t.comeback with
  | false =>
      have straight := holds.straight comeback
      rw [List.length_cons] at straight
      rw [if_pos rfl, if_pos (by omega)]
      exact put
  | true => simpa using put

/-- The id comes out of `func_assign_tid` after some number of other calls. -/
inductive Allocatable : Tids → Int → Prop where
  | here {t next : Tids} {id : Int} (assigned : funcAssignTid t = some (id, next)) :
      Allocatable t id
  | later {t next : Tids} {id other : Int} (assigned : funcAssignTid t = some (other, next))
      (remaining : Allocatable next id) : Allocatable t id

theorem Holds.allocatable {free : List Int} {id : Int} (member : id ∈ free) :
    ∀ {t : Tids} {used : List TidEntry}, Holds t free used → Allocatable t id := by
  induction free with
  | nil => exact absurd member List.not_mem_nil
  | cons first rest ih =>
      intro t used holds
      obtain ⟨next, assigned, _, after⟩ := funcAssignTid_holds holds
      rcases List.mem_cons.mp member with same | behind
      · exact .here (same ▸ assigned)
      · exact .later assigned (ih behind after)

end VnfMonitoring.TimerIds
