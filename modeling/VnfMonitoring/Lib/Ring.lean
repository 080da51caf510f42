import Mathlib.Data.List.Basic

set_option autoImplicit false

/- Windows of a circular array: the cells that hold a list when it starts at a
given place and wraps at the end of the array. -/
namespace VnfMonitoring.Ring

variable {α : Type}

/-- The place `offset` cells after `start`. -/
def place (size start offset : Nat) : Nat :=
  if start + offset < size then start + offset else start + offset - size

/-- The place after `start`. -/
def advance (size start : Nat) : Nat := if size ≤ start + 1 then 0 else start + 1

theorem place_lt {size start offset : Nat} (inside : start < size) (short : offset < size) :
    place size start offset < size := by
  unfold place
  split <;> omega

theorem place_inj {size start left right : Nat} (first : left < size)
    (second : right < size) (same : place size start left = place size start right) :
    left = right := by
  unfold place at same
  split at same <;> split at same <;> omega

@[simp] theorem place_zero {size start : Nat} (inside : start < size) :
    place size start 0 = start := by
  simp [place, inside]

theorem advance_lt {size start : Nat} (inside : start < size) : advance size start < size := by
  unfold advance
  split <;> omega

theorem place_advance {size start offset : Nat} (inside : start < size)
    (short : offset + 1 < size) :
    place size (advance size start) offset = place size start (offset + 1) := by
  unfold place advance
  split <;> split <;> split <;> omega

theorem place_place {size start offset more : Nat} (inside : start < size)
    (short : offset + more < size) :
    place size (place size start offset) more = place size start (offset + more) := by
  unfold place
  split <;> split <;> split <;> omega

/-- Every cell is some number of cells after `start`. -/
theorem exists_place {size start at_ : Nat} (inside : start < size) (here : at_ < size) :
    ∃ offset < size, place size start offset = at_ := by
  unfold place
  by_cases ahead : start ≤ at_
  · refine ⟨at_ - start, by omega, ?_⟩
    rw [if_pos (by omega)]
    omega
  · refine ⟨size - start + at_, by omega, ?_⟩
    rw [if_neg (by omega)]
    omega

/-- The window from `start` holds the elements of a list, in order. -/
def Window (cells : List α) (start : Nat) (elements : List α) : Prop :=
  elements.length ≤ cells.length ∧ ∀ offset (inside : offset < elements.length),
    cells[place cells.length start offset]? = some elements[offset]

theorem window_nil (cells : List α) (start : Nat) : Window cells start [] :=
  ⟨Nat.zero_le _, fun _ inside => absurd inside (Nat.not_lt_zero _)⟩

theorem window_head {cells rest : List α} {start : Nat} {element : α}
    (inside : start < cells.length) (window : Window cells start (element :: rest)) :
    cells[start]? = some element := by
  have first := window.2 0 (by simp)
  rwa [place_zero inside] at first

theorem window_tail {cells rest : List α} {start : Nat} {element : α}
    (inside : start < cells.length) (window : Window cells start (element :: rest)) :
    Window cells (advance cells.length start) rest := by
  obtain ⟨short, holds⟩ := window
  rw [List.length_cons] at short
  refine ⟨by omega, fun offset within => ?_⟩
  rw [place_advance inside (by omega), holds (offset + 1) (by simpa using within)]
  rfl

/-- A write outside a window leaves it as it was. -/
theorem window_set {cells elements : List α} {start : Nat} (at_ : Nat) (element : α)
    (window : Window cells start elements)
    (outside : ∀ offset, offset < elements.length → place cells.length start offset ≠ at_) :
    Window (cells.set at_ element) start elements := by
  refine ⟨by simpa using window.1, fun offset within => ?_⟩
  rw [List.length_set, List.getElem?_set_ne (outside offset within).symm]
  exact window.2 offset within

/-- A write into the first cell of a window leaves the rest of it. -/
theorem window_tail_set {cells rest : List α} {start : Nat} {element : α} (new : α)
    (inside : start < cells.length) (window : Window cells start (element :: rest)) :
    Window (cells.set start new) (advance cells.length start) rest := by
  have short : rest.length + 1 ≤ cells.length := window.1
  apply window_set start new (window_tail inside window)
  intro offset within same
  rw [place_advance inside (by omega)] at same
  have moved := place_inj (by omega) (by omega) (same.trans (place_zero inside).symm)
  omega

/-- A write into the cell after a window extends it. -/
theorem window_snoc {cells elements : List α} {start : Nat} (element : α)
    (inside : start < cells.length) (room : elements.length < cells.length)
    (window : Window cells start elements) :
    Window (cells.set (place cells.length start elements.length) element) start
      (elements ++ [element]) := by
  have old := window_set (place cells.length start elements.length) element window
    fun offset within same => absurd (place_inj (by omega) room same) (by omega)
  refine ⟨by simpa using Nat.succ_le_of_lt room, fun offset within => ?_⟩
  rw [List.length_append, List.length_singleton] at within
  by_cases last : offset = elements.length
  · subst last
    simp [List.length_set, place_lt inside room]
  · have before : offset < elements.length := by omega
    rw [old.2 offset before, List.getElem_append_left before]

end VnfMonitoring.Ring
