import Mathlib.Data.Finset.Basic
import Mathlib.Logic.Function.Basic

set_option autoImplicit false

/- Descriptors kept in the cells of a table: the open ones are the positive numbers in the
cells, and a cell that is not positive keeps none. -/
namespace VnfMonitoring.Handles

variable {κ : Type} {cell : κ → Int} {opened : Finset Int}

/-- Every open descriptor is in one cell, and every descriptor in a cell is open. -/
structure Held (cell : κ → Int) (opened : Finset Int) : Prop where
  once : ∀ k l, 0 < cell k → cell k = cell l → k = l
  mem : ∀ fd, fd ∈ opened ↔ 0 < fd ∧ ∃ k, cell k = fd

theorem Held.cell_mem (held : Held cell opened) {k : κ} (lives : 0 < cell k) :
    cell k ∈ opened := (held.mem _).mpr ⟨lives, k, rfl⟩

/-- With no descriptor in a cell, none is open. -/
theorem Held.none_open (held : Held cell opened) (empty : ∀ k, ¬ 0 < cell k) : opened = ∅ := by
  apply Finset.eq_empty_of_forall_notMem
  intro fd member
  obtain ⟨positive, k, rfl⟩ := (held.mem fd).mp member
  exact empty k positive

section Update

variable [DecidableEq κ]

/-- A new descriptor in a cell that kept none. -/
theorem Held.take (held : Held cell opened) {k : κ} {fd : Int} (free : ¬ 0 < cell k)
    (fresh : fd ∉ opened) (positive : 0 < fd) :
    Held (Function.update cell k fd) (insert fd opened) where
  once := by
    have other (l : κ) : cell l ≠ fd := fun same => fresh ((held.mem fd).mpr ⟨positive, l, same⟩)
    intro i j lives same
    by_cases first : i = k
    · subst first
      by_contra apart
      rw [Function.update_self, Function.update_of_ne (Ne.symm apart)] at same
      exact other j same.symm
    · rw [Function.update_of_ne first] at lives same
      by_cases second : j = k
      · subst second
        rw [Function.update_self] at same
        exact absurd same (other i)
      · rw [Function.update_of_ne second] at same
        exact held.once i j lives same
  mem := by
    intro x
    rw [Finset.mem_insert, held.mem]
    constructor
    · rintro (rfl | ⟨lives, l, same⟩)
      · exact ⟨positive, k, Function.update_self ..⟩
      · refine ⟨lives, l, ?_⟩
        have here : l ≠ k := by
          rintro rfl
          exact free (same ▸ lives)
        rwa [Function.update_of_ne here]
    · rintro ⟨lives, l, same⟩
      by_cases here : l = k
      · subst here
        rw [Function.update_self] at same
        exact Or.inl same.symm
      · rw [Function.update_of_ne here] at same
        exact Or.inr ⟨lives, l, same⟩

/-- A cell whose descriptor is closed. -/
theorem Held.drop (held : Held cell opened) {k : κ} {empty : Int} (lives : 0 < cell k)
    (none_ : ¬ 0 < empty) : Held (Function.update cell k empty) (opened.erase (cell k)) where
  once := by
    intro i j here same
    by_cases first : i = k
    · subst first
      rw [Function.update_self] at here
      exact absurd here none_
    · rw [Function.update_of_ne first] at here same
      by_cases second : j = k
      · subst second
        rw [Function.update_self] at same
        omega
      · rw [Function.update_of_ne second] at same
        exact held.once i j here same
  mem := by
    intro x
    rw [Finset.mem_erase, held.mem]
    constructor
    · rintro ⟨other, positive, l, same⟩
      refine ⟨positive, l, ?_⟩
      have here : l ≠ k := by
        rintro rfl
        exact other same.symm
      rwa [Function.update_of_ne here]
    · rintro ⟨positive, l, same⟩
      by_cases here : l = k
      · subst here
        rw [Function.update_self] at same
        omega
      · rw [Function.update_of_ne here] at same
        refine ⟨?_, positive, l, same⟩
        rintro rfl
        exact here (held.once l k (same ▸ positive) same)

end Update

end VnfMonitoring.Handles
