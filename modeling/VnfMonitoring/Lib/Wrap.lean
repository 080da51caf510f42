import Mathlib.Data.Int.Order.Basic

set_option autoImplicit false

/- Comparisons of integers through their balanced residues, as a machine compares signed
words: `Int.bdiv` is the window of a number and `Int.bmod` its place there. -/
namespace VnfMonitoring.Wrap

variable {size : Nat} {left right : Int}

/-- The residues are ordered as the numbers are: in one window always, in two windows
when the residues happen to be ordered as the windows. -/
def OrderKept (size : Nat) (left right : Int) : Prop :=
  left.bdiv size = right.bdiv size ∨
    (left.bdiv size < right.bdiv size ∧ left.bmod size < right.bmod size) ∨
    (right.bdiv size < left.bdiv size ∧ right.bmod size ≤ left.bmod size)

instance (size : Nat) (left right : Int) : Decidable (OrderKept size left right) :=
  inferInstanceAs (Decidable (_ ∨ _))

/-- A number of a lower window is smaller. -/
theorem lt_of_bdiv_lt (positive : 0 < size) (lower : left.bdiv size < right.bdiv size) :
    left < right := by
  have leftSum := Int.bdiv_add_bmod left size
  have rightSum := Int.bdiv_add_bmod right size
  have high := Int.bmod_lt (x := left) positive
  have low := Int.le_bmod (x := right) positive
  have windows : (size : Int) * (left.bdiv size + 1) ≤ size * right.bdiv size := by
    apply Int.mul_le_mul_of_nonneg_left
    · exact lower
    · omega
  rw [Int.mul_add, Int.mul_one] at windows
  omega

theorem bmod_lt_iff_of_bdiv_eq (same : left.bdiv size = right.bdiv size) :
    left.bmod size < right.bmod size ↔ left < right := by
  have leftSum := Int.bdiv_add_bmod left size
  have rightSum := Int.bdiv_add_bmod right size
  rw [same] at leftSum
  omega

/-- The comparison of the residues is right exactly when their order is kept. -/
theorem bmod_lt_exact (positive : 0 < size) :
    (left.bmod size < right.bmod size ↔ left < right) ↔ OrderKept size left right := by
  unfold OrderKept
  rcases Int.lt_trichotomy (left.bdiv size) (right.bdiv size) with lower | same | higher
  · have less := lt_of_bdiv_lt positive lower
    omega
  · exact iff_of_true (bmod_lt_iff_of_bdiv_eq same) (Or.inl same)
  · have greater := lt_of_bdiv_lt positive higher
    omega

section Progress

variable {half : Nat} {first last limit : Int}

theorem bmod_of_lt_half (value : Int) (nonneg : 0 ≤ value) (small : value < half) :
    value.bmod (2 * half) = value := by
  apply Int.bmod_eq_of_le_mul_two
  · omega
  · push_cast
    omega

theorem bmod_half (positive : 0 < half) : (half : Int).bmod (2 * half) = -half := by
  rw [Int.bmod_def, Int.emod_eq_of_lt (by omega) (by omega), if_neg (by push_cast; omega)]
  push_cast
  omega

/-- A number grows up to `last`. Its residue passes that of a limit at the right moment
exactly when neither leaves the first window, or the residue of the limit is not
reached. -/
theorem passes_exact (start : 0 ≤ first) (inside : first < half) (grows : first ≤ last)
    (nonneg : 0 ≤ limit) (below : limit.bmod (2 * half) ≠ half - 1) :
    (∀ value, first ≤ value → value ≤ last →
        (limit.bmod (2 * half) < value.bmod (2 * half) ↔ limit < value)) ↔
      last < half ∧ (limit < half ∨ last ≤ limit.bmod (2 * half)) := by
  have bound := Int.bmod_lt (x := limit) (m := 2 * half) (by omega)
  have low := Int.le_bmod (x := limit) (m := 2 * half) (by omega)
  push_cast at bound low
  constructor
  · intro right
    have short : last < half := by
      by_contra long
      have before := right (half - 1) (by omega) (by omega)
      have wrapped := right half (by omega) (by omega)
      rw [bmod_of_lt_half (half - 1) (by omega) (by omega)] at before
      rw [bmod_half (by omega)] at wrapped
      omega
    refine ⟨short, ?_⟩
    by_contra none
    have reached := right last grows le_rfl
    rw [bmod_of_lt_half last (by omega) short] at reached
    omega
  · rintro ⟨short, limited⟩ value from_ upto
    rw [bmod_of_lt_half value (by omega) (by omega)]
    rcases lt_or_ge limit (half : Int) with small | large
    · rw [bmod_of_lt_half limit nonneg small]
    · omega

end Progress

end VnfMonitoring.Wrap
