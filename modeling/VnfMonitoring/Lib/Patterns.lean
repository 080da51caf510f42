import Mathlib.Data.List.Forall2
import Mathlib.Data.List.Infix

set_option autoImplicit false

/- Searching a text for a pattern in which one symbol stands for any symbol. -/
namespace VnfMonitoring.Patterns

variable {α : Type}

/-- The texts that a pattern stands for. -/
def Stands (any : α) : List α → List α → Prop :=
  List.Forall₂ fun p c => p = any ∨ p = c

/-- A pattern without the symbol stands for itself. -/
theorem stands_plain {any : α} {pattern window : List α} (plain : any ∉ pattern) :
    Stands any pattern window ↔ pattern = window := by
  constructor
  · intro stands
    induction stands with
    | nil => rfl
    | @cons p c pattern window here _ ih =>
        rw [List.mem_cons, not_or] at plain
        have same : p = c := here.resolve_left (Ne.symm plain.1)
        rw [same, ih plain.2]
  · rintro rfl
    exact List.forall₂_same.mpr fun _ _ => Or.inr rfl

variable [DecidableEq α] (any : α)

/-- A text begins with one of them. -/
def headed : List α → List α → Bool
  | [], _ => true
  | _ :: _, [] => false
  | p :: pattern, c :: text => decide (p = any ∨ p = c) && headed pattern text

/-- One of them is somewhere in a text. -/
def occurs (pattern : List α) : List α → Bool
  | [] => headed any pattern []
  | c :: text => headed any pattern (c :: text) || occurs pattern text

/-- A text ends with one of them. -/
def ends (pattern text : List α) : Bool :=
  decide (pattern.length ≤ text.length) &&
    headed any pattern (text.drop (text.length - pattern.length))

section Rules

variable {any} {pattern text : List α}

theorem headed_iff :
    headed any pattern text = true ↔
      ∃ window behind, text = window ++ behind ∧ Stands any pattern window := by
  induction pattern generalizing text with
  | nil => exact iff_of_true rfl ⟨[], text, rfl, .nil⟩
  | cons p pattern ih =>
      constructor
      · intro found
        cases text with
        | nil => cases found
        | cons c text =>
            rw [headed, Bool.and_eq_true, decide_eq_true_eq, ih] at found
            obtain ⟨here, window, behind, rfl, stands⟩ := found
            exact ⟨c :: window, behind, rfl, .cons here stands⟩
      · intro found
        obtain ⟨_, behind, rfl, stands⟩ := found
        cases stands with
        | @cons _ c _ window here stands =>
            rw [List.cons_append, headed, Bool.and_eq_true, decide_eq_true_eq, ih]
            exact ⟨here, window, behind, rfl, stands⟩

theorem occurs_iff :
    occurs any pattern text = true ↔
      ∃ front window behind, text = front ++ window ++ behind ∧ Stands any pattern window := by
  induction text with
  | nil =>
      rw [occurs, headed_iff]
      constructor
      · intro found
        obtain ⟨window, behind, same, stands⟩ := found
        exact ⟨[], window, behind, same, stands⟩
      · intro found
        obtain ⟨front, window, behind, same, stands⟩ := found
        obtain ⟨nothing, rfl⟩ := List.append_eq_nil_iff.mp same.symm
        obtain ⟨rfl, rfl⟩ := List.append_eq_nil_iff.mp nothing
        exact ⟨[], [], rfl, stands⟩
  | cons c text ih =>
      rw [occurs, Bool.or_eq_true, headed_iff, ih]
      constructor
      · intro found
        rcases found with ⟨window, behind, same, stands⟩ | ⟨front, window, behind, rfl, stands⟩
        · exact ⟨[], window, behind, same, stands⟩
        · exact ⟨c :: front, window, behind, rfl, stands⟩
      · intro found
        obtain ⟨front, window, behind, same, stands⟩ := found
        cases front with
        | nil => exact Or.inl ⟨window, behind, same, stands⟩
        | cons d front =>
            obtain ⟨rfl, rest⟩ := List.cons.inj same
            exact Or.inr ⟨front, window, behind, rest, stands⟩

theorem ends_iff :
    ends any pattern text = true ↔ ∃ front window, text = front ++ window ∧
      Stands any pattern window := by
  rw [ends, Bool.and_eq_true, decide_eq_true_eq, headed_iff]
  constructor
  · intro found
    obtain ⟨fits, window, behind, last, stands⟩ := found
    have none_ : behind = [] := by
      have length := congrArg List.length last
      rw [List.length_drop, List.length_append, ← stands.length_eq] at length
      exact List.eq_nil_of_length_eq_zero (by omega)
    rw [none_, List.append_nil] at last
    exact ⟨text.take (text.length - pattern.length), window, by rw [← last, List.take_append_drop],
      stands⟩
  · intro found
    obtain ⟨front, window, rfl, stands⟩ := found
    have length := stands.length_eq
    refine ⟨by rw [List.length_append]; omega, window, [], ?_, stands⟩
    rw [List.append_nil, List.length_append, length, Nat.add_sub_cancel, List.drop_left]

/-- A plain pattern is searched for as it is. -/
theorem occurs_plain (plain : any ∉ pattern) : occurs any pattern text = true ↔
    pattern <:+: text := by
  rw [occurs_iff]
  constructor
  · intro found
    obtain ⟨front, window, behind, rfl, stands⟩ := found
    rw [(stands_plain plain).mp stands]
    exact ⟨front, behind, rfl⟩
  · intro found
    obtain ⟨front, behind, rfl⟩ := found
    exact ⟨front, pattern, behind, rfl, (stands_plain plain).mpr rfl⟩

end Rules

end VnfMonitoring.Patterns
