import Mathlib.Data.List.Chain
import Mathlib.Data.List.Count
import Mathlib.Order.Lattice

set_option autoImplicit false

/- A loop that looks at a clock and keeps one flag: a moment of a certain kind acts, unless
the moment before was of that kind too. -/
namespace VnfMonitoring.Pulses

variable {κ : Type} (kind : κ → Bool)

/-- The moments that act. The flag is up when the moment before was of the kind. -/
def pulses : Bool → List κ → List κ
  | _, [] => []
  | flag, x :: rest =>
      if kind x then
        if flag then pulses true rest else x :: pulses true rest
      else pulses false rest

/-- Each moment of the kind acts once if it is seen at all, and no other moment acts. -/
def OncePerMoment [DecidableEq κ] (moments acted : List κ) : Prop :=
  ∀ k, acted.count k = if kind k = true ∧ k ∈ moments then 1 else 0

/-- No two different moments of the kind are seen one right after the other. -/
def Separated (moments : List κ) : Prop :=
  moments.IsChain fun a b => kind a = true → kind b = true → a = b

instance [DecidableEq κ] (moments : List κ) : Decidable (Separated kind moments) :=
  inferInstanceAs (Decidable (List.IsChain _ _))

theorem pulses_other {x : κ} (other : kind x = false) (flag : Bool) (rest : List κ) :
    pulses kind flag (x :: rest) = pulses kind false rest := by
  simp [pulses, other]

theorem pulses_again {x : κ} (here : kind x = true) (rest : List κ) :
    pulses kind true (x :: rest) = pulses kind true rest := by
  simp [pulses, here]

theorem pulses_fresh {x : κ} (here : kind x = true) (rest : List κ) :
    pulses kind false (x :: rest) = x :: pulses kind true rest := by
  simp [pulses, here]

theorem mem_of_mem_pulses {flag : Bool} {l : List κ} {k : κ} (acted : k ∈ pulses kind flag l) :
    k ∈ l := by
  induction l generalizing flag with
  | nil => exact acted
  | cons x rest ih =>
      unfold pulses at acted
      split at acted
      · split at acted
        · exact List.mem_cons_of_mem _ (ih acted)
        · rcases List.mem_cons.mp acted with here | later
          · exact here ▸ List.mem_cons_self
          · exact List.mem_cons_of_mem _ (ih later)
      · exact List.mem_cons_of_mem _ (ih acted)

/-- What follows a moment does not depend on what came before it. -/
theorem pulses_append (flag : Bool) (front : List κ) (p : κ) (rest : List κ) :
    pulses kind flag (front ++ p :: rest) =
      pulses kind flag (front ++ [p]) ++ pulses kind (kind p) rest := by
  induction front generalizing flag with
  | nil =>
      simp only [List.nil_append, pulses]
      cases kind p <;> cases flag <;> rfl
  | cons x front ih =>
      simp only [List.cons_append, pulses]
      split
      · split
        · exact ih true
        · rw [ih, List.cons_append]
      · exact ih false

section Sorted

variable [LinearOrder κ]

/-- While the flag stays up, the moment that comes first does not act. -/
theorem count_pulses_up {l : List κ} {k : κ} (sorted : l.Pairwise (· ≤ ·))
    (first : ∀ x ∈ l, k ≤ x) (some_ : kind k = true) : (pulses kind true l).count k = 0 := by
  induction l with
  | nil => rfl
  | cons x rest ih =>
      rw [List.pairwise_cons] at sorted
      rw [List.forall_mem_cons] at first
      by_cases same : x = k
      · subst same
        rw [pulses_again kind some_]
        exact ih sorted.2 first.2
      · apply List.count_eq_zero_of_not_mem
        intro acted
        rcases List.mem_cons.mp (mem_of_mem_pulses kind acted) with here | later
        · exact same here.symm
        · exact same (le_antisymm (sorted.1 k later) first.1)

/-- Each moment of the kind acts once, unless it is the one seen before. -/
theorem count_pulses (previous : Option κ) {rest : List κ} (sorted : rest.Pairwise (· ≤ ·))
    (before : ∀ p ∈ previous, ∀ x ∈ rest, p ≤ x) (separated : Separated kind rest)
    (apart : ∀ p ∈ previous, ∀ x ∈ rest.head?, kind p = true → kind x = true → p = x) (k : κ) :
    (pulses kind (previous.any kind) rest).count k =
      if kind k = true ∧ k ∈ rest ∧ k ∉ previous then 1 else 0 := by
  induction rest generalizing previous with
  | nil => simp [pulses]
  | cons x rest ih =>
      obtain ⟨after, sorted⟩ := List.pairwise_cons.mp sorted
      obtain ⟨chain, later⟩ := List.isChain_cons.mp separated
      have next := ih (some x) sorted (by simpa using after) later (by simpa using chain)
      simp only [Option.any_some, Option.mem_some_iff] at next
      have first (p : κ) (here : p ∈ previous) : p ≤ x := before p here x List.mem_cons_self
      -- past `x`, only `x` itself can still be the one before
      have moved (other : ¬ x = k) (member : k ∈ rest) : k ∉ previous := fun here =>
        other (le_antisymm (after k member) (first k here))
      by_cases here : kind x = true
      · rw [here] at next
        by_cases up : previous.any kind = true
        · obtain ⟨p, held, some_⟩ := (Option.any_eq_true _ _).mp up
          have same : p = x := apart p held x rfl some_ here
          subst same
          rw [up, pulses_again kind here, next, held]
          apply if_congr _ rfl rfl
          rw [List.mem_cons, Option.mem_some_iff]
          constructor
          · rintro ⟨some_, member, other⟩
            exact ⟨some_, Or.inr member, other⟩
          · rintro ⟨some_, first | member, other⟩
            · exact absurd first.symm other
            · exact ⟨some_, member, other⟩
        · have fresh : x ∉ previous := fun held =>
            up ((Option.any_eq_true _ _).mpr ⟨x, held, here⟩)
          rw [Bool.eq_false_iff.mpr up, pulses_fresh kind here]
          by_cases same : k = x
          · subst same
            rw [List.count_cons_self, next, if_neg fun all => all.2.2 rfl,
              if_pos ⟨here, List.mem_cons_self, fresh⟩]
          · rw [List.count_cons_of_ne fun equal => same equal.symm, next]
            apply if_congr _ rfl rfl
            rw [List.mem_cons]
            constructor
            · rintro ⟨some_, member, other⟩
              exact ⟨some_, Or.inr member, moved other member⟩
            · rintro ⟨some_, equal | member, _⟩
              · exact absurd equal same
              · exact ⟨some_, member, fun equal => same equal.symm⟩
      · have down : kind x = false := Bool.eq_false_iff.mpr here
        rw [down] at next
        rw [pulses_other kind down, next]
        apply if_congr _ rfl rfl
        rw [List.mem_cons]
        constructor
        · rintro ⟨some_, member, other⟩
          exact ⟨some_, Or.inr member, moved other member⟩
        · rintro ⟨some_, same | member, _⟩
          · exact absurd (same ▸ some_) here
          · refine ⟨some_, member, ?_⟩
            rintro rfl
            exact here some_

/-- Two different moments of the kind, seen one right after the other: the second never acts. -/
theorem count_pulses_skipped {front behind : List κ} {a b : κ}
    (sorted : (front ++ a :: b :: behind).Pairwise (· ≤ ·)) (one : kind a = true)
    (two : kind b = true) (apart : a ≠ b) :
    (pulses kind false (front ++ a :: b :: behind)).count b = 0 := by
  obtain ⟨_, later, across⟩ := List.pairwise_append.mp sorted
  rw [List.pairwise_cons] at later
  have ab : a ≤ b := later.1 b List.mem_cons_self
  rw [pulses_append, List.count_append, one]
  have earlier : (pulses kind false (front ++ [a])).count b = 0 := by
    apply List.count_eq_zero_of_not_mem
    intro acted
    rcases List.mem_append.mp (mem_of_mem_pulses kind acted) with inside | last
    · exact apart (le_antisymm ab (across b inside a List.mem_cons_self))
    · exact apart (List.mem_singleton.mp last).symm
  have after : (pulses kind true (b :: behind)).count b = 0 := by
    apply count_pulses_up kind later.2 _ two
    intro x member
    rcases List.mem_cons.mp member with here | inside
    · exact here ▸ le_refl _
    · exact (List.pairwise_cons.mp later.2).1 x inside
  rw [earlier, after]

/-- The loop acts once for each moment of the kind exactly when it never sees two different
ones in a row. -/
theorem oncePerMoment_iff {moments : List κ} (sorted : moments.Pairwise (· ≤ ·)) :
    OncePerMoment kind moments (pulses kind false moments) ↔ Separated kind moments := by
  constructor
  · intro once
    apply List.isChain_iff_forall_rel_of_append_cons_cons.mpr
    intro a b front behind split one two
    by_contra apart
    have count := once b
    rw [split] at sorted count
    rw [count_pulses_skipped kind sorted one two apart,
      if_pos ⟨two, by simp⟩] at count
    omega
  · intro separated k
    have count := count_pulses kind none sorted (by simp) separated (by simp) k
    rw [Option.any_none] at count
    rw [count]
    simp

end Sorted

end VnfMonitoring.Pulses
