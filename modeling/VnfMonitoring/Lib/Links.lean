import Mathlib.Data.List.Chain
import Mathlib.Data.List.Nodup

set_option autoImplicit false

/- Lists through two link functions, one for each direction: the neighbours in such a list,
and what relinking two of them does to it. -/
namespace VnfMonitoring.Links

variable {Addr : Type}

/-- Each address but the last is linked to the one behind it. -/
def Path (link : Addr → Option Addr) (l : List Addr) : Prop :=
  l.IsChain fun a b => link a = some b

theorem Path.step {link : Addr → Option Addr} {front behind : List Addr} {p n : Addr}
    (path : Path link (front ++ p :: n :: behind)) : link p = some n :=
  (List.isChain_append_cons_cons.mp path).2.1

/-- The first step of a path to `stop`. -/
theorem Path.enter {link : Addr → Option Addr} {l : List Addr} {p stop : Addr}
    (path : Path link (p :: (l ++ [stop]))) :
    ∃ first, (l ++ [stop]).head? = some first ∧ link p = some first ∧ Path link (l ++ [stop]) := by
  cases l with
  | nil =>
      obtain ⟨linked, rest⟩ := List.isChain_cons_cons.mp path
      exact ⟨stop, rfl, linked, rest⟩
  | cons a l =>
      obtain ⟨linked, rest⟩ := List.isChain_cons_cons.mp path
      exact ⟨a, rfl, linked, rest⟩

/-- A path only depends on the links of its addresses. -/
theorem Path.congr {link other : Addr → Option Addr} {l : List Addr} (path : Path link l)
    (same : ∀ a ∈ l, other a = link a) : Path other l :=
  List.IsChain.imp_of_mem_imp (fun a _ here _ linked => (same a here).trans linked) path

/-- A path that is cut behind `p` goes on from there wherever `p` is linked to. -/
theorem Path.relink {link other : Addr → Option Addr} {front behind rest : List Addr} {p n m : Addr}
    (path : Path link (front ++ p :: n :: behind)) (here : other p = some m)
    (there : Path other (m :: rest)) (same : ∀ a ∈ front, other a = link a) :
    Path other (front ++ p :: m :: rest) := by
  obtain ⟨before, _, _⟩ := List.isChain_append_cons_cons.mp path
  apply List.isChain_append_cons_cons.mpr
  refine ⟨?_, here, there⟩
  -- the links inside the front part all leave from `front`, none from `p`
  rw [List.isChain_append] at before ⊢
  obtain ⟨inside, _, meets⟩ := before
  refine ⟨Path.congr inside same, List.isChain_singleton p, ?_⟩
  intro a last b first
  rw [same a (List.mem_of_mem_getLast? last)]
  exact meets a last b first

/-- The addresses around one of two neighbours, when none stands twice on the list. -/
theorem same_around {link other : Addr → Option Addr} {front behind : List Addr} {p n : Addr}
    (distinct : (front ++ p :: n :: behind).Nodup)
    (same : ∀ b ∈ front ++ p :: n :: behind, b ≠ p → other b = link b) :
    (∀ b ∈ front, other b = link b) ∧ ∀ b ∈ n :: behind, other b = link b := by
  obtain ⟨_, later, apart⟩ := List.nodup_append.mp distinct
  constructor
  · intro b member
    exact same b (List.mem_append_left _ member) (apart b member p List.mem_cons_self)
  · intro b member
    apply same b (List.mem_append_right _ (List.mem_cons_of_mem _ member))
    intro equal
    exact (List.nodup_cons.mp later).1 (equal ▸ member)

theorem nodup_between {front behind : List Addr} {p a n : Addr} :
    (front ++ p :: a :: n :: behind).Nodup ↔
      a ∉ front ++ p :: n :: behind ∧ (front ++ p :: n :: behind).Nodup := by
  have inner (rest : List Addr) : front ++ p :: rest = (front ++ [p]) ++ rest := by simp
  rw [inner (a :: n :: behind), inner (n :: behind), List.nodup_middle, List.nodup_cons]

/-- The first address of the front part and the last one of the back part, when `p` and `n`
stand where they meet. -/
theorem nodup_ends {front behind start rest : List Addr} {first last p n : Addr}
    (distinct : (front ++ p :: n :: behind).Nodup) (frontEq : first :: start = front ++ [p])
    (behindEq : rest ++ [last] = n :: behind) : first ≠ n ∧ last ≠ p ∧ p ≠ n := by
  have split : front ++ p :: n :: behind = (first :: start) ++ (rest ++ [last]) := by
    simp [frontEq, behindEq]
  have nMember : n ∈ rest ++ [last] := behindEq ▸ List.mem_cons_self
  have pMember : p ∈ first :: start := frontEq ▸ by simp
  rw [split] at distinct
  have apart := (List.nodup_append.mp distinct).2.2
  refine ⟨apart first List.mem_cons_self n nMember, ?_, apart p pMember n nMember⟩
  exact (apart p pMember last (by simp)).symm

section Path

variable {link other : Addr → Option Addr} {front behind : List Addr} {p a n : Addr}

/-- A new address between two neighbours; the other links stay. -/
theorem Path.insert (path : Path link (front ++ p :: n :: behind))
    (distinct : (front ++ p :: n :: behind).Nodup) (here : other p = some a)
    (there : other a = some n)
    (same : ∀ b ∈ front ++ p :: n :: behind, b ≠ p → other b = link b) :
    Path other (front ++ p :: a :: n :: behind) := by
  obtain ⟨before, after⟩ := same_around distinct same
  have rest : Path link (n :: behind) := (List.isChain_append_cons_cons.mp path).2.2
  apply path.relink here _ before
  exact List.isChain_cons_cons.mpr ⟨there, rest.congr after⟩

/-- An address taken out from between its neighbours; the other links stay. -/
theorem Path.remove (path : Path link (front ++ p :: a :: n :: behind))
    (distinct : (front ++ p :: n :: behind).Nodup) (here : other p = some n)
    (same : ∀ b ∈ front ++ p :: n :: behind, b ≠ p → other b = link b) :
    Path other (front ++ p :: n :: behind) := by
  obtain ⟨before, after⟩ := same_around distinct same
  have rest : Path link (a :: n :: behind) := (List.isChain_append_cons_cons.mp path).2.2
  apply path.relink here _ before
  exact Path.congr (List.isChain_cons_cons.mp rest).2 after

end Path

/-- Neighbours are linked to each other: one way by `next`, and back by `prev`. -/
structure Linked (next prev : Addr → Option Addr) (l : List Addr) : Prop where
  forward : Path next l
  backward : Path prev l.reverse

theorem reverse_two (front behind : List Addr) (p n : Addr) :
    (front ++ p :: n :: behind).reverse = behind.reverse ++ n :: p :: front.reverse := by
  simp

theorem reverse_three (front behind : List Addr) (p a n : Addr) :
    (front ++ p :: a :: n :: behind).reverse =
      behind.reverse ++ n :: a :: p :: front.reverse := by
  simp

section Linked

variable {next prev next' prev' : Addr → Option Addr} {front behind : List Addr} {p a n : Addr}

theorem Linked.neighbours (linked : Linked next prev (front ++ p :: n :: behind)) :
    next p = some n ∧ prev n = some p := by
  have backward := linked.backward
  rw [reverse_two] at backward
  exact ⟨linked.forward.step, backward.step⟩

theorem Linked.neighbours_first (linked : Linked next prev (p :: n :: behind)) :
    next p = some n ∧ prev n = some p := by
  have whole : Linked next prev ([] ++ p :: n :: behind) := linked
  exact whole.neighbours

theorem Linked.tail {l : List Addr} (linked : Linked next prev (p :: l)) : Linked next prev l := by
  have backward := linked.backward
  rw [List.reverse_cons] at backward
  exact ⟨List.IsChain.tail linked.forward, List.IsChain.left_of_append backward⟩

/-- The list read from its other end. -/
theorem same_reverse (distinct : (front ++ p :: n :: behind).Nodup)
    (same : ∀ b ∈ front ++ p :: n :: behind, b ≠ n → prev' b = prev b) :
    (behind.reverse ++ n :: p :: front.reverse).Nodup ∧
      ∀ b ∈ behind.reverse ++ n :: p :: front.reverse, b ≠ n → prev' b = prev b := by
  rw [← reverse_two]
  refine ⟨List.nodup_reverse.mpr distinct, ?_⟩
  intro b member
  exact same b (List.mem_reverse.mp member)

/-- The four links of an insertion. -/
theorem Linked.insert (linked : Linked next prev (front ++ p :: n :: behind))
    (distinct : (front ++ p :: n :: behind).Nodup) (toNew : next' p = some a)
    (fromNew : next' a = some n) (backNew : prev' n = some a) (backFrom : prev' a = some p)
    (nextSame : ∀ b ∈ front ++ p :: n :: behind, b ≠ p → next' b = next b)
    (prevSame : ∀ b ∈ front ++ p :: n :: behind, b ≠ n → prev' b = prev b) :
    Linked next' prev' (front ++ p :: a :: n :: behind) := by
  have backward := linked.backward
  rw [reverse_two] at backward
  obtain ⟨reversed, kept⟩ := same_reverse distinct prevSame
  refine ⟨linked.forward.insert distinct toNew fromNew nextSame, ?_⟩
  rw [reverse_three]
  exact backward.insert reversed backNew backFrom kept

/-- The two links of a removal. -/
theorem Linked.remove (linked : Linked next prev (front ++ p :: a :: n :: behind))
    (distinct : (front ++ p :: n :: behind).Nodup) (skips : next' p = some n)
    (back : prev' n = some p)
    (nextSame : ∀ b ∈ front ++ p :: n :: behind, b ≠ p → next' b = next b)
    (prevSame : ∀ b ∈ front ++ p :: n :: behind, b ≠ n → prev' b = prev b) :
    Linked next' prev' (front ++ p :: n :: behind) := by
  have backward := linked.backward
  rw [reverse_three] at backward
  obtain ⟨reversed, kept⟩ := same_reverse distinct prevSame
  refine ⟨linked.forward.remove distinct skips nextSame, ?_⟩
  rw [reverse_two]
  exact backward.remove reversed back kept

end Linked

end VnfMonitoring.Links
