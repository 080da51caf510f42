import Mathlib.Data.List.Basic

set_option autoImplicit false

/- A queue that hands out its elements in the order in which they were put: what is taken
from it, and what has to be taken before an element that is put. -/
namespace VnfMonitoring.Queue

variable {α : Type}

inductive Op (α : Type) where
  | take
  | put (x : α)

/-- The queue after an operation; nothing is taken from an empty one. -/
def step (queue : List α) : Op α → List α
  | .take => queue.tail
  | .put x => queue ++ [x]

def after (queue : List α) (ops : List (Op α)) : List α := ops.foldl step queue

/-- The elements that are taken, in order. -/
def taken : List α → List (Op α) → List α
  | _, [] => []
  | queue, .take :: ops => queue.head?.toList ++ taken queue.tail ops
  | queue, .put x :: ops => taken (queue ++ [x]) ops

/-- The elements that are put. -/
def puts : List (Op α) → List α
  | [] => []
  | .take :: ops => puts ops
  | .put x :: ops => x :: puts ops

@[simp] theorem after_nil (queue : List α) : after queue [] = queue := rfl

@[simp] theorem after_cons (queue : List α) (op : Op α) (ops : List (Op α)) :
    after queue (op :: ops) = after (step queue op) ops := rfl

/-- Nothing is lost and nothing overtakes. -/
theorem taken_append_after (queue : List α) (ops : List (Op α)) :
    taken queue ops ++ after queue ops = queue ++ puts ops := by
  induction ops generalizing queue with
  | nil => simp [taken, puts]
  | cons op ops ih =>
      cases op with
      | put x =>
          rw [taken, after_cons, step, ih, puts]
          simp
      | take =>
          rw [taken, after_cons, step, List.append_assoc, ih, puts, ← List.append_assoc]
          cases queue <;> rfl

/-- An element that is put behind others is taken only after them. -/
theorem prefix_taken {queue : List α} {x : α} {ops : List (Op α)} (new : x ∉ queue)
    (out : x ∈ taken (queue ++ [x]) ops) : queue ++ [x] <+: taken (queue ++ [x]) ops := by
  have whole := taken_append_after (queue ++ [x]) ops
  have first : queue ++ [x] <+: queue ++ [x] ++ puts ops := List.prefix_append _ _
  have second : taken (queue ++ [x]) ops <+: queue ++ [x] ++ puts ops :=
    ⟨after (queue ++ [x]) ops, whole⟩
  apply List.prefix_of_prefix_length_le first second
  by_contra short
  rw [List.length_append, List.length_singleton] at short
  have front : queue <+: queue ++ [x] ++ puts ops := by
    rw [List.append_assoc]
    exact List.prefix_append _ _
  have inside := List.prefix_of_prefix_length_le second front (by omega)
  exact new (inside.subset out)

end VnfMonitoring.Queue
