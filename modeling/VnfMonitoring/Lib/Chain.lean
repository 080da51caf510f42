import Mathlib.Data.List.Nodup
import Mathlib.Logic.Function.Basic

set_option autoImplicit false

/- Singly linked lists in a heap: the cells between two pointers, and what stores to
one cell do to the lists around it. -/
namespace VnfMonitoring.Chain

/-- A cell: the pointer to the next one, and what it holds. -/
structure Cell (Addr α : Type) where
  next : Option Addr
  item : α

abbrev Heap (Addr α : Type) := Addr → Option (Cell Addr α)

variable {Addr α : Type}

/-- The cells met from `first` until `stop`, with their addresses. -/
def Segment (heap : Heap Addr α) : Option Addr → List (Addr × α) → Option Addr → Prop
  | first, [], stop => first = stop
  | first, (a, x) :: rest, stop =>
      first = some a ∧ ∃ next, heap a = some ⟨next, x⟩ ∧ Segment heap next rest stop

/-- The addresses of a list of cells. -/
def addrs (cells : List (Addr × α)) : List Addr := cells.map Prod.fst

@[simp] theorem addrs_nil : addrs ([] : List (Addr × α)) = [] := rfl

@[simp] theorem addrs_cons (cell : Addr × α) (cells : List (Addr × α)) :
    addrs (cell :: cells) = cell.1 :: addrs cells := rfl

@[simp] theorem addrs_append (cells others : List (Addr × α)) :
    addrs (cells ++ others) = addrs cells ++ addrs others := List.map_append

@[simp] theorem addrs_length (cells : List (Addr × α)) : (addrs cells).length = cells.length :=
  List.length_map ..

theorem segment_append {heap : Heap Addr α} {cells others : List (Addr × α)}
    {first stop : Option Addr} :
    Segment heap first (cells ++ others) stop ↔
      ∃ middle, Segment heap first cells middle ∧ Segment heap middle others stop := by
  induction cells generalizing first with
  | nil => simp [Segment]
  | cons cell cells ih =>
      simp only [List.cons_append, Segment, ih]
      constructor
      · rintro ⟨here, next, found, middle, one, two⟩
        exact ⟨middle, ⟨here, next, found, one⟩, two⟩
      · rintro ⟨middle, ⟨here, next, found, one⟩, two⟩
        exact ⟨here, next, found, middle, one, two⟩

/-- The last cell of a segment points to where it stops. -/
theorem segment_snoc {heap : Heap Addr α} {cells : List (Addr × α)} {first stop : Option Addr}
    {a : Addr} {x : α} :
    Segment heap first (cells ++ [(a, x)]) stop ↔
      Segment heap first cells (some a) ∧ heap a = some ⟨stop, x⟩ := by
  rw [segment_append]
  constructor
  · rintro ⟨middle, before, rfl, next, found, rfl⟩
    exact ⟨before, found⟩
  · rintro ⟨before, found⟩
    exact ⟨some a, before, rfl, stop, found, rfl⟩

/-- A segment depends on its own cells only. -/
theorem Segment.congr {heap other : Heap Addr α} {cells : List (Addr × α)}
    {first stop : Option Addr} (segment : Segment heap first cells stop)
    (same : ∀ a ∈ addrs cells, other a = heap a) : Segment other first cells stop := by
  induction cells generalizing first with
  | nil => exact segment
  | cons cell cells ih =>
      obtain ⟨here, next, found, rest⟩ := segment
      refine ⟨here, next, (same cell.1 (by simp)).trans found, ih rest fun a member => ?_⟩
      exact same a (by simp [member])

theorem Segment.update [DecidableEq Addr] {heap : Heap Addr α} {cells : List (Addr × α)}
    {first stop : Option Addr} (segment : Segment heap first cells stop) {a : Addr}
    (outside : a ∉ addrs cells) (cell : Option (Cell Addr α)) :
    Segment (Function.update heap a cell) first cells stop := by
  refine segment.congr fun b member => Function.update_of_ne ?_ _ _
  rintro rfl
  exact outside member

theorem Segment.allocated {heap : Heap Addr α} {cells : List (Addr × α)}
    {first stop : Option Addr} (segment : Segment heap first cells stop) :
    ∀ a ∈ addrs cells, heap a ≠ none := by
  induction cells generalizing first with
  | nil => simp
  | cons cell cells ih =>
      obtain ⟨_, next, found, rest⟩ := segment
      intro a member
      rcases List.mem_cons.mp member with rfl | later
      · simp [found]
      · exact ih rest a later

section Build

variable [DecidableEq Addr]

/-- A list of new cells, each pointing to the one behind it. -/
def build (heap : Heap Addr α) : List (Addr × α) → Heap Addr α
  | [] => heap
  | (a, x) :: rest => Function.update (build heap rest) a (some ⟨rest.head?.map Prod.fst, x⟩)

theorem build_outside (heap : Heap Addr α) {cells : List (Addr × α)} {a : Addr}
    (outside : a ∉ addrs cells) : build heap cells a = heap a := by
  induction cells with
  | nil => rfl
  | cons cell cells ih =>
      rw [addrs_cons, List.mem_cons, not_or] at outside
      rw [build, Function.update_of_ne outside.1, ih outside.2]

theorem build_segment (heap : Heap Addr α) {cells : List (Addr × α)}
    (distinct : (addrs cells).Nodup) :
    Segment (build heap cells) (cells.head?.map Prod.fst) cells none := by
  induction cells with
  | nil => rfl
  | cons cell cells ih =>
      obtain ⟨outside, rest⟩ := List.nodup_cons.mp distinct
      exact ⟨rfl, _, Function.update_self .., (ih rest).update outside _⟩

end Build

end VnfMonitoring.Chain
