import VnfMonitoring.Lib.Chain

set_option autoImplicit false

/- Doubly linked lists in a heap, between two ends that are never freed: the nodes between
two pointers, the removal of a node, and the search for one. -/
namespace VnfMonitoring.Dlist

open VnfMonitoring.Chain

/-- A node; no address stands for the end of the list on that side. -/
structure Node (Addr α : Type) where
  next : Option Addr
  prev : Option Addr
  item : α

/-- The nodes, and what the two ends point to. -/
structure NodeList (Addr α : Type) where
  nodes : Addr → Option (Node Addr α)
  first : Option Addr
  last : Option Addr

variable {Addr α : Type}

/-- The nodes met from `first` until `stop`. `prev` is what the first of them points back
to, and `last` is the last of them, or `prev` when there is none. -/
def Segment (nodes : Addr → Option (Node Addr α)) :
    Option Addr → Option Addr → List (Addr × α) → Option Addr → Option Addr → Prop
  | prev, first, [], stop, last => first = stop ∧ prev = last
  | prev, first, (a, x) :: rest, stop, last =>
      first = some a ∧ ∃ next, nodes a = some ⟨next, prev, x⟩ ∧
        Segment nodes (some a) next rest stop last

theorem segment_append {nodes : Addr → Option (Node Addr α)} {cells others : List (Addr × α)}
    {prev first stop last : Option Addr} :
    Segment nodes prev first (cells ++ others) stop last ↔
      ∃ middle back, Segment nodes prev first cells middle back ∧
        Segment nodes back middle others stop last := by
  induction cells generalizing prev first with
  | nil =>
      constructor
      · intro whole
        exact ⟨first, prev, ⟨rfl, rfl⟩, whole⟩
      · rintro ⟨middle, back, ⟨rfl, rfl⟩, whole⟩
        exact whole
  | cons cell cells ih =>
      simp only [List.cons_append, Segment, ih]
      constructor
      · rintro ⟨here, next, found, middle, back, one, two⟩
        exact ⟨middle, back, ⟨here, next, found, one⟩, two⟩
      · rintro ⟨middle, back, ⟨here, next, found, one⟩, two⟩
        exact ⟨here, next, found, middle, back, one, two⟩

theorem Segment.congr {nodes other : Addr → Option (Node Addr α)} {cells : List (Addr × α)}
    {prev first stop last : Option Addr} (segment : Segment nodes prev first cells stop last)
    (same : ∀ a ∈ addrs cells, other a = nodes a) :
    Segment other prev first cells stop last := by
  induction cells generalizing prev first with
  | nil => exact segment
  | cons cell cells ih =>
      obtain ⟨here, next, found, rest⟩ := segment
      refine ⟨here, next, (same cell.1 (by simp)).trans found, ih rest fun a member => ?_⟩
      exact same a (by simp [member])

/-- A segment up to the back end starts at its first node. -/
theorem Segment.first_eq {nodes : Addr → Option (Node Addr α)} {cells : List (Addr × α)}
    {prev first last : Option Addr} (segment : Segment nodes prev first cells none last) :
    first = cells.head?.map Prod.fst := by
  cases cells with
  | nil => exact segment.1
  | cons cell cells => exact segment.1

/-- The nodes are exactly these, linked in this order in both directions. -/
structure Linked (d : NodeList Addr α) (cells : List (Addr × α)) : Prop where
  segment : Segment d.nodes none d.first cells none d.last
  distinct : (addrs cells).Nodup
  only : ∀ a, d.nodes a ≠ none → a ∈ addrs cells

/-- A node of the list is in the heap, and points to the one behind it. -/
theorem Linked.node {d : NodeList Addr α} {before after : List (Addr × α)} {a : Addr} {x : α}
    (linked : Linked d (before ++ (a, x) :: after)) :
    ∃ prev, d.nodes a = some ⟨after.head?.map Prod.fst, prev, x⟩ := by
  obtain ⟨middle, back, _, _, next, found, rest⟩ := segment_append.mp linked.segment
  exact ⟨back, by rw [found, rest.first_eq]⟩

theorem Linked.mem_iff {d : NodeList Addr α} {cells : List (Addr × α)} (linked : Linked d cells)
    {a : Addr} : d.nodes a ≠ none ↔ a ∈ addrs cells := by
  refine ⟨linked.only a, fun member => ?_⟩
  obtain ⟨⟨_, x⟩, inside, rfl⟩ := List.mem_map.mp member
  obtain ⟨before, after, rfl⟩ := List.append_of_mem inside
  obtain ⟨prev, found⟩ := linked.node
  simp [found]

/-- Where a node stands between the others. -/
theorem nodup_middle {before after : List (Addr × α)} {a : Addr} {x : α}
    (distinct : (addrs (before ++ (a, x) :: after)).Nodup) :
    (addrs before).Nodup ∧ (addrs after).Nodup ∧ a ∉ addrs before ∧ a ∉ addrs after ∧
      (∀ b ∈ addrs before, b ∉ addrs after) ∧ (addrs (before ++ after)).Nodup := by
  simp only [addrs_append, addrs_cons] at distinct ⊢
  obtain ⟨front, back, apart⟩ := List.nodup_append.mp distinct
  obtain ⟨outside, back⟩ := List.nodup_cons.mp back
  have disjoint : ∀ b ∈ addrs before, b ∉ addrs after := fun b here there =>
    apart b here b (List.mem_cons_of_mem a there) rfl
  refine ⟨front, back, fun here => apart a here a List.mem_cons_self rfl, outside, disjoint, ?_⟩
  refine List.nodup_append.mpr ⟨front, back, fun b here c there => ?_⟩
  rintro rfl
  exact disjoint b here there

section Update

variable [DecidableEq Addr]

def setNode (d : NodeList Addr α) (a : Addr) (node : Option (Node Addr α)) : NodeList Addr α :=
  { d with nodes := Function.update d.nodes a node }

@[simp] theorem setNode_self (d : NodeList Addr α) (a : Addr) (node : Option (Node Addr α)) :
    (setNode d a node).nodes a = node := Function.update_self ..

theorem setNode_other (d : NodeList Addr α) {a b : Addr} (other : b ≠ a)
    (node : Option (Node Addr α)) : (setNode d a node).nodes b = d.nodes b :=
  Function.update_of_ne other ..

theorem Segment.setNode {d : NodeList Addr α} {cells : List (Addr × α)}
    {prev first stop last : Option Addr} (segment : Segment d.nodes prev first cells stop last)
    {a : Addr} (outside : a ∉ addrs cells) (node : Option (Node Addr α)) :
    Segment (setNode d a node).nodes prev first cells stop last := by
  refine segment.congr fun b member => setNode_other d ?_ node
  rintro rfl
  exact outside member

/-- `p->next = next`, absent when `p` is not in the heap. -/
def setNext (d : NodeList Addr α) (p next : Option Addr) : Option (NodeList Addr α) :=
  match p with
  | none => some { d with first := next }
  | some a => (d.nodes a).map fun node => setNode d a (some { node with next })

/-- `p->prev = prev`, absent when `p` is not in the heap. -/
def setPrev (d : NodeList Addr α) (p prev : Option Addr) : Option (NodeList Addr α) :=
  match p with
  | none => some { d with last := prev }
  | some a => (d.nodes a).map fun node => setNode d a (some { node with prev })

/-- Takes a node out of the list and frees it. -/
def unlink (d : NodeList Addr α) (a : Addr) : Option (NodeList Addr α) :=
  (d.nodes a).bind fun node =>
    (setNext d node.prev node.next).bind fun d =>
      (d.nodes a).bind fun node =>
        (setPrev d node.next node.prev).map fun d => setNode d a none

/-- Changes what a node holds. -/
def setItem (d : NodeList Addr α) (a : Addr) (f : α → α) : Option (NodeList Addr α) :=
  (d.nodes a).map fun node => setNode d a (some { node with item := f node.item })

/-- The front part of a list goes on wherever its last node is made to point. -/
theorem setNext_segment {d : NodeList Addr α} {cells : List (Addr × α)} {stop back : Option Addr}
    (segment : Segment d.nodes none d.first cells stop back) (distinct : (addrs cells).Nodup)
    (next : Option Addr) :
    ∃ d', setNext d back next = some d' ∧ Segment d'.nodes none d'.first cells next back ∧
      d'.last = d.last ∧ ∀ a, a ∉ addrs cells → d'.nodes a = d.nodes a := by
  rcases List.eq_nil_or_concat cells with rfl | ⟨front, ⟨a, x⟩, rfl⟩
  · obtain ⟨_, rfl⟩ := segment
    exact ⟨_, rfl, ⟨rfl, rfl⟩, rfl, fun _ _ => rfl⟩
  · rw [List.concat_eq_append] at segment distinct ⊢
    obtain ⟨middle, prev, before, rfl, _, found, rfl, rfl⟩ := segment_append.mp segment
    have outside : a ∉ addrs front := by
      rw [addrs_append, List.nodup_append] at distinct
      exact fun member => distinct.2.2 a member a (by simp) rfl
    refine ⟨setNode d a (some ⟨next, prev, x⟩), by simp [setNext, found], ?_, rfl, ?_⟩
    · exact segment_append.mpr
        ⟨_, _, before.setNode outside _, rfl, next, setNode_self .., rfl, rfl⟩
    · intro b away
      refine setNode_other d ?_ _
      rintro rfl
      exact away (by simp)

/-- The back part of a list, behind another node. -/
theorem setPrev_segment {d : NodeList Addr α} {cells : List (Addr × α)} {first back : Option Addr}
    (segment : Segment d.nodes back first cells none d.last) (distinct : (addrs cells).Nodup)
    (prev : Option Addr) :
    ∃ d', setPrev d first prev = some d' ∧ Segment d'.nodes prev first cells none d'.last ∧
      d'.first = d.first ∧ ∀ a, a ∉ addrs cells → d'.nodes a = d.nodes a := by
  cases cells with
  | nil =>
      obtain ⟨rfl, _⟩ := segment
      exact ⟨_, rfl, ⟨rfl, rfl⟩, rfl, fun _ _ => rfl⟩
  | cons cell rest =>
      obtain ⟨a, x⟩ := cell
      obtain ⟨rfl, next, found, after⟩ := segment
      have outside : a ∉ addrs rest := (List.nodup_cons.mp distinct).1
      refine ⟨setNode d a (some ⟨next, prev, x⟩), by simp [setPrev, found], ?_, rfl, ?_⟩
      · exact ⟨rfl, next, setNode_self .., after.setNode outside _⟩
      · intro b away
        refine setNode_other d ?_ _
        rintro rfl
        exact away (by simp)

theorem unlink_linked {d : NodeList Addr α} {before after : List (Addr × α)} {a : Addr} {x : α}
    (linked : Linked d (before ++ (a, x) :: after)) :
    ∃ d', unlink d a = some d' ∧ Linked d' (before ++ after) := by
  obtain ⟨front, back, noFront, noBack, apart, distinct⟩ := nodup_middle linked.distinct
  obtain ⟨middle, prev, beforeNodes, rfl, next, found, afterNodes⟩ :=
    segment_append.mp linked.segment
  obtain ⟨d₁, setOne, frontOne, lastOne, sameOne⟩ := setNext_segment beforeNodes front next
  have afterOne : Segment d₁.nodes (some a) next after none d₁.last := by
    rw [lastOne]
    exact afterNodes.congr fun b member => sameOne b fun here => apart b here member
  obtain ⟨d₂, setTwo, backTwo, firstTwo, sameTwo⟩ := setPrev_segment afterOne back prev
  have foundOne : d₁.nodes a = some ⟨next, prev, x⟩ := (sameOne a noFront).trans found
  refine ⟨setNode d₂ a none, ?_, ?_, distinct, ?_⟩
  · simp [unlink, found, setOne, foundOne, setTwo]
  · refine segment_append.mpr ⟨next, prev, ?_, backTwo.setNode noBack none⟩
    have frontTwo : Segment d₂.nodes none d₂.first before next prev := by
      rw [firstTwo]
      exact frontOne.congr fun b member => sameTwo b (apart b member)
    exact frontTwo.setNode noFront none
  · intro b present
    have other : b ≠ a := by
      rintro rfl
      exact present (setNode_self ..)
    rw [setNode_other d₂ other] at present
    by_contra absent
    rw [addrs_append, List.mem_append, not_or] at absent
    rw [sameTwo b absent.2, sameOne b absent.1] at present
    have member := linked.only b present
    rw [addrs_append, addrs_cons, List.mem_append, List.mem_cons] at member
    rcases member with here | same | there
    · exact absent.1 here
    · exact other same
    · exact absent.2 there

theorem setItem_linked {d : NodeList Addr α} {before after : List (Addr × α)} {a : Addr} {x : α}
    (linked : Linked d (before ++ (a, x) :: after)) (f : α → α) :
    ∃ d', setItem d a f = some d' ∧ Linked d' (before ++ (a, f x) :: after) := by
  obtain ⟨_, _, noFront, noBack, _, _⟩ := nodup_middle linked.distinct
  obtain ⟨middle, prev, beforeNodes, rfl, next, found, afterNodes⟩ :=
    segment_append.mp linked.segment
  have sameAddrs : addrs (before ++ (a, f x) :: after) = addrs (before ++ (a, x) :: after) := by
    simp
  refine ⟨setNode d a (some ⟨next, prev, f x⟩), by simp [setItem, found], ?_, ?_, ?_⟩
  · exact segment_append.mpr ⟨some a, prev, beforeNodes.setNode noFront _, rfl, next,
      setNode_self .., afterNodes.setNode noBack _⟩
  · rw [sameAddrs]
    exact linked.distinct
  · intro b present
    rw [sameAddrs]
    by_cases same : b = a
    · simp [same]
    · rw [setNode_other d same] at present
      exact linked.only b present

end Update

/-- The first node from a pointer on whose item satisfies a test. No value when the walk
leaves the heap or the fuel is used up. -/
def find (nodes : Addr → Option (Node Addr α)) (test : α → Bool) :
    Nat → Option Addr → Option (Option Addr)
  | _, none => some none
  | 0, some _ => none
  | fuel + 1, some a =>
      (nodes a).bind fun node => if test node.item then some (some a)
        else find nodes test fuel node.next

theorem find_segment {nodes : Addr → Option (Node Addr α)} (test : α → Bool)
    {cells : List (Addr × α)} {prev first last : Option Addr}
    (segment : Segment nodes prev first cells none last) {fuel : Nat}
    (enough : cells.length ≤ fuel) :
    find nodes test fuel first =
      some ((cells.find? fun cell => test cell.2).map Prod.fst) := by
  induction cells generalizing prev first fuel with
  | nil =>
      obtain ⟨rfl, _⟩ := segment
      unfold find
      rfl
  | cons cell cells ih =>
      obtain ⟨a, x⟩ := cell
      obtain ⟨rfl, next, found, rest⟩ := segment
      cases fuel with
      | zero => exact absurd enough (by simp)
      | succ fuel =>
          rw [find, found, Option.bind_some, List.find?_cons]
          cases passes : test x with
          | true => simp
          | false => simpa [passes] using ih rest (Nat.le_of_succ_le_succ enough)

end VnfMonitoring.Dlist
