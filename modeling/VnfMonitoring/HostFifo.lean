import Mathlib.Data.Fintype.Card
import VnfMonitoring.HostReport
import VnfMonitoring.Lib.Chain
import VnfMonitoring.Lib.Runs

set_option autoImplicit false

/- The queue of `host_fifo.c` between `tcp_rcvTask` and `fifo_getTask`, down to its
pointers. Its locked sections are atomic. -/
namespace VnfMonitoring.HostFifo

open VnfMonitoring.Chain VnfMonitoring.Runs VnfMonitoring.HostReport

variable {space : Nat}

/-- `pp_last`: the address of `p_first`, or of the `p_next` of a block. -/
inductive PpLast (space : Nat) where
  | first
  | next (block : Fin space)
  deriving DecidableEq, Repr

/-- `block_fifo_t`, its lock and condition variable apart. -/
structure BlockFifo (space : Nat) where
  iDepth : Int32
  pFirst : Option (Fin space)
  ppLast : PpLast space
  iSize : Int32
  deriving DecidableEq, Repr

/-- The blocks in memory: their `p_next` and what else they hold. -/
abbrev BlockHeap (space : Nat) := Heap (Fin space) Block

def blockFifoNew : BlockFifo space := ⟨0, none, .first, 0⟩

/-- `*p_fifo->pp_last = p_block`. -/
def storeLast (heap : BlockHeap space) (fifo : BlockFifo space) (pBlock : Fin space) :
    Option (BlockHeap space × BlockFifo space) :=
  match fifo.ppLast with
  | .first => some (heap, { fifo with pFirst := some pBlock })
  | .next block => (heap block).map fun cell =>
      (Function.update heap block (some { cell with next := some pBlock }), fifo)

/-- One round of the loop of `block_FifoPut`: its `i_size` and `p_block` afterwards. -/
def putBlock (heap : BlockHeap space) (fifo : BlockFifo space) (iSize : Int32)
    (pBlock : Fin space) :
    Option (BlockHeap space × BlockFifo space × Int32 × Option (Fin space)) :=
  (heap pBlock).bind fun cell =>
    let iSize := iSize + Int32.ofNat cell.item.msgsize.toNat
    (storeLast heap fifo pBlock).bind fun (heap, fifo) =>
      (heap pBlock).map fun cell =>
        let fifo : BlockFifo space :=
          { fifo with
            ppLast := .next pBlock
            iDepth := fifo.iDepth + 1
            iSize := fifo.iSize + Int32.ofNat cell.item.msgsize.toNat }
        (heap, fifo, iSize, cell.next)

/-- The loop; no chain is longer than the memory. -/
def putLoop : Nat → BlockHeap space → BlockFifo space → Int32 → Fin space →
    Option (BlockHeap space × BlockFifo space × Int32)
  | 0, _, _, _, _ => none
  | rounds + 1, heap, fifo, iSize, pBlock =>
      (putBlock heap fifo iSize pBlock).bind fun (heap, fifo, iSize, pNext) =>
        match pNext with
        | none => some (heap, fifo, iSize)
        | some pBlock => putLoop rounds heap fifo iSize pBlock

/-- `block_FifoPut`. -/
def blockFifoPut (heap : BlockHeap space) (fifo : BlockFifo space) (pBlock : Fin space) :
    Option (BlockHeap space × BlockFifo space × Int32) :=
  putLoop space heap fifo 0 pBlock

/-- The rest of the locked section of `block_FifoGet`, once the queue is not empty. -/
def takeFirst (heap : BlockHeap space) (fifo : BlockFifo space) :
    Option (BlockFifo space × Fin space × Block) :=
  fifo.pFirst.bind fun b =>
  (heap b).map fun cell =>
    let fifo : BlockFifo space :=
      { fifo with
        pFirst := cell.next
        iDepth := fifo.iDepth - 1
        iSize := fifo.iSize - Int32.ofNat cell.item.msgsize.toNat }
    (if fifo.pFirst = none then { fifo with ppLast := .first } else fifo, b, cell.item)

/-- The loop of `block_FifoEmpty`. -/
def emptyLoop : Nat → BlockHeap space → Option (Fin space) → Option (BlockHeap space)
  | _, heap, none => some heap
  | 0, _, some _ => none
  | rounds + 1, heap, some b =>
      (heap b).bind fun cell => emptyLoop rounds (Function.update heap b none) cell.next

/-- `block_FifoEmpty`. -/
def blockFifoEmpty (heap : BlockHeap space) (fifo : BlockFifo space) :
    Option (BlockHeap space × BlockFifo space) :=
  (emptyLoop space heap fifo.pFirst).map fun heap => (heap, blockFifoNew)

/-- Where `fifo_getTask` stands: outside `block_FifoGet`, in its timed wait, past its
locked section, or with the block it returned. -/
inductive Consumer (space : Nat) where
  | idle
  | waiting
  | unlinked (b : Fin space)
  | returned (b : Fin space)
  deriving DecidableEq, Repr

/-- The queue with its users, and what was put and got since it was last emptied. -/
structure FifoSystem (space : Nat) where
  heap : BlockHeap space
  fifo : BlockFifo space
  consumer : Consumer space
  put : List (Fin space × Block)
  got : List (Fin space × Block)

def FifoSystem.init : FifoSystem space := ⟨fun _ => none, blockFifoNew, .idle, [], []⟩

inductive FifoEvent (space : Nat) where
  /-- A producer puts a chain of blocks it has just allocated. -/
  | put (first : Fin space × Block) (rest : List (Fin space × Block))
  | get
  /-- The wait ends, with 0 or with an error. -/
  | wake (ok : Bool)
  /-- `b->p_next = NULL`, past the lock. -/
  | clearNext
  /-- `block_Release` of the block got. -/
  | release
  | empty

/-- What the events assume: new blocks are at addresses of their own that were free,
and a wait returns 0 only when there is a block. -/
def Enabled (s : FifoSystem space) : FifoEvent space → Prop
  | .put first rest => (addrs (first :: rest)).Nodup ∧
      ∀ a ∈ addrs (first :: rest), (s.heap a).isNone = true
  | .get => s.consumer = .idle
  | .wake ok => s.consumer = .waiting ∧ (ok = true → s.fifo.pFirst ≠ none)
  | .clearNext => ∃ b, s.consumer = .unlinked b
  | .release => ∃ b, s.consumer = .returned b
  | .empty => True

instance (s : FifoSystem space) : (event : FifoEvent space) → Decidable (Enabled s event)
  | .put first rest => inferInstanceAs (Decidable ((addrs (first :: rest)).Nodup ∧
      ∀ a ∈ addrs (first :: rest), (s.heap a).isNone = true))
  | .get => inferInstanceAs (Decidable (s.consumer = .idle))
  | .wake ok => inferInstanceAs (Decidable (s.consumer = .waiting ∧
      (ok = true → s.fifo.pFirst ≠ none)))
  | .clearNext => inferInstanceAs (Decidable (∃ b, s.consumer = .unlinked b))
  | .release => inferInstanceAs (Decidable (∃ b, s.consumer = .returned b))
  | .empty => inferInstanceAs (Decidable True)

def FifoSystem.take (s : FifoSystem space) : Option (FifoSystem space) :=
  (takeFirst s.heap s.fifo).map fun (fifo, b, block) =>
    { s with fifo, consumer := .unlinked b, got := s.got ++ [(b, block)] }

def perform (s : FifoSystem space) : FifoEvent space → Option (FifoSystem space)
  | .put first rest =>
      (blockFifoPut (build s.heap (first :: rest)) s.fifo first.1).map fun (heap, fifo, _) =>
        { s with heap, fifo, put := s.put ++ first :: rest }
  | .get => if s.fifo.pFirst = none then some { s with consumer := .waiting } else s.take
  | .wake ok => if ok then s.take else some { s with consumer := .idle }
  | .clearNext =>
      match s.consumer with
      | .unlinked b => (s.heap b).map fun cell =>
          { s with
            heap := Function.update s.heap b (some { cell with next := none })
            consumer := .returned b }
      | _ => none
  | .release =>
      match s.consumer with
      | .returned b => (s.heap b).map fun _ =>
          { s with heap := Function.update s.heap b none, consumer := .idle }
      | _ => none
  | .empty => (blockFifoEmpty s.heap s.fifo).map fun (heap, fifo) =>
      { s with heap, fifo, put := [], got := [] }

def step (s : FifoSystem space) (event : FifoEvent space) : Option (FifoSystem space) :=
  if Enabled s event then perform s event else none

/-- `pp_last` for the blocks linked from `p_first`. -/
def tailOf (linked : List (Fin space × Block)) : PpLast space :=
  match linked.getLast? with
  | none => .first
  | some cell => .next cell.1

/-- The sum of the sizes of the messages. -/
def sizes (linked : List (Fin space × Block)) : Nat :=
  (linked.map fun cell => cell.2.msgsize.toNat).sum

@[simp] theorem tailOf_snoc (linked : List (Fin space × Block)) (cell : Fin space × Block) :
    tailOf (linked ++ [cell]) = .next cell.1 := by
  simp [tailOf]

@[simp] theorem sizes_cons (cell : Fin space × Block) (linked : List (Fin space × Block)) :
    sizes (cell :: linked) = cell.2.msgsize.toNat + sizes linked := by
  simp [sizes]

/-- The representation of a queue whose last block points to `stop`: the null pointer,
but for the time of a `block_FifoPut`. -/
structure Queued (heap : BlockHeap space) (fifo : BlockFifo space)
    (linked : List (Fin space × Block)) (stop : Option (Fin space)) : Prop where
  segment : Segment heap fifo.pFirst linked stop
  distinct : (addrs linked).Nodup
  tail : fifo.ppLast = tailOf linked
  depth : fifo.iDepth = Int32.ofNat linked.length
  size : fifo.iSize = Int32.ofNat (sizes linked)

theorem blockFifoNew_queued (heap : BlockHeap space) : Queued heap blockFifoNew [] none :=
  ⟨rfl, List.nodup_nil, rfl, rfl, rfl⟩

theorem Queued.congr {heap other : BlockHeap space} {fifo : BlockFifo space}
    {linked : List (Fin space × Block)} {stop : Option (Fin space)}
    (queued : Queued heap fifo linked stop) (same : ∀ a ∈ addrs linked, other a = heap a) :
    Queued other fifo linked stop :=
  { queued with segment := queued.segment.congr same }

theorem Queued.length_le {heap : BlockHeap space} {fifo : BlockFifo space}
    {linked : List (Fin space × Block)} {stop : Option (Fin space)}
    (queued : Queued heap fifo linked stop) : linked.length ≤ space := by
  simpa using queued.distinct.length_le_card

section Put

variable {heap : BlockHeap space} {fifo : BlockFifo space} {linked : List (Fin space × Block)}
  {stop : Option (Fin space)}

/-- Storing through `pp_last` links a block behind the last one. -/
theorem storeLast_linked (queued : Queued heap fifo linked stop) (pBlock : Fin space) :
    ∃ next pFirst, storeLast heap fifo pBlock = some (next, { fifo with pFirst }) ∧
      Segment next pFirst linked (some pBlock) ∧ ∀ a, a ∉ addrs linked → next a = heap a := by
  obtain ⟨segment, distinct, tail, _, _⟩ := queued
  rcases List.eq_nil_or_concat' linked with rfl | ⟨before, ⟨a, x⟩, rfl⟩
  · exact ⟨heap, some pBlock, by rw [storeLast, tail]; rfl, rfl, fun _ _ => rfl⟩
  · rw [tailOf_snoc] at tail
    obtain ⟨path, last⟩ := segment_snoc.mp segment
    have outside : a ∉ addrs before := by
      rw [addrs_append] at distinct
      exact fun member => (List.nodup_append.mp distinct).2.2 a member a (by simp) rfl
    have stored : storeLast heap fifo pBlock =
        some (Function.update heap a (some ⟨some pBlock, x⟩), fifo) := by
      rw [storeLast, tail]
      simp only [last, Option.map_some]
    refine ⟨_, fifo.pFirst, stored, ?_, ?_⟩
    · exact segment_snoc.mpr ⟨path.update outside _, Function.update_self ..⟩
    · intro b other
      refine Function.update_of_ne ?_ _ _
      rintro rfl
      exact other (by simp)

/-- One round puts its block behind the queue, whatever the last one pointed to. -/
theorem putBlock_queued (queued : Queued heap fifo linked stop) {p : Fin space} {x : Block}
    {pNext : Option (Fin space)} (found : heap p = some ⟨pNext, x⟩) (outside : p ∉ addrs linked)
    (iSize : Int32) :
    ∃ next queue total, putBlock heap fifo iSize p = some (next, queue, total, pNext) ∧
      Queued next queue (linked ++ [(p, x)]) pNext ∧
      ∀ a, a ∉ addrs linked → next a = heap a := by
  obtain ⟨next, pFirst, stored, segment, frame⟩ := storeLast_linked queued p
  have kept := (frame p outside).trans found
  refine ⟨next, _, _, by
    rw [putBlock, found, Option.bind_some, stored, Option.bind_some]
    simp only [kept, Option.map_some]
    rfl, ?_, frame⟩
  exact
    { segment := segment_snoc.mpr ⟨segment, kept⟩
      distinct := by
        rw [addrs_append]
        exact List.nodup_append.mpr ⟨queued.distinct, List.nodup_singleton p, by
          rintro a member b single rfl
          rw [List.mem_singleton.mp single] at member
          exact outside member⟩
      tail := (tailOf_snoc linked (p, x)).symm
      depth := by simp [queued.depth]
      size := by simp [queued.size, sizes] }

/-- The loop puts the whole chain behind the queue. -/
theorem putLoop_queued (rest : List (Fin space × Block)) :
    ∀ {rounds : Nat} {heap : BlockHeap space} {fifo : BlockFifo space} (iSize : Int32)
      {linked : List (Fin space × Block)} {stop : Option (Fin space)} {p : Fin space} {x : Block},
      Queued heap fifo linked stop → Segment heap (some p) ((p, x) :: rest) none →
      (addrs (linked ++ (p, x) :: rest)).Nodup → rest.length < rounds →
      ∃ final queue total, putLoop rounds heap fifo iSize p = some (final, queue, total) ∧
        Queued final queue (linked ++ (p, x) :: rest) none ∧
        ∀ a, a ∉ addrs (linked ++ (p, x) :: rest) → final a = heap a := by
  induction rest with
  | nil =>
      intro rounds heap fifo iSize linked stop p x queued chain distinct enough
      obtain ⟨rounds, rfl⟩ := Nat.exists_eq_succ_of_ne_zero (Nat.ne_of_gt enough)
      obtain ⟨_, pNext, found, rfl⟩ := chain
      have outside : p ∉ addrs linked := fun member =>
        (List.nodup_append.mp (by simpa using distinct)).2.2 p member p (by simp) rfl
      obtain ⟨next, queue, total, put, after, frame⟩ := putBlock_queued queued found outside iSize
      refine ⟨next, queue, total, by rw [putLoop, put]; rfl, after, fun a other => ?_⟩
      exact frame a fun member => other (by simp [member])
  | cons second rest ih =>
      intro rounds heap fifo iSize linked stop p x queued chain distinct enough
      obtain ⟨rounds, rfl⟩ :=
        Nat.exists_eq_succ_of_ne_zero (Nat.ne_of_gt (Nat.zero_lt_of_lt enough))
      obtain ⟨q, y⟩ := second
      obtain ⟨_, pNext, found, remaining⟩ := chain
      obtain ⟨rfl, _⟩ := id remaining
      have apart := List.nodup_append.mp (by simpa using distinct)
      have outside : p ∉ addrs linked := fun member => apart.2.2 p member p (by simp) rfl
      obtain ⟨next, queue, total, put, after, frame⟩ := putBlock_queued queued found outside iSize
      have unchanged : Segment next (some q) ((q, y) :: rest) none :=
        remaining.congr fun a member => frame a fun early => apart.2.2 a early a
          (List.mem_cons_of_mem _ member) rfl
      obtain ⟨final, final_queue, sum, looped, whole, others⟩ := ih total after unchanged
        (by simpa using distinct) (by simpa using enough)
      refine ⟨final, final_queue, sum, by rw [putLoop, put]; exact looped, by simpa using whole, ?_⟩
      intro a other
      rw [others a (by simpa using other)]
      exact frame a fun member => other (by simp [member])

/-- A chain of new blocks is put behind the queue. -/
theorem blockFifoPut_queued (queued : Queued heap fifo linked none) {first : Fin space × Block}
    {rest : List (Fin space × Block)} (distinct : (addrs (first :: rest)).Nodup)
    (fresh : ∀ a ∈ addrs (first :: rest), (heap a).isNone = true) :
    ∃ next queue total, blockFifoPut (build heap (first :: rest)) fifo first.1 =
        some (next, queue, total) ∧ Queued next queue (linked ++ first :: rest) none ∧
      ∀ a, a ∉ addrs (linked ++ first :: rest) → next a = heap a := by
  have apart : ∀ a ∈ addrs linked, a ∉ addrs (first :: rest) := fun a member new =>
    queued.segment.allocated a member (by simpa using fresh a new)
  have before : Queued (build heap (first :: rest)) fifo linked none :=
    queued.congr fun a member => build_outside heap (apart a member)
  have together : (addrs (linked ++ first :: rest)).Nodup := by
    rw [addrs_append]
    refine List.nodup_append.mpr ⟨queued.distinct, distinct, ?_⟩
    rintro a member b new rfl
    exact apart a member new
  have short : rest.length < space := by
    have all := together.length_le_card
    simp only [addrs_length, List.length_append, List.length_cons, Fintype.card_fin] at all
    omega
  obtain ⟨next, queue, total, put, after, frame⟩ := putLoop_queued rest (p := first.1)
    (x := first.2) 0 before (build_segment heap distinct) together short
  refine ⟨next, queue, total, put, after, fun a other => (frame a other).trans ?_⟩
  rw [addrs_append, List.mem_append, not_or] at other
  exact build_outside heap other.2

end Put

/-- The first block is taken off, and the tail is re-aimed when it was the last. -/
theorem takeFirst_queued {heap : BlockHeap space} {fifo : BlockFifo space}
    {rest : List (Fin space × Block)} {b : Fin space} {x : Block}
    (queued : Queued heap fifo ((b, x) :: rest) none) :
    ∃ next, takeFirst heap fifo = some (next, b, x) ∧ Queued heap next rest none := by
  obtain ⟨⟨first, pNext, found, segment⟩, distinct, tail, depth, size⟩ := queued
  have less (whole one : Nat) :
      Int32.ofNat (one + whole) - Int32.ofNat one = Int32.ofNat whole := by
    rw [Int32.ofNat_add, Int32.add_comm, Int32.add_sub_cancel]
  have depthLeft : fifo.iDepth - 1 = Int32.ofNat rest.length := by
    rw [depth, List.length_cons, Nat.add_comm]
    exact less rest.length 1
  have sizeLeft : fifo.iSize - Int32.ofNat x.msgsize.toNat = Int32.ofNat (sizes rest) := by
    rw [size, sizes_cons]
    exact less (sizes rest) x.msgsize.toNat
  refine ⟨_, by rw [takeFirst, first, Option.bind_some, found]; rfl, ?_⟩
  cases rest with
  | nil =>
      cases segment
      exact ⟨rfl, List.nodup_nil, rfl, depthLeft, sizeLeft⟩
  | cons cell rest =>
      obtain ⟨rfl, _⟩ := id segment
      exact ⟨segment, (List.nodup_cons.mp distinct).2, by simpa [tailOf] using tail, depthLeft,
        sizeLeft⟩

/-- The loop of `block_FifoEmpty` releases the blocks of the queue and no others. -/
theorem emptyLoop_segment {linked : List (Fin space × Block)} :
    ∀ {rounds : Nat} {heap : BlockHeap space} {first : Option (Fin space)},
      Segment heap first linked none → (addrs linked).Nodup → linked.length ≤ rounds →
      ∃ final, emptyLoop rounds heap first = some final ∧
        ∀ a, a ∉ addrs linked → final a = heap a := by
  induction linked with
  | nil =>
      intro rounds heap first segment _ _
      cases segment
      exact ⟨heap, by rw [emptyLoop], fun _ _ => rfl⟩
  | cons cell linked ih =>
      intro rounds heap first segment distinct enough
      obtain ⟨rounds, rfl⟩ :=
        Nat.exists_eq_succ_of_ne_zero (Nat.ne_of_gt (Nat.zero_lt_of_lt enough))
      obtain ⟨rfl, pNext, found, rest⟩ := segment
      obtain ⟨outside, apart⟩ := List.nodup_cons.mp distinct
      obtain ⟨final, looped, frame⟩ := ih (rest.update outside none) apart (by simpa using enough)
      refine ⟨final, by rw [emptyLoop, found, Option.bind_some]; exact looped, fun a other => ?_⟩
      simp only [addrs_cons, List.mem_cons, not_or] at other
      rw [frame a other.2, Function.update_of_ne other.1]

theorem blockFifoEmpty_queued {heap : BlockHeap space} {fifo : BlockFifo space}
    {linked : List (Fin space × Block)} (queued : Queued heap fifo linked none) :
    ∃ final, blockFifoEmpty heap fifo = some (final, blockFifoNew) ∧
      ∀ a, a ∉ addrs linked → final a = heap a := by
  obtain ⟨final, emptied, frame⟩ :=
    emptyLoop_segment queued.segment queued.distinct queued.length_le
  exact ⟨final, by rw [blockFifoEmpty, emptied]; rfl, frame⟩

/-- The block that the consumer holds, past the locked section. -/
def Consumer.Holds : Consumer space → Fin space → Prop
  | .unlinked b, a => a = b
  | .returned b, a => a = b
  | _, _ => False

/-- The queue is well formed, what was got and what is linked is what was put, and the
consumer's block is allocated but not linked. -/
structure Inv (s : FifoSystem space) (linked : List (Fin space × Block)) : Prop where
  queued : Queued s.heap s.fifo linked none
  history : s.got ++ linked = s.put
  held : ∀ b, s.consumer.Holds b → b ∉ addrs linked ∧ (s.heap b).isSome

theorem init_inv : Inv (FifoSystem.init : FifoSystem space) [] :=
  ⟨blockFifoNew_queued _, rfl, fun _ held => held.elim⟩

/-- A locked section of `block_FifoGet` that finds a block. -/
theorem take_inv {s : FifoSystem space} {linked : List (Fin space × Block)} (inv : Inv s linked)
    (present : s.fifo.pFirst ≠ none) :
    ∃ next rest, s.take = some next ∧ Inv next rest := by
  cases linked with
  | nil => exact absurd inv.queued.segment present
  | cons cell rest =>
      obtain ⟨b, x⟩ := cell
      obtain ⟨fifo, taken, after⟩ := takeFirst_queued inv.queued
      refine ⟨_, rest, by rw [FifoSystem.take, taken]; rfl, after, ?_, ?_⟩
      · rw [← inv.history, List.append_assoc]
        rfl
      · rintro a rfl
        exact ⟨(List.nodup_cons.mp inv.queued.distinct).1, by
          simpa [Option.isSome_iff_ne_none] using inv.queued.segment.allocated a (by simp)⟩

/-- A change to the consumer's own block does not touch the queue. -/
theorem Inv.update_held {s : FifoSystem space} {linked : List (Fin space × Block)}
    (inv : Inv s linked) {b : Fin space} (held : s.consumer.Holds b)
    (cell : Option (Cell (Fin space) Block)) :
    Queued (Function.update s.heap b cell) s.fifo linked none := by
  refine inv.queued.congr fun a member => Function.update_of_ne ?_ _ _
  rintro rfl
  exact (inv.held a held).1 member

/-- Every enabled step succeeds, no pointer leading to a released block, and keeps the
representation of the queue. -/
theorem perform_inv {s : FifoSystem space} {linked : List (Fin space × Block)}
    (inv : Inv s linked) {event : FifoEvent space} (enabled : Enabled s event) :
    ∃ next after, perform s event = some next ∧ Inv next after := by
  cases event with
  | put first rest =>
      obtain ⟨distinct, fresh⟩ := enabled
      obtain ⟨heap, fifo, total, put, after, frame⟩ :=
        blockFifoPut_queued inv.queued distinct fresh
      refine ⟨{ s with heap, fifo, put := s.put ++ first :: rest }, linked ++ first :: rest,
        by rw [perform, put]; rfl, after, ?_, ?_⟩
      · rw [← List.append_assoc, inv.history]
      · intro b held
        obtain ⟨outside, allocated⟩ := inv.held b held
        have old : b ∉ addrs (first :: rest) := fun new => by
          rw [Option.isNone_iff_eq_none.mp (fresh b new)] at allocated
          cases allocated
        have whole : b ∉ addrs (linked ++ first :: rest) := by
          rw [addrs_append, List.mem_append, not_or]
          exact ⟨outside, old⟩
        exact ⟨whole, (congrArg Option.isSome (frame b whole)).trans allocated⟩
  | get =>
      by_cases drained : s.fifo.pFirst = none
      · exact ⟨{ s with consumer := .waiting }, linked, if_pos drained, inv.queued, inv.history,
          fun _ held => held.elim⟩
      · obtain ⟨next, rest, taken, kept⟩ := take_inv inv drained
        exact ⟨next, rest, (if_neg drained).trans taken, kept⟩
  | wake ok =>
      cases ok with
      | true => exact take_inv inv (enabled.2 rfl)
      | false => exact ⟨{ s with consumer := .idle }, linked, rfl, inv.queued, inv.history,
          fun _ held => held.elim⟩
  | clearNext =>
      obtain ⟨b, unlinked⟩ := enabled
      have holds : s.consumer.Holds b := by rw [unlinked]; rfl
      obtain ⟨outside, allocated⟩ := inv.held b holds
      obtain ⟨cell, found⟩ := Option.isSome_iff_exists.mp allocated
      refine ⟨{ s with
          heap := Function.update s.heap b (some { cell with next := none })
          consumer := .returned b }, linked,
        by simp only [perform, unlinked, found, Option.map_some],
        inv.update_held holds _, inv.history, ?_⟩
      rintro a rfl
      exact ⟨outside, by simp⟩
  | release =>
      obtain ⟨b, returned⟩ := enabled
      have holds : s.consumer.Holds b := by rw [returned]; rfl
      obtain ⟨cell, found⟩ := Option.isSome_iff_exists.mp (inv.held b holds).2
      exact ⟨{ s with heap := Function.update s.heap b none, consumer := .idle }, linked,
        by simp only [perform, returned, found, Option.map_some],
        inv.update_held holds _, inv.history, fun _ held => held.elim⟩
  | empty =>
      obtain ⟨final, emptied, frame⟩ := blockFifoEmpty_queued inv.queued
      refine ⟨{ s with heap := final, fifo := blockFifoNew, put := [], got := [] }, [],
        by rw [perform, emptied]; rfl, blockFifoNew_queued _, rfl, ?_⟩
      intro b held
      obtain ⟨outside, allocated⟩ := inv.held b held
      exact ⟨List.not_mem_nil, (congrArg Option.isSome (frame b outside)).trans allocated⟩

theorem step_inv {s next : FifoSystem space} {event : FifoEvent space}
    (inv : ∃ linked, Inv s linked) (stepped : step s event = some next) :
    ∃ linked, Inv next linked := by
  obtain ⟨linked, inv⟩ := inv
  unfold step at stepped
  split at stepped
  · rename_i enabled
    obtain ⟨reached, after, performed, kept⟩ := perform_inv inv enabled
    cases performed.symm.trans stepped
    exact ⟨after, kept⟩
  · cases stepped

theorem run_inv {events : List (FifoEvent space)} {final : FifoSystem space}
    (reached : run step FifoSystem.init events = some final) : ∃ linked, Inv final linked :=
  run_invariant (fun s => ∃ linked, Inv s linked)
    (fun _ _ _ before stepped => step_inv before stepped) ⟨[], init_inv⟩ reached

/-- In every state of every run the blocks got and the blocks linked are those put since
the queue was last emptied, in order; `pp_last` points behind the last block; the
counters hold the number of blocks and the sum of their sizes in `int` arithmetic, so
exactly those while they are below 2^31; and no operation that may start fails. -/
theorem run_fifo {events : List (FifoEvent space)} {final : FifoSystem space}
    (reached : run step FifoSystem.init events = some final) :
    (∃ linked, Segment final.heap final.fifo.pFirst linked none ∧
      final.got ++ linked = final.put ∧ final.fifo.ppLast = tailOf linked ∧
      final.fifo.iDepth = Int32.ofNat linked.length ∧
      final.fifo.iSize = Int32.ofNat (sizes linked) ∧
      (linked.length < 2 ^ 31 → final.fifo.iDepth.toInt = linked.length) ∧
      (sizes linked < 2 ^ 31 → final.fifo.iSize.toInt = sizes linked)) ∧
    ∀ event, Enabled final event → (step final event).isSome := by
  obtain ⟨linked, inv⟩ := run_inv reached
  obtain ⟨segment, _, tail, depth, size⟩ := inv.queued
  refine ⟨⟨linked, segment, inv.history, tail, depth, size, fun small => ?_, fun small => ?_⟩,
    fun event enabled => ?_⟩
  · rw [depth, Int32.toInt_ofNat_of_lt small]
  · rw [size, Int32.toInt_ofNat_of_lt small]
  · obtain ⟨next, _, performed, _⟩ := perform_inv inv enabled
    rw [step, if_pos enabled, performed]
    rfl

/-- A report without content. -/
def emptyBlock : Block := ⟨1, 1, 0, 0, .zero _⟩

/-- Two puts and a get, after which the address of the block got is used again. -/
theorem run_fifo_reuse :
    ∃ final : FifoSystem 3, run step .init [.put (2, emptyBlock) [(0, emptyBlock)], .get,
        .clearNext, .release, .put (2, emptyBlock) []] = some final ∧
      ∃ linked, Segment final.heap final.fifo.pFirst linked none ∧
        final.got ++ linked = final.put := by
  obtain ⟨final, reached⟩ := Option.isSome_iff_exists.mp (show (run step
    (FifoSystem.init : FifoSystem 3) [.put (2, emptyBlock) [(0, emptyBlock)], .get, .clearNext,
      .release, .put (2, emptyBlock) []]).isSome by decide)
  obtain ⟨⟨linked, segment, history, _⟩, _⟩ := run_fifo reached
  exact ⟨final, reached, linked, segment, history⟩

/-- Copies of a block at all addresses but the first. -/
def copies (block : Block) (count : Nat) : List (Fin (count + 1) × Block) :=
  (List.finRange count).map fun a => (a.succ, block)

theorem sizes_copies (block : Block) (count : Nat) :
    sizes ((0, block) :: copies block count) = (count + 1) * block.msgsize.toNat := by
  simp [sizes, copies, Function.comp_def, Nat.succ_mul, Nat.add_comm]

/-- A queue filled in one put. -/
theorem put_copies (block : Block) (count : Nat) :
    ∃ final, run step .init [.put (0, block) (copies block count)] = some final ∧
      Segment final.heap final.fifo.pFirst ((0, block) :: copies block count) none ∧
      final.fifo.iSize = Int32.ofNat ((count + 1) * block.msgsize.toNat) := by
  have addresses : addrs ((0, block) :: copies block count) = List.finRange (count + 1) := by
    simp [addrs, copies, Function.comp_def, List.finRange_succ]
  have enabled : Enabled FifoSystem.init (.put (0, block) (copies block count)) :=
    ⟨addresses ▸ List.nodup_finRange _, fun _ _ => rfl⟩
  obtain ⟨final, linked, performed, inv⟩ := perform_inv init_inv enabled
  obtain ⟨result, _, rfl⟩ := Option.map_eq_some_iff.mp performed
  have whole : linked = (0, block) :: copies block count := inv.history
  subst whole
  refine ⟨_, ?_, inv.queued.segment, inv.queued.size.trans (by rw [sizes_copies])⟩
  rw [run_cons, step, if_pos enabled, performed, Option.bind_some, run_nil]

/-- 32769 blocks of the largest size that a header can give are more than `i_size` holds. -/
theorem put_copies_overflow :
    let block : Block := ⟨1, 1, 65535, 0, .zero _⟩
    ∃ final, run step .init [.put (0, block) (copies block 32768)] = some final ∧
      Segment final.heap final.fifo.pFirst ((0, block) :: copies block 32768) none ∧
      final.fifo.iSize.toInt ≠ sizes ((0, block) :: copies block 32768) := by
  intro block
  obtain ⟨final, reached, segment, size⟩ := put_copies block 32768
  refine ⟨final, reached, segment, ?_⟩
  rw [size, sizes_copies]
  decide

end VnfMonitoring.HostFifo
