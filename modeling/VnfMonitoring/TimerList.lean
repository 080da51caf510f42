import Mathlib.Data.Finset.Card
import VnfMonitoring.Timer
import VnfMonitoring.Lib.Dlist
import VnfMonitoring.Lib.Links

set_option autoImplicit false

/- The list of `timer.c` in the store `malloc` gives out: blocks linked in both directions
between `head` and `tail`, which are blocks themselves. -/
namespace VnfMonitoring.TimerList

open VnfMonitoring.Timer VnfMonitoring.Chain VnfMonitoring.Links VnfMonitoring.Runs
open VnfMonitoring.Dlist (NodeList)

abbrev Addr := Nat

/-- A block for a `timer_list`; what was never written has no value. -/
structure Block where
  record : Option TimerRecord
  next : Option Addr
  prev : Option Addr

/-- The blocks in use, what they hold, and the two static pointers. -/
structure Heap where
  live : Finset Addr
  block : Addr → Block
  head : Addr
  tail : Addr

def Heap.withBlock (h : Heap) (i : Addr) : Heap :=
  { h with live := insert i h.live, block := Function.update h.block i ⟨none, none, none⟩ }

/-- `malloc` returns a block that is not in use; nothing is written to it. -/
def malloc (h : Heap) (i : Addr) : Option Heap := if i ∈ h.live then none else some (h.withBlock i)

def free (h : Heap) (s : Addr) : Heap := { h with live := h.live.erase s }

/-- A read through a pointer; reads and writes outside the blocks in use have no value. -/
def read (h : Heap) (s : Addr) : Option Block := if s ∈ h.live then some (h.block s) else none

def nextOf (h : Heap) (s : Addr) : Option Addr := (read h s).bind Block.next

def prevOf (h : Heap) (s : Addr) : Option Addr := (read h s).bind Block.prev

def recordOf (h : Heap) (s : Addr) : Option TimerRecord := (read h s).bind Block.record

def Heap.write (h : Heap) (s : Addr) (f : Block → Block) : Heap :=
  { h with block := Function.update h.block s (f (h.block s)) }

/-- `s->next = next`. -/
def Heap.withNext (h : Heap) (s next : Addr) : Heap :=
  h.write s fun block => { block with next := some next }

/-- `s->prev = prev`. -/
def Heap.withPrev (h : Heap) (s prev : Addr) : Heap :=
  h.write s fun block => { block with prev := some prev }

/-- The assignments to the other fields. -/
def Heap.withRecord (h : Heap) (s : Addr) (record : TimerRecord) : Heap :=
  h.write s fun block => { block with record := some record }

def setNext (h : Heap) (s next : Addr) : Option Heap :=
  if s ∈ h.live then some (h.withNext s next) else none

def setPrev (h : Heap) (s prev : Addr) : Option Heap :=
  if s ∈ h.live then some (h.withPrev s prev) else none

def setRecord (h : Heap) (s : Addr) (record : TimerRecord) : Option Heap :=
  if s ∈ h.live then some (h.withRecord s record) else none

/-- `init_dlist`, absent when it returns -1, with what its two calls of `malloc` return. -/
def initDlist (first second : Option Addr) : Option Heap := do
  let head ← first
  let h ← malloc ⟨∅, fun _ => ⟨none, none, none⟩, head, head⟩ head
  let tail ← second
  let h ← malloc { h with tail } tail
  let h ← setPrev h h.head h.head
  let h ← setNext h h.head h.tail
  let h ← setPrev h h.tail h.head
  setNext h h.tail h.tail

/-- The loop of `search_timer_list`, without a value when the fuel does not last. -/
def searchFrom (h : Heap) (id : Int) : Nat → Addr → Option Addr
  | 0, _ => none
  | fuel + 1, s =>
      if s = h.tail then some s
      else
        (recordOf h s).bind fun record =>
          if record.id = id then some s else (nextOf h s).bind (searchFrom h id fuel)

/-- `search_timer_list` with a number of rounds. -/
def searchTimerList (h : Heap) (id : Int) (fuel : Nat) : Option Addr :=
  (nextOf h h.head).bind (searchFrom h id fuel)

/-- `delete_timer_list`. The search goes no further than there are blocks. -/
def deleteTimerList (h : Heap) (id : Int) : Option (Int × Heap) :=
  if id ≤ 0 then some (-1, h)
  else do
    let s ← searchTimerList h id h.live.card
    if s ≠ h.tail then
      let h ← setNext h (← prevOf h s) (← nextOf h s)
      let h ← setPrev h (← nextOf h s) (← prevOf h s)
      some (0, free h s)
    else some (-1, h)

/-- What `insert_timer_list` writes to the fields of a timer. -/
def filled (id : Int) (period : Int32) (callback : Option Action) (call : StartCall)
    (tp : Timeval) : TimerRecord :=
  { id, period, tvSec := Int32.ofInt tp.tvSec, tvUsec := Int32.ofInt tp.tvUsec,
    arg1 := call.arg1, arg2 := call.arg2, arg3 := call.arg3, action := callback }

/-- `insert_timer_list`, where a `malloc` that works returns `i`. -/
def insertTimerList (h : Heap) (id : Int) (period : Int32) (callback : Option Action)
    (call : StartCall) (i : Addr) : Option (Int × Heap) :=
  if call.mallocOk then do
    let h ← malloc h i
    match call.gettimeofday with
    | none => some (-1, free h i)
    | some tp =>
        let h ← setRecord h i (filled id period callback call tp)
        let s := h.tail
        if s = h.head then some (-1, free h i)
        else
          let h ← setNext h (← prevOf h s) i
          let h ← setPrev h i (← prevOf h s)
          let h ← setNext h i s
          let h ← setPrev h s i
          some (0, h)
  else some (-1, h)

inductive Event where
  | insert (id : Int) (period : Int32) (callback : Option Action) (call : StartCall) (i : Addr)
  | delete (id : Int)

def step (h : Heap) : Event → Option Heap
  | .insert id period callback call i =>
      (insertTimerList h id period callback call i).map Prod.snd
  | .delete id => (deleteTimerList h id).map Prod.snd

/-- The same call on a plain list. -/
def listed (list : List TimerRecord) : Event → List TimerRecord
  | .insert id period callback call _ => (Timer.insertTimerList list id period callback call).2
  | .delete id => (Timer.deleteTimerList list id).2

section Store

variable {h : Heap} {s a b : Addr} {record : TimerRecord}

theorem read_live {block : Block} (found : read h a = some block) : a ∈ h.live := by
  unfold read at found
  by_contra dead
  rw [if_neg dead] at found
  cases found

theorem nextOf_live {n : Addr} (linked : nextOf h a = some n) : a ∈ h.live := by
  obtain ⟨block, found, _⟩ := Option.bind_eq_some_iff.mp linked
  exact read_live found

theorem read_write (f : Block → Block) :
    read (h.write s f) a = if a = s then (read h a).map f else read h a := by
  by_cases same : a = s
  · subst same
    simp only [read, Heap.write, Function.update_self, if_pos]
    split <;> rfl
  · simp [read, Heap.write, same]

section Field

variable {β : Type} {field : Block → Option β} {f : Block → Block}

/-- A write to one field of a block leaves the other fields as they are. -/
theorem field_write_other (keeps : ∀ block, field (f block) = field block) :
    (read (h.write s f) a).bind field = (read h a).bind field := by
  rw [read_write]
  split
  · cases read h a with
    | none => rfl
    | some block => exact keeps block
  · rfl

theorem field_write {value : β} (sets : ∀ block, field (f block) = some value)
    (live : s ∈ h.live) :
    (read (h.write s f) a).bind field = if a = s then some value else (read h a).bind field := by
  rw [read_write]
  split
  · rename_i same
    subst same
    simp [read, live, sets]
  · rfl

end Field

theorem nextOf_withNext (live : s ∈ h.live) :
    nextOf (h.withNext s b) a = if a = s then some b else nextOf h a :=
  field_write (fun _ => rfl) live

@[simp] theorem prevOf_withNext : prevOf (h.withNext s b) a = prevOf h a :=
  field_write_other fun _ => rfl

@[simp] theorem recordOf_withNext : recordOf (h.withNext s b) a = recordOf h a :=
  field_write_other fun _ => rfl

@[simp] theorem nextOf_withPrev : nextOf (h.withPrev s b) a = nextOf h a :=
  field_write_other fun _ => rfl

theorem prevOf_withPrev (live : s ∈ h.live) :
    prevOf (h.withPrev s b) a = if a = s then some b else prevOf h a :=
  field_write (fun _ => rfl) live

@[simp] theorem recordOf_withPrev : recordOf (h.withPrev s b) a = recordOf h a :=
  field_write_other fun _ => rfl

@[simp] theorem nextOf_withRecord : nextOf (h.withRecord s record) a = nextOf h a :=
  field_write_other fun _ => rfl

@[simp] theorem prevOf_withRecord : prevOf (h.withRecord s record) a = prevOf h a :=
  field_write_other fun _ => rfl

theorem recordOf_withRecord (live : s ∈ h.live) :
    recordOf (h.withRecord s record) a = if a = s then some record else recordOf h a :=
  field_write (fun _ => rfl) live

theorem read_withBlock (other : a ≠ s) : read (h.withBlock s) a = read h a := by
  simp [read, Heap.withBlock, other]

theorem nextOf_withBlock (other : a ≠ s) : nextOf (h.withBlock s) a = nextOf h a := by
  rw [nextOf, read_withBlock other, nextOf]

theorem prevOf_withBlock (other : a ≠ s) : prevOf (h.withBlock s) a = prevOf h a := by
  rw [prevOf, read_withBlock other, prevOf]

theorem recordOf_withBlock (other : a ≠ s) : recordOf (h.withBlock s) a = recordOf h a := by
  rw [recordOf, read_withBlock other, recordOf]

theorem read_free (other : a ≠ s) : read (free h s) a = read h a := by
  simp [read, free, other]

theorem nextOf_free (other : a ≠ s) : nextOf (free h s) a = nextOf h a := by
  rw [nextOf, read_free other, nextOf]

theorem prevOf_free (other : a ≠ s) : prevOf (free h s) a = prevOf h a := by
  rw [prevOf, read_free other, prevOf]

theorem recordOf_free (other : a ≠ s) : recordOf (free h s) a = recordOf h a := by
  rw [recordOf, read_free other, recordOf]

/-- The heap after the writes of `insert_timer_list` between `p` and `tail`. -/
def inserted (h : Heap) (i p : Addr) (record : TimerRecord) : Heap :=
  (((((h.withBlock i).withRecord i record).withNext p i).withPrev i p).withNext i h.tail).withPrev
    h.tail i

section Inserted

variable {i p : Addr}

theorem inserted_live : (inserted h i p record).live = insert i h.live := rfl

theorem nextOf_inserted (pLive : p ∈ h.live) (b : Addr) :
    nextOf (inserted h i p record) b =
      if b = i then some h.tail else if b = p then some i else nextOf h b := by
  have iThere : i ∈ ((((h.withBlock i).withRecord i record).withNext p i).withPrev i p).live :=
    Finset.mem_insert_self i h.live
  have pThere : p ∈ ((h.withBlock i).withRecord i record).live := Finset.mem_insert_of_mem pLive
  rw [inserted, nextOf_withPrev, nextOf_withNext iThere, nextOf_withPrev, nextOf_withNext pThere,
    nextOf_withRecord]
  split
  · rfl
  · rename_i other
    rw [nextOf_withBlock other]

theorem prevOf_inserted (tailLive : h.tail ∈ h.live) (other : h.tail ≠ i) (b : Addr) :
    prevOf (inserted h i p record) b =
      if b = i then some p else if b = h.tail then some i else prevOf h b := by
  have tailThere :
      h.tail ∈ (((((h.withBlock i).withRecord i record).withNext p i).withPrev i p).withNext i
        h.tail).live := Finset.mem_insert_of_mem tailLive
  have iThere : i ∈ (((h.withBlock i).withRecord i record).withNext p i).live :=
    Finset.mem_insert_self i h.live
  rw [inserted, prevOf_withPrev tailThere, prevOf_withNext, prevOf_withPrev iThere,
    prevOf_withNext, prevOf_withRecord]
  by_cases same : b = i
  · rw [if_pos same, if_pos same, if_neg (fun equal => other (equal.symm.trans same))]
  · rw [if_neg same, if_neg same, prevOf_withBlock same]

theorem recordOf_inserted (b : Addr) :
    recordOf (inserted h i p record) b = if b = i then some record else recordOf h b := by
  have iThere : i ∈ (h.withBlock i).live := Finset.mem_insert_self i h.live
  rw [inserted, recordOf_withPrev, recordOf_withNext, recordOf_withPrev, recordOf_withNext,
    recordOf_withRecord iThere]
  split
  · rfl
  · rename_i other
    rw [recordOf_withBlock other]

end Inserted

end Store

/-- `head`, the blocks of the records and `tail`. -/
def blocks (h : Heap) (cells : List (Addr × TimerRecord)) : List Addr :=
  h.head :: (addrs cells ++ [h.tail])

/-- The blocks in use are `head`, one for each record, and `tail`, linked in this order in
both directions. -/
structure Represents (h : Heap) (cells : List (Addr × TimerRecord)) : Prop where
  linked : Linked (nextOf h) (prevOf h) (blocks h cells)
  headSelf : prevOf h h.head = some h.head
  tailSelf : nextOf h h.tail = some h.tail
  records : ∀ cell ∈ cells, recordOf h cell.1 = some cell.2
  distinct : (blocks h cells).Nodup
  live : ∀ s, s ∈ h.live ↔ s ∈ blocks h cells

/-- The two blocks of `init_dlist`, before anything is written to them. -/
def twoBlocks (head tail : Addr) : Heap :=
  Heap.withBlock ⟨{head}, Function.update (fun _ => ⟨none, none, none⟩) head ⟨none, none, none⟩,
    head, tail⟩ tail

theorem initDlist_eq {first second : Option Addr} {start : Heap}
    (started : initDlist first second = some start) :
    ∃ head tail, head ≠ tail ∧
      start = ((((twoBlocks head tail).withPrev head head).withNext head tail).withPrev
        tail head).withNext tail tail := by
  cases first with
  | none => cases started
  | some head =>
      cases second with
      | none => simp [initDlist, malloc] at started
      | some tail =>
          by_cases same : head = tail
          · simp [initDlist, malloc, Heap.withBlock, same] at started
          · refine ⟨head, tail, same, ?_⟩
            have other : ¬ tail = head := fun equal => same equal.symm
            simp only [initDlist, Option.bind_eq_bind, Option.bind_some, malloc,
              Finset.notMem_empty, if_false, Heap.withBlock, insert_empty_eq,
              Finset.mem_singleton, other, setPrev, setNext, Heap.withPrev, Heap.withNext,
              Heap.write, Finset.mem_insert, or_true, true_or, if_true] at started
            cases started
            rfl

theorem initDlist_represents {first second : Option Addr} {start : Heap}
    (started : initDlist first second = some start) : Represents start [] := by
  obtain ⟨head, tail, apart, same⟩ := initDlist_eq started
  have headLive : head ∈ (twoBlocks head tail).live := by simp [twoBlocks, Heap.withBlock]
  have tailLive : tail ∈ (twoBlocks head tail).live := by simp [twoBlocks, Heap.withBlock]
  have next (b : Addr) : nextOf start b =
      if b = tail then some tail else if b = head then some tail
        else nextOf (twoBlocks head tail) b := by
    rw [same, nextOf_withNext, nextOf_withPrev, nextOf_withNext, nextOf_withPrev]
    · exact headLive
    · exact tailLive
  have prev (b : Addr) : prevOf start b =
      if b = tail then some head else if b = head then some head
        else prevOf (twoBlocks head tail) b := by
    rw [same, prevOf_withNext, prevOf_withPrev, prevOf_withNext, prevOf_withPrev]
    · exact headLive
    · exact tailLive
  have ends : blocks start [] = [head, tail] := by
    rw [same]
    rfl
  have live : start.live = {tail, head} := by
    rw [same]
    rfl
  have headEq : start.head = head := by rw [same]; rfl
  have tailEq : start.tail = tail := by rw [same]; rfl
  constructor
  case linked =>
    rw [ends]
    constructor
    · apply List.isChain_cons_cons.mpr
      refine ⟨?_, List.isChain_singleton tail⟩
      rw [next, if_neg apart, if_pos rfl]
    · apply List.isChain_cons_cons.mpr
      refine ⟨?_, List.isChain_singleton head⟩
      rw [prev, if_pos rfl]
  case headSelf => rw [headEq, prev, if_neg apart, if_pos rfl]
  case tailSelf => rw [tailEq, next, if_pos rfl]
  case records => exact fun _ member => absurd member List.not_mem_nil
  case distinct =>
    rw [ends]
    exact List.nodup_cons.mpr ⟨by simpa using apart, List.nodup_singleton tail⟩
  case live =>
    intro s
    rw [ends, live]
    simp [or_comm]

section Represented

variable {h : Heap} {cells : List (Addr × TimerRecord)}

/-- The search from a block on the list: it stops at the first record with the id, else at
`tail`. -/
theorem searchFrom_cells {id : Int} {first : Addr} {fuel : Nat}
    (starts : (addrs cells ++ [h.tail]).head? = some first)
    (path : Path (nextOf h) (addrs cells ++ [h.tail]))
    (records : ∀ cell ∈ cells, recordOf h cell.1 = some cell.2) (apart : h.tail ∉ addrs cells)
    (enough : cells.length < fuel) :
    searchFrom h id fuel first =
      some (((cells.find? fun cell => cell.2.id = id).map Prod.fst).getD h.tail) := by
  induction cells generalizing first fuel with
  | nil =>
      cases fuel with
      | zero => cases enough
      | succ fuel =>
          cases starts
          rw [searchFrom, if_pos rfl]
          rfl
  | cons cell rest ih =>
      cases fuel with
      | zero => cases enough
      | succ fuel =>
          cases starts
          rw [addrs_cons, List.mem_cons, not_or] at apart
          have notTail : cell.1 ≠ h.tail := fun same => apart.1 same.symm
          rw [List.forall_mem_cons] at records
          rw [searchFrom, if_neg notTail, records.1, Option.bind_some, List.find?_cons]
          by_cases found : cell.2.id = id
          · simp [found]
          · rw [if_neg found]
            obtain ⟨second, next, linked, onPath⟩ := path.enter
            have onward := ih next onPath records.2 apart.2 (Nat.lt_of_succ_lt_succ enough)
            simpa [linked, found] using onward

theorem Represents.live_card (rep : Represents h cells) : h.live.card = cells.length + 2 := by
  have same : h.live = (blocks h cells).toFinset := by
    ext s
    rw [List.mem_toFinset, rep.live]
  rw [same, List.toFinset_card_of_nodup rep.distinct]
  simp [blocks]

theorem Represents.search (rep : Represents h cells) (id : Int) {fuel : Nat}
    (enough : cells.length < fuel) :
    searchTimerList h id fuel =
      some (((cells.find? fun cell => cell.2.id = id).map Prod.fst).getD h.tail) := by
  obtain ⟨first, starts, linked, path⟩ := rep.linked.forward.enter
  have apart : h.tail ∉ addrs cells := by
    have distinct := (List.nodup_append.mp (List.nodup_cons.mp rep.distinct).2).2.2
    intro member
    exact distinct _ member _ (List.mem_singleton.mpr rfl) rfl
  rw [searchTimerList, linked, Option.bind_some]
  exact searchFrom_cells starts path rep.records apart enough

/-- The block in front of a place in the list. -/
theorem exists_before (h : Heap) (before : List (Addr × TimerRecord)) :
    ∃ front p, h.head :: addrs before = front ++ [p] := by
  rcases List.eq_nil_or_concat (h.head :: addrs before) with none_ | ⟨front, p, split⟩
  · cases none_
  · exact ⟨front, p, split.trans List.concat_eq_append⟩

/-- The block behind a place in the list. -/
theorem exists_behind (h : Heap) (after : List (Addr × TimerRecord)) :
    ∃ n behind, addrs after ++ [h.tail] = n :: behind := by
  cases after with
  | nil => exact ⟨_, _, rfl⟩
  | cons cell after => exact ⟨_, _, rfl⟩

theorem mem_blocks {cell : Addr × TimerRecord} (member : cell ∈ cells) :
    cell.1 ∈ blocks h cells := by
  simp only [blocks, List.mem_cons, List.mem_append]
  exact Or.inr (Or.inl (List.mem_map_of_mem member))

/-- The blocks on both sides of a place in the list. -/
theorem blocks_split {before after : List (Addr × TimerRecord)} {front behind : List Addr}
    {p n : Addr} (frontEq : h.head :: addrs before = front ++ [p])
    (behindEq : addrs after ++ [h.tail] = n :: behind) :
    blocks h (before ++ after) = front ++ p :: n :: behind := by
  calc blocks h (before ++ after)
      = (h.head :: addrs before) ++ (addrs after ++ [h.tail]) := by simp [blocks]
    _ = front ++ p :: n :: behind := by simp [frontEq, behindEq]

theorem blocks_split_cell {before after : List (Addr × TimerRecord)} {front behind : List Addr}
    {p n : Addr} (frontEq : h.head :: addrs before = front ++ [p])
    (behindEq : addrs after ++ [h.tail] = n :: behind) (a : Addr) (record : TimerRecord) :
    blocks h (before ++ (a, record) :: after) = front ++ p :: a :: n :: behind := by
  calc blocks h (before ++ (a, record) :: after)
      = (h.head :: addrs before) ++ a :: (addrs after ++ [h.tail]) := by simp [blocks]
    _ = front ++ p :: a :: n :: behind := by simp [frontEq, behindEq]

/-- `delete_timer_list` links the neighbours of a record to each other and frees its block. -/
theorem Represents.remove {before after : List (Addr × TimerRecord)} {a : Addr}
    {record : TimerRecord} (rep : Represents h (before ++ (a, record) :: after)) :
    ∃ p n, nextOf h a = some n ∧ prevOf h a = some p ∧ p ∈ h.live ∧ n ∈ h.live ∧ p ≠ a ∧ n ≠ a ∧
      p ≠ n ∧ Represents (free ((h.withNext p n).withPrev n p) a) (before ++ after) := by
  obtain ⟨front, p, frontEq⟩ := exists_before h before
  obtain ⟨n, behind, behindEq⟩ := exists_behind h after
  have whole := blocks_split_cell frontEq behindEq a record
  have cut := blocks_split frontEq behindEq
  have linked := whole ▸ rep.linked
  have shifted : Linked (nextOf h) (prevOf h) ((front ++ [p]) ++ a :: n :: behind) := by
    simpa using linked
  obtain ⟨aside, distinct⟩ := nodup_between.mp (whole ▸ rep.distinct)
  have outside (b : Addr) (member : b ∈ front ++ p :: n :: behind) : b ≠ a := by
    rintro rfl
    exact aside member
  have live (s : Addr) : s ∈ h.live ↔ s ∈ front ++ p :: a :: n :: behind := whole ▸ rep.live s
  have pLive : p ∈ h.live := (live p).mpr (by simp)
  have nLive : n ∈ h.live := (live n).mpr (by simp)
  have pOther : p ≠ a := outside p (by simp)
  have nOther : n ≠ a := outside n (by simp)
  have nextAfter (b : Addr) (other : b ≠ a) :
      nextOf (free ((h.withNext p n).withPrev n p) a) b = if b = p then some n else nextOf h b := by
    rw [nextOf_free other, nextOf_withPrev, nextOf_withNext pLive]
  have prevAfter (b : Addr) (other : b ≠ a) :
      prevOf (free ((h.withNext p n).withPrev n p) a) b = if b = n then some p else prevOf h b := by
    rw [prevOf_free other, prevOf_withPrev (show n ∈ (h.withNext p n).live from nLive),
      prevOf_withNext]
  obtain ⟨headOther, tailOther, apart⟩ := nodup_ends distinct frontEq behindEq
  refine ⟨p, n, shifted.neighbours.1, linked.neighbours.2, pLive, nLive, pOther, nOther, apart, ?_⟩
  constructor
  case linked =>
    apply cut.symm ▸ linked.remove distinct _ _ _ _
    · rw [nextAfter p pOther, if_pos rfl]
    · rw [prevAfter n nOther, if_pos rfl]
    · intro b member other
      rw [nextAfter b (outside b member), if_neg other]
    · intro b member other
      rw [prevAfter b (outside b member), if_neg other]
  case headSelf =>
    have inside : h.head ∈ front ++ p :: n :: behind := by simp [← cut, blocks]
    exact (prevAfter _ (outside _ inside)).trans ((if_neg headOther).trans rep.headSelf)
  case tailSelf =>
    have inside : h.tail ∈ front ++ p :: n :: behind := by simp [← cut, blocks]
    exact (nextAfter _ (outside _ inside)).trans ((if_neg tailOther).trans rep.tailSelf)
  case records =>
    intro cell member
    rw [recordOf_free (outside _ (cut ▸ mem_blocks member)), recordOf_withPrev, recordOf_withNext]
    apply rep.records
    rw [List.mem_append, List.mem_cons]
    exact (List.mem_append.mp member).imp_right Or.inr
  case distinct => exact cut.symm ▸ distinct
  case live =>
    intro s
    change s ∈ h.live.erase a ↔ s ∈ blocks h (before ++ after)
    rw [Finset.mem_erase, live, cut]
    constructor
    · rintro ⟨other, inside⟩
      simpa [other] using inside
    · intro inside
      refine ⟨outside s inside, ?_⟩
      rw [List.mem_append, List.mem_cons, List.mem_cons] at inside ⊢
      grind

/-- `insert_timer_list` puts a block in front of `tail`. -/
theorem Represents.append (rep : Represents h cells) {i : Addr} (fresh : i ∉ h.live)
    (record : TimerRecord) :
    ∃ p, prevOf h h.tail = some p ∧ p ∈ h.live ∧ p ≠ i ∧ p ≠ h.tail ∧
      Represents (inserted h i p record) (cells ++ [(i, record)]) := by
  obtain ⟨front, p, frontEq⟩ := exists_before h cells
  have behindEq : addrs ([] : List (Addr × TimerRecord)) ++ [h.tail] = h.tail :: [] := rfl
  have whole : blocks h cells = front ++ p :: h.tail :: [] :=
    List.append_nil cells ▸ blocks_split frontEq behindEq
  have longer : blocks h (cells ++ [(i, record)]) = front ++ p :: i :: h.tail :: [] :=
    blocks_split_cell frontEq behindEq i record
  have linked := whole ▸ rep.linked
  have distinct := whole ▸ rep.distinct
  have live (s : Addr) : s ∈ h.live ↔ s ∈ front ++ p :: h.tail :: [] := whole ▸ rep.live s
  have pLive : p ∈ h.live := (live p).mpr (by simp)
  have tailLive : h.tail ∈ h.live := (live h.tail).mpr (by simp)
  have outside (b : Addr) (member : b ∈ front ++ p :: h.tail :: []) : b ≠ i := by
    rintro rfl
    exact fresh ((live b).mpr member)
  have pOther : p ≠ i := outside p (by simp)
  have tailOther : h.tail ≠ i := outside h.tail (by simp)
  obtain ⟨headApart, tailApart, apart⟩ := nodup_ends distinct frontEq behindEq
  have same : blocks (inserted h i p record) (cells ++ [(i, record)]) =
      front ++ p :: i :: h.tail :: [] := longer
  refine ⟨p, linked.neighbours.2, pLive, pOther, apart, ?_⟩
  constructor
  case linked =>
    rw [same]
    apply linked.insert distinct
    · rw [nextOf_inserted pLive, if_neg pOther, if_pos rfl]
    · rw [nextOf_inserted pLive, if_pos rfl]
    · rw [prevOf_inserted tailLive tailOther, if_neg tailOther, if_pos rfl]
    · rw [prevOf_inserted tailLive tailOther, if_pos rfl]
    · intro b member other
      rw [nextOf_inserted pLive, if_neg (outside b member), if_neg other]
    · intro b member other
      rw [prevOf_inserted tailLive tailOther, if_neg (outside b member), if_neg other]
  case headSelf =>
    have inside : h.head ∈ front ++ p :: h.tail :: [] := by simp [← whole, blocks]
    change prevOf (inserted h i p record) h.head = some h.head
    rw [prevOf_inserted tailLive tailOther, if_neg (outside _ inside), if_neg headApart]
    exact rep.headSelf
  case tailSelf =>
    change nextOf (inserted h i p record) h.tail = some h.tail
    rw [nextOf_inserted pLive, if_neg tailOther, if_neg tailApart]
    exact rep.tailSelf
  case records =>
    intro cell member
    rw [recordOf_inserted]
    rcases List.mem_append.mp member with old | new
    · rw [if_neg (outside _ (whole ▸ mem_blocks old))]
      exact rep.records cell old
    · rw [List.mem_singleton.mp new, if_pos rfl]
  case distinct =>
    rw [same]
    exact nodup_between.mpr ⟨fun member => outside i member rfl, distinct⟩
  case live =>
    intro s
    rw [inserted_live, Finset.mem_insert, live, same]
    simp only [List.mem_append, List.mem_cons]
    grind

/-- A block that is freed again leaves nothing behind. -/
theorem Represents.freed (rep : Represents h cells) {i : Addr} (fresh : i ∉ h.live) :
    Represents (free (h.withBlock i) i) cells := by
  have live : (free (h.withBlock i) i).live = h.live := Finset.erase_insert fresh
  have same (s : Addr) : read (free (h.withBlock i) i) s = read h s := by
    by_cases here : s = i
    · subst here
      rw [read, read, live, if_neg fresh, if_neg fresh]
    · rw [read_free here, read_withBlock here]
  have next : nextOf (free (h.withBlock i) i) = nextOf h := by
    funext s
    rw [nextOf, same, nextOf]
  have prev : prevOf (free (h.withBlock i) i) = prevOf h := by
    funext s
    rw [prevOf, same, prevOf]
  have record : recordOf (free (h.withBlock i) i) = recordOf h := by
    funext s
    rw [recordOf, same, recordOf]
  refine ⟨?_, ?_, ?_, ?_, rep.distinct, ?_⟩
  · rw [next, prev]
    exact rep.linked
  · rw [prev]
    exact rep.headSelf
  · rw [next]
    exact rep.tailSelf
  · rw [record]
    exact rep.records
  · rw [live]
    exact rep.live

theorem Represents.head_ne_tail (rep : Represents h cells) : h.tail ≠ h.head := by
  have apart := (List.nodup_cons.mp rep.distinct).1
  intro same
  exact apart (same ▸ by simp)

/-- An `insert_timer_list` that works. -/
theorem insertTimerList_works (rep : Represents h cells) (id : Int) (period : Int32)
    (callback : Option Action) {call : StartCall} {tp : Timeval} {i : Addr}
    (allocated : call.mallocOk = true) (time : call.gettimeofday = some tp) (fresh : i ∉ h.live) :
    ∃ next, insertTimerList h id period callback call i = some (0, next) ∧
      Represents next (cells ++ [(i, filled id period callback call tp)]) := by
  obtain ⟨p, back, pLive, pOther, pTail, kept⟩ :=
    rep.append fresh (filled id period callback call tp)
  refine ⟨_, ?_, kept⟩
  have tailLive : h.tail ∈ h.live := nextOf_live rep.tailSelf
  have tailOther : h.tail ≠ i := by
    intro same
    exact fresh (same ▸ tailLive)
  let record := filled id period callback call tp
  let h₁ := (h.withBlock i).withRecord i record
  let h₂ := h₁.withNext p i
  let h₃ := h₂.withPrev i p
  let h₄ := h₃.withNext i h.tail
  have iLive : i ∈ insert i h.live := Finset.mem_insert_self i h.live
  have alloc : malloc h i = some (h.withBlock i) := if_neg fresh
  have fill : setRecord (h.withBlock i) i record = some h₁ := if_pos iLive
  have backOne : prevOf h₁ h.tail = some p := by
    rw [prevOf_withRecord, prevOf_withBlock tailOther, back]
  have linkOne : setNext h₁ p i = some h₂ := if_pos (Finset.mem_insert_of_mem pLive)
  have backTwo : prevOf h₂ h.tail = some p := by rw [prevOf_withNext, backOne]
  have linkTwo : setPrev h₂ i p = some h₃ := if_pos iLive
  have linkThree : setNext h₃ i h.tail = some h₄ := if_pos iLive
  have linkFour : setPrev h₄ h.tail i = some (h₄.withPrev h.tail i) :=
    if_pos (Finset.mem_insert_of_mem tailLive)
  have apart : ¬ h₁.tail = h₁.head := rep.head_ne_tail
  have sameTail : h₁.tail = h.tail := rfl
  rw [insertTimerList, if_pos allocated]
  simp only [Option.bind_eq_bind, alloc, Option.bind_some, time]
  rw [fill, Option.bind_some, if_neg apart, sameTail]
  simp only [backOne, Option.bind_some, linkOne, backTwo, linkTwo, linkThree, linkFour]
  rfl

/-- `insert_timer_list` does what it does on the plain list, when its block is not in use. -/
theorem insertTimerList_refines (rep : Represents h cells) (id : Int) (period : Int32)
    (callback : Option Action) (call : StartCall) {i : Addr} (fresh : i ∉ h.live) :
    ∃ ret next rest, insertTimerList h id period callback call i = some (ret, next) ∧
      Represents next rest ∧
      Timer.insertTimerList (cells.map Prod.snd) id period callback call =
        (ret, rest.map Prod.snd) := by
  by_cases allocated : call.mallocOk
  · cases time : call.gettimeofday with
    | none =>
        refine ⟨-1, _, cells, ?_, rep.freed fresh, ?_⟩
        · have alloc : malloc h i = some (h.withBlock i) := if_neg fresh
          rw [insertTimerList, if_pos allocated, time, alloc]
          rfl
        · rw [Timer.insertTimerList, if_pos allocated, time]
    | some tp =>
        obtain ⟨next, done, kept⟩ :=
          insertTimerList_works rep id period callback allocated time fresh
        refine ⟨0, next, _, done, kept, ?_⟩
        rw [Timer.insertTimerList, if_pos allocated, time]
        simp [filled]
  · exact ⟨-1, h, cells, if_neg allocated, rep, if_neg allocated⟩

theorem find?_none {id : Int} (absent : ∀ cell ∈ cells, cell.2.id ≠ id) :
    cells.find? (fun cell => decide (cell.2.id = id)) = none :=
  List.find?_eq_none.mpr fun cell member => by simpa using absent cell member

theorem find?_first {before after : List (Addr × TimerRecord)} {a : Addr} {record : TimerRecord}
    {id : Int} (same : record.id = id) (earlier : ∀ cell ∈ before, cell.2.id ≠ id) :
    (before ++ (a, record) :: after).find? (fun cell => decide (cell.2.id = id)) =
      some (a, record) := by
  rw [List.find?_append, find?_none earlier, Option.none_or,
    List.find?_cons_of_pos (by simpa using same)]

theorem Represents.ne_tail {before after : List (Addr × TimerRecord)} {a : Addr}
    {record : TimerRecord} (rep : Represents h (before ++ (a, record) :: after)) :
    a ≠ h.tail := by
  have distinct := rep.distinct
  simp only [blocks, addrs_append, addrs_cons, List.nodup_cons, List.nodup_append] at distinct
  exact distinct.2.2.2 a (by simp) h.tail (by simp)

/-- A `delete_timer_list` that finds a record. -/
theorem deleteTimerList_first {before after : List (Addr × TimerRecord)} {a : Addr}
    {record : TimerRecord} (rep : Represents h (before ++ (a, record) :: after)) {id : Int}
    (positive : 0 < id) (same : record.id = id) (earlier : ∀ cell ∈ before, cell.2.id ≠ id) :
    ∃ next, deleteTimerList h id = some (0, next) ∧ Represents next (before ++ after) := by
  obtain ⟨p, n, onward, back, pLive, nLive, pOther, nOther, apart, kept⟩ := rep.remove
  refine ⟨_, ?_, kept⟩
  have enough : (before ++ (a, record) :: after).length < h.live.card := by
    rw [rep.live_card]
    omega
  have found : searchTimerList h id h.live.card = some a := by
    rw [rep.search id enough, find?_first same earlier]
    rfl
  have linkOne : setNext h p n = some (h.withNext p n) := if_pos pLive
  have onwardTwo : nextOf (h.withNext p n) a = some n := by
    rw [nextOf_withNext pLive, if_neg pOther.symm, onward]
  have backTwo : prevOf (h.withNext p n) a = some p := by rw [prevOf_withNext, back]
  have linkTwo : setPrev (h.withNext p n) n p = some ((h.withNext p n).withPrev n p) :=
    if_pos nLive
  have valid : ¬ id ≤ 0 := by omega
  rw [deleteTimerList, if_neg valid, found]
  simp only [Option.bind_eq_bind, Option.bind_some, if_pos rep.ne_tail]
  simp only [back, onward, Option.bind_some, linkOne, onwardTwo, backTwo, linkTwo]

/-- A `delete_timer_list` that finds none. -/
theorem deleteTimerList_none (rep : Represents h cells) {id : Int}
    (absent : ∀ cell ∈ cells, cell.2.id ≠ id) : deleteTimerList h id = some (-1, h) := by
  have enough : cells.length < h.live.card := by
    rw [rep.live_card]
    omega
  have found : searchTimerList h id h.live.card = some h.tail := by
    rw [rep.search id enough, find?_none absent]
    rfl
  unfold deleteTimerList
  split
  · rfl
  · rw [found]
    simp

/-- A list has a first record with an id, or none. -/
theorem first_or_none (cells : List (Addr × TimerRecord)) (id : Int) :
    (∀ cell ∈ cells, cell.2.id ≠ id) ∨
      ∃ before a record after, cells = before ++ (a, record) :: after ∧ record.id = id ∧
        ∀ cell ∈ before, cell.2.id ≠ id := by
  cases found : cells.find? fun cell => decide (cell.2.id = id) with
  | none =>
      apply Or.inl
      intro cell member
      simpa using List.find?_eq_none.mp found cell member
  | some cell =>
      obtain ⟨same, before, after, split, earlier⟩ := List.find?_eq_some_iff_append.mp found
      refine Or.inr ⟨before, cell.1, cell.2, after, split, by simpa using same, ?_⟩
      intro other member
      simpa using earlier other member

/-- `delete_timer_list` does what it does on the plain list. -/
theorem deleteTimerList_refines (rep : Represents h cells) (id : Int) :
    ∃ ret next rest, deleteTimerList h id = some (ret, next) ∧ Represents next rest ∧
      Timer.deleteTimerList (cells.map Prod.snd) id = (ret, rest.map Prod.snd) := by
  by_cases valid : id ≤ 0
  · exact ⟨-1, h, cells, if_pos valid, rep, if_pos valid⟩
  rcases first_or_none cells id with absent | ⟨before, a, record, after, rfl, same, earlier⟩
  · refine ⟨-1, h, cells, deleteTimerList_none rep absent, rep, ?_⟩
    have none_ : Timer.searchTimerList (cells.map Prod.snd) id = none := by
      apply Timer.searchTimerList_none.mpr
      simpa using absent
    rw [Timer.deleteTimerList, if_neg valid, none_]
  · obtain ⟨next, done, kept⟩ := deleteTimerList_first rep (by omega) same earlier
    refine ⟨0, next, before ++ after, done, kept, ?_⟩
    have positive : 1 ≤ record.id := by omega
    rw [List.map_append, List.map_cons, List.map_append, ← same]
    apply Timer.deleteTimerList_first positive
    intro other member
    obtain ⟨cell, inside, here⟩ := List.mem_map.mp member
    exact here ▸ same ▸ earlier cell inside

end Represented

section Nodes

/-- A block of a record; `head` and `tail` stand for the ends of the list. -/
def inner (h : Heap) (s : Addr) : Option Addr := if s = h.head ∨ s = h.tail then none else some s

/-- The heap without `head` and `tail`, as the thread of the timers walks it. -/
def nodeList (h : Heap) : NodeList Addr TimerRecord where
  nodes s := if s = h.head ∨ s = h.tail then none else
    (recordOf h s).map fun item =>
      ⟨(nextOf h s).bind (inner h), (prevOf h s).bind (inner h), item⟩
  first := (nextOf h h.head).bind (inner h)
  last := (prevOf h h.tail).bind (inner h)

variable {h : Heap} {cells : List (Addr × TimerRecord)}

/-- The list behind a block. -/
theorem segment_behind {p : Addr}
    (linked : Linked (nextOf h) (prevOf h) (p :: (addrs cells ++ [h.tail])))
    (records : ∀ cell ∈ cells, recordOf h cell.1 = some cell.2)
    (apart : ∀ a ∈ addrs cells, inner h a = some a) :
    Dlist.Segment (nodeList h).nodes (inner h p) ((nextOf h p).bind (inner h)) cells none
      (nodeList h).last := by
  induction cells generalizing p with
  | nil =>
      obtain ⟨next, back⟩ := linked.neighbours_first
      have atTail : inner h h.tail = none := if_pos (Or.inr rfl)
      rw [next]
      exact ⟨atTail, by rw [nodeList, back]; rfl⟩
  | cons cell rest ih =>
      obtain ⟨next, back⟩ := linked.neighbours_first
      rw [addrs_cons, List.forall_mem_cons] at apart
      rw [List.forall_mem_cons] at records
      have inside : ¬ (cell.1 = h.head ∨ cell.1 = h.tail) := by
        intro ends
        have none_ : inner h cell.1 = none := if_pos ends
        rw [apart.1] at none_
        cases none_
      have node : (nodeList h).nodes cell.1 =
          some ⟨(nextOf h cell.1).bind (inner h), inner h p, cell.2⟩ := by
        rw [nodeList]
        simp only [if_neg inside, records.1, back, Option.map_some, Option.bind_some]
      have behind := ih linked.tail records.2 apart.2
      rw [apart.1] at behind
      rw [next]
      exact ⟨apart.1, _, node, behind⟩

/-- What the heap represents, its nodes hold. -/
theorem Represents.nodeList (rep : Represents h cells) : Dlist.Linked (nodeList h) cells := by
  have distinct := rep.distinct
  simp only [blocks, List.nodup_cons, List.nodup_append] at distinct
  have apart : ∀ a ∈ addrs cells, inner h a = some a := by
    intro a member
    apply if_neg
    rintro (rfl | rfl)
    · exact distinct.1 (List.mem_append_left _ member)
    · exact distinct.2.2.2 _ member _ (List.mem_singleton.mpr rfl) rfl
  constructor
  case segment =>
    have atHead : inner h h.head = none := if_pos (Or.inl rfl)
    have segment := segment_behind rep.linked rep.records apart
    rw [atHead] at segment
    exact segment
  case distinct => exact distinct.2.1
  case only =>
    intro a found
    by_cases ends : a = h.head ∨ a = h.tail
    · exact absurd (if_pos ends) found
    · have live : a ∈ h.live := by
        by_contra dead
        apply found
        simp [TimerList.nodeList, recordOf, read, dead]
      have inside := (rep.live a).mp live
      simp only [blocks, List.mem_cons, List.mem_append, List.not_mem_nil, or_false] at inside
      tauto

end Nodes

/-- A step on the heap is the same step on the plain list. -/
theorem step_refines {h next : Heap} {cells : List (Addr × TimerRecord)} (rep : Represents h cells)
    {event : Event} (stepped : step h event = some next) :
    ∃ rest, Represents next rest ∧ rest.map Prod.snd = listed (cells.map Prod.snd) event := by
  cases event with
  | insert id period callback call i =>
      obtain ⟨⟨ret, _⟩, inserted, rfl⟩ := Option.map_eq_some_iff.mp stepped
      by_cases fresh : i ∈ h.live
      · by_cases allocated : call.mallocOk
        · have refused : malloc h i = none := if_pos fresh
          rw [insertTimerList, if_pos allocated, refused] at inserted
          cases inserted
        · rw [insertTimerList, if_neg allocated] at inserted
          cases inserted
          refine ⟨cells, rep, ?_⟩
          rw [listed, Timer.insertTimerList, if_neg allocated]
      · obtain ⟨other, after, rest, done, kept, same⟩ :=
          insertTimerList_refines rep id period callback call fresh
        cases inserted.symm.trans done
        exact ⟨rest, kept, (congrArg Prod.snd same).symm⟩
  | delete id =>
      obtain ⟨⟨ret, _⟩, deleted, rfl⟩ := Option.map_eq_some_iff.mp stepped
      obtain ⟨other, after, rest, done, kept, same⟩ := deleteTimerList_refines rep id
      cases deleted.symm.trans done
      exact ⟨rest, kept, (congrArg Prod.snd same).symm⟩

section Run

variable {first second : Option Addr} {start final : Heap} {events : List Event}

/-- Every run since `init_dlist` leaves the list that its calls give on a plain list. -/
theorem run_represents (started : initDlist first second = some start)
    (reached : run step start events = some final) :
    ∃ cells, Represents final cells ∧ cells.map Prod.snd = events.foldl listed [] := by
  apply run_simulates (fun h list => ∃ cells, Represents h cells ∧ cells.map Prod.snd = list)
    _ ⟨[], initDlist_represents started, rfl⟩ reached
  intro h event next list before stepped
  obtain ⟨cells, rep, rfl⟩ := before
  exact step_refines rep stepped

/-- The thread of the timers finds the same list on its way. -/
theorem run_nodeList (started : initDlist first second = some start)
    (reached : run step start events = some final) :
    ∃ cells, Dlist.Linked (nodeList final) cells ∧
      cells.map Prod.snd = events.foldl listed [] := by
  obtain ⟨cells, rep, same⟩ := run_represents started reached
  exact ⟨cells, rep.nodeList, same⟩

end Run

/-- After any calls since `init_dlist`, the blocks are the list that the calls give on a plain
list, in both directions; a search ends at `tail` when no record has the id, a new record goes
to the end, and a deletion takes out the first record with its id or does nothing. -/
theorem run_sequence {first second : Option Addr} {start final : Heap}
    (started : initDlist first second = some start) {events : List Event}
    (reached : run step start events = some final) :
    ∃ cells, cells.map Prod.snd = events.foldl listed [] ∧ Represents final cells ∧
      (∀ id, ∃ found, (∀ fuel, cells.length < fuel → searchTimerList final id fuel = some found) ∧
        (found = final.tail ↔ ∀ cell ∈ cells, cell.2.id ≠ id)) ∧
      (∀ id period callback call tp i, call.mallocOk = true → call.gettimeofday = some tp →
        i ∉ final.live → ∃ next,
          insertTimerList final id period callback call i = some (0, next) ∧
          Represents next (cells ++ [(i, filled id period callback call tp)])) ∧
      ∀ id, 0 < id →
        ((∀ cell ∈ cells, cell.2.id ≠ id) ∧ deleteTimerList final id = some (-1, final)) ∨
          ∃ before a record after next, cells = before ++ (a, record) :: after ∧
            record.id = id ∧ (∀ cell ∈ before, cell.2.id ≠ id) ∧
            deleteTimerList final id = some (0, next) ∧ Represents next (before ++ after) := by
  obtain ⟨cells, rep, same⟩ := run_represents started reached
  refine ⟨cells, same, rep, ?_, ?_, ?_⟩
  · intro id
    refine ⟨_, fun fuel enough => rep.search id enough, ?_⟩
    rcases first_or_none cells id with absent | ⟨before, a, record, after, rfl, found, earlier⟩
    · rw [find?_none absent]
      exact ⟨fun _ => absent, fun _ => rfl⟩
    · rw [find?_first found earlier]
      constructor
      · intro atTail
        exact absurd atTail rep.ne_tail
      · intro none_
        exact absurd found (none_ (a, record) (by simp))
  · intro id period callback call tp i allocated time fresh
    exact insertTimerList_works rep id period callback allocated time fresh
  · intro id positive
    rcases first_or_none cells id with absent | ⟨before, a, record, after, rfl, found, earlier⟩
    · exact Or.inl ⟨absent, deleteTimerList_none rep absent⟩
    · obtain ⟨next, done, kept⟩ := deleteTimerList_first rep positive found earlier
      exact Or.inr ⟨before, a, record, after, next, rfl, found, earlier, done, kept⟩

/-- Two timers, the first of which is deleted again. -/
theorem run_sequence_two :
    ∃ start final, initDlist (some 0) (some 1) = some start ∧
      run step start
        [.insert 5 100 none ⟨100, none, 0, 0, 0, 3, true, some ⟨7, 0⟩⟩ 2,
          .insert 6 200 none ⟨200, none, 0, 0, 0, 3, true, some ⟨7, 0⟩⟩ 3,
          .delete 5] = some final ∧
      ∃ cells, cells.map (TimerRecord.id ∘ Prod.snd) = [6] ∧ Represents final cells := by
  obtain ⟨start, started⟩ : ∃ start, initDlist (some 0) (some 1) = some start := ⟨_, rfl⟩
  obtain ⟨final, reached⟩ : ∃ final, (initDlist (some 0) (some 1)).bind (fun start =>
      run step start
        [.insert 5 100 none ⟨100, none, 0, 0, 0, 3, true, some ⟨7, 0⟩⟩ 2,
          .insert 6 200 none ⟨200, none, 0, 0, 0, 3, true, some ⟨7, 0⟩⟩ 3,
          .delete 5]) = some final := ⟨_, rfl⟩
  rw [started, Option.bind_some] at reached
  obtain ⟨cells, same, rep, _⟩ := run_sequence started reached
  refine ⟨start, final, started, reached, cells, ?_, rep⟩
  rw [← List.map_map, same]
  decide

end VnfMonitoring.TimerList
