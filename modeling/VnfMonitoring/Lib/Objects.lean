import Mathlib.Data.List.Flatten
import Mathlib.Data.List.Perm.Basic
import Mathlib.Logic.Function.Basic
import VnfMonitoring.Lib.Fields
import VnfMonitoring.Lib.Runs

set_option autoImplicit false

/- The objects of a program, each an array of bytes: the byte that a sequence of writes
leaves at an address, what it keeps, and writes to separate places in any order. -/
namespace VnfMonitoring.Objects

open VnfMonitoring.Memory VnfMonitoring.Fields VnfMonitoring.Runs

variable {Obj : Type} {size : Obj → Nat}

/-- What the objects hold. -/
abbrev Contents (size : Obj → Nat) := (o : Obj) → Bytes (size o)

/-- A place in an object, such as a field of a structure. -/
structure Place (Obj : Type) where
  obj : Obj
  offset : Nat
  width : Nat
  deriving DecidableEq

def Place.Apart (p q : Place Obj) : Prop :=
  p.obj ≠ q.obj ∨ p.offset + p.width ≤ q.offset ∨ q.offset + q.width ≤ p.offset

instance [DecidableEq Obj] (p q : Place Obj) : Decidable (p.Apart q) :=
  inferInstanceAs (Decidable (_ ∨ _ ∨ _))

theorem Place.Apart.symm {p q : Place Obj} (apart : p.Apart q) : q.Apart p := by
  rcases apart with other | below | above
  · exact Or.inl (Ne.symm other)
  · exact Or.inr (Or.inr below)
  · exact Or.inr (Or.inl above)

/-- The bytes at a place, as far as it is inside the object. -/
def read (m : Contents size) (p : Place Obj) : List UInt8 := region (m p.obj) p.offset p.width

structure Write (Obj : Type) where
  obj : Obj
  offset : Nat
  bytes : List UInt8

def Write.place (w : Write Obj) : Place Obj := ⟨w.obj, w.offset, w.bytes.length⟩

def Write.Covers (w : Write Obj) (o : Obj) (i : Nat) : Prop :=
  w.obj = o ∧ w.offset ≤ i ∧ i < w.offset + w.bytes.length

theorem Place.Apart.covers {w v : Write Obj} (apart : w.place.Apart v.place) {o : Obj} {i : Nat}
    (covers : w.Covers o i) : ¬ v.Covers o i := by
  rintro ⟨rfl, low, high⟩
  obtain ⟨same, from_, upto⟩ := covers
  rcases apart with other | below | above
  · exact other same
  · simp only [Write.place] at below
    omega
  · simp only [Write.place] at above
    omega

theorem contents_ext {m other : Contents size}
    (same : ∀ (o : Obj) (i : Nat), (m o).toList[i]? = (other o).toList[i]?) : m = other := by
  funext o
  apply Bytes.ext
  exact List.ext_getElem? (same o)

variable [DecidableEq Obj]

/-- One write, absent when it leaves its object. -/
def write (m : Contents size) (w : Write Obj) : Option (Contents size) :=
  (storeBytes (m w.obj) w.offset w.bytes).map (Function.update m w.obj)

instance (w : Write Obj) (o : Obj) (i : Nat) : Decidable (w.Covers o i) :=
  inferInstanceAs (Decidable (_ ∧ _ ∧ _))

/-- The byte that a sequence of writes leaves at an address, if one of them reaches it. -/
def written : List (Write Obj) → Obj → Nat → Option UInt8
  | [], _, _ => none
  | w :: rest, o, i =>
      (written rest o i).or (if w.Covers o i then w.bytes[i - w.offset]? else none)

theorem write_isSome (m : Contents size) (w : Write Obj) :
    (write m w).isSome ↔ w.offset + w.bytes.length ≤ size w.obj := by
  rw [write, Option.isSome_map, storeBytes_isSome]

theorem write_getElem? {m changed : Contents size} {w : Write Obj}
    (done : write m w = some changed) (o : Obj) (i : Nat) :
    (changed o).toList[i]? = if w.Covers o i then w.bytes[i - w.offset]? else (m o).toList[i]? := by
  obtain ⟨bytes, stored, rfl⟩ := Option.map_eq_some_iff.mp done
  by_cases here : o = w.obj
  · subst here
    rw [Function.update_self, storeBytes_getElem? stored]
    simp only [Write.Covers, true_and]
  · rw [Function.update_of_ne here, if_neg fun covers => here covers.1.symm]

theorem read_write {m changed : Contents size} {w : Write Obj}
    (done : write m w = some changed) (width : Nat) :
    read changed ⟨w.obj, w.offset, width⟩ =
      (w.bytes ++ (read m ⟨w.obj, w.offset, width⟩).drop w.bytes.length).take width := by
  obtain ⟨bytes, stored, rfl⟩ := Option.map_eq_some_iff.mp done
  rw [read, Function.update_self]
  exact region_store stored width

theorem region_write {m changed : Contents size} {w : Write Obj}
    (done : write m w = some changed) :
    region (changed w.obj) w.offset w.bytes.length = w.bytes := by
  obtain ⟨bytes, stored, rfl⟩ := Option.map_eq_some_iff.mp done
  rw [Function.update_self, region_store stored, List.take_left]

theorem run_isSome_iff (m : Contents size) (writes : List (Write Obj)) :
    (run write m writes).isSome ↔
      ∀ w ∈ writes, w.offset + w.bytes.length ≤ size w.obj := by
  induction writes generalizing m with
  | nil => simp
  | cons w rest ih =>
      rw [List.forall_mem_cons, ← write_isSome m, run_cons]
      cases first : write m w with
      | none => simp
      | some changed => simpa using ih changed

theorem run_getElem? {m final : Contents size} {writes : List (Write Obj)}
    (done : run write m writes = some final) (o : Obj) (i : Nat) :
    (final o).toList[i]? = (written writes o i).or (m o).toList[i]? := by
  induction writes generalizing m with
  | nil =>
      cases done
      rfl
  | cons w rest ih =>
      obtain ⟨changed, first, later⟩ := run_cons_some done
      have inside := (write_isSome m w).mp (by rw [first]; rfl)
      rw [ih later, write_getElem? first, written, Option.or_assoc]
      congr 1
      split
      · rename_i covers
        obtain ⟨_, low, high⟩ := covers
        rw [List.getElem?_eq_getElem (by omega), Option.some_or]
      · rw [Option.none_or]

/-- Runs that leave the same bytes at every address are the same. -/
theorem run_congr {writes others : List (Write Obj)} (m : Contents size)
    (inside : (∀ w ∈ writes, w.offset + w.bytes.length ≤ size w.obj) ↔
      ∀ w ∈ others, w.offset + w.bytes.length ≤ size w.obj)
    (same : ∀ o i, written writes o i = written others o i) :
    run write m writes = run write m others := by
  rw [← run_isSome_iff m, ← run_isSome_iff m] at inside
  cases one : run write m writes with
  | none =>
      rw [one] at inside
      cases other : run write m others with
      | none => rfl
      | some final => simp [other] at inside
  | some final =>
      rw [one] at inside
      obtain ⟨reached, other⟩ := Option.isSome_iff_exists.mp (inside.mp rfl)
      rw [other]
      refine congrArg some (contents_ext fun o i => ?_)
      rw [run_getElem? one, run_getElem? other, same]

theorem written_append (writes others : List (Write Obj)) (o : Obj) (i : Nat) :
    written (writes ++ others) o i = (written others o i).or (written writes o i) := by
  induction writes with
  | nil => simp [written]
  | cons w rest ih => rw [List.cons_append, written, written, ih, Option.or_assoc]

theorem written_eq_none {writes : List (Write Obj)} {o : Obj} {i : Nat}
    (missed : ∀ w ∈ writes, ¬ w.Covers o i) : written writes o i = none := by
  induction writes with
  | nil => rfl
  | cons w rest ih =>
      rw [written, ih fun v member => missed v (List.mem_cons_of_mem _ member), Option.none_or,
        if_neg (missed w List.mem_cons_self)]

theorem covers_of_written {writes : List (Write Obj)} {o : Obj} {i : Nat}
    (reached : written writes o i ≠ none) : ∃ w ∈ writes, w.Covers o i := by
  by_contra missed
  exact reached (written_eq_none fun w member covers => missed ⟨w, member, covers⟩)

/-- From some contents, a byte that a write reaches is another one afterwards. -/
theorem exists_changed {writes : List (Write Obj)} {w : Write Obj} (member : w ∈ writes) {o : Obj}
    {i : Nat} (covers : w.Covers o i) : ∃ m : Contents size, ∀ final,
      run write m writes = some final → (final o).toList[i]? ≠ (m o).toList[i]? := by
  obtain ⟨b, reached⟩ : ∃ b, written writes o i = some b := by
    obtain ⟨front, behind, rfl⟩ := List.append_of_mem member
    obtain ⟨_, low, high⟩ := id covers
    rw [written_append, written, if_pos covers, List.getElem?_eq_getElem (by omega)]
    cases written behind o i with
    | none => exact ⟨_, rfl⟩
    | some other => exact ⟨other, rfl⟩
  refine ⟨fun o => ⟨List.replicate (size o) (b + 1), List.length_replicate⟩,
    fun final done same => ?_⟩
  rw [run_getElem? done, reached, Option.some_or] at same
  obtain ⟨_, other⟩ := List.getElem?_eq_some_iff.mp same.symm
  have differs : b + 1 = b := List.getElem_replicate .. |>.symm.trans other
  simp at differs

/-- Only no write at all leaves everything as it was from any contents. -/
theorem eq_nil_of_run {writes : List (Write Obj)} (some_ : ∀ w ∈ writes, w.bytes ≠ [])
    (same : ∀ m : Contents size, run write m writes = some m) : writes = [] := by
  apply List.eq_nil_iff_forall_not_mem.mpr
  intro w member
  have covers : w.Covers w.obj w.offset :=
    ⟨rfl, Nat.le_refl _, Nat.lt_add_of_pos_right (List.length_pos_iff.mpr (some_ w member))⟩
  obtain ⟨m, changed⟩ : ∃ m : Contents size, ∀ final, run write m writes = some final →
      (final w.obj).toList[w.offset]? ≠ (m w.obj).toList[w.offset]? := exists_changed member covers
  exact changed m (same m) rfl

/-- A place that no write touches keeps its bytes. -/
theorem read_run {m final : Contents size} {writes : List (Write Obj)} {p : Place Obj}
    (apart : ∀ w ∈ writes, w.place.Apart p) (done : run write m writes = some final) :
    read final p = read m p := by
  apply List.ext_getElem?
  intro j
  rw [read, read, region_getElem?, region_getElem?]
  split
  · rename_i within
    rw [run_getElem? done, written_eq_none, Option.none_or]
    rintro w member ⟨same, low, high⟩
    rcases apart w member with other | below | above
    · exact other same
    · simp only [Write.place] at below
      omega
    · simp only [Write.place] at above
      omega
  · rfl

/-- Writes to separate places may change their order. -/
theorem run_swap {writes others : List (Write Obj)}
    (apart : ∀ w ∈ writes, ∀ v ∈ others, w.place.Apart v.place) (m : Contents size) :
    run write m (writes ++ others) = run write m (others ++ writes) := by
  apply run_congr
  · simp only [List.mem_append, or_imp, forall_and]
    exact and_comm
  · intro o i
    rw [written_append, written_append]
    by_cases reached : written writes o i = none
    · rw [reached, Option.or_none, Option.none_or]
    · obtain ⟨w, member, covers⟩ := covers_of_written reached
      rw [written_eq_none fun v other => (apart w member v other).covers covers, Option.none_or,
        Option.or_none]

theorem run_flatten_cons (m : Contents size) (group : List (Write Obj))
    (groups : List (List (Write Obj))) :
    run write m (group :: groups).flatten =
      (run write m group).bind fun m => run write m groups.flatten := by
  rw [List.flatten_cons, run_append]

/-- So may whole groups of them. -/
theorem run_perm {groups others : List (List (Write Obj))} (same : groups.Perm others)
    (apart : groups.Pairwise fun g h => ∀ w ∈ g, ∀ v ∈ h, w.place.Apart v.place)
    (m : Contents size) : run write m groups.flatten = run write m others.flatten := by
  induction same generalizing m with
  | nil => rfl
  | cons group _ ih =>
      rw [run_flatten_cons, run_flatten_cons]
      exact Option.bind_congr fun changed _ => ih (List.pairwise_cons.mp apart).2 changed
  | swap first second groups =>
      have both := (List.pairwise_cons.mp apart).1 first List.mem_cons_self
      simp only [List.flatten_cons, ← List.append_assoc]
      rw [run_append, run_swap both, ← run_append]
  | trans first second ihFirst ihSecond =>
      rw [ihFirst apart, ihSecond (first.pairwise apart fun touching w member v other =>
        (touching v other w member).symm)]

end VnfMonitoring.Objects
