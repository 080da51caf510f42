import VnfMonitoring.Lib.Memory

set_option autoImplicit false

/- Sequences of stores into one object: what a region of it holds in the end when the
stores are meant for separate fields, and some may run past theirs. -/
namespace VnfMonitoring.Fields

open VnfMonitoring.Memory

variable {n : Nat}

/-- The bytes of a region, as far as it is inside the object. -/
def region (memory : Bytes n) (offset width : Nat) : List UInt8 :=
  (memory.toList.drop offset).take width

theorem region_getElem? (memory : Bytes n) (offset width j : Nat) :
    (region memory offset width)[j]? = if j < width then memory.toList[offset + j]? else none := by
  rw [region, List.getElem?_take, List.getElem?_drop]

theorem loadBytes_region {memory : Bytes n} {offset width : Nat} (inside : offset + width ≤ n) :
    ∃ loaded, loadBytes memory offset width = some loaded ∧
      loaded.toList = region memory offset width :=
  loadBytes_of_toList inside rfl

/-- A store changes its own bytes. -/
theorem storeBytes_getElem? {memory changed : Bytes n} {offset : Nat} {bytes : List UInt8}
    (stored : storeBytes memory offset bytes = some changed) (i : Nat) :
    changed.toList[i]? =
      if offset ≤ i ∧ i < offset + bytes.length then bytes[i - offset]? else memory.toList[i]? := by
  obtain ⟨inside, same⟩ := storeBytes_eq stored
  have size := memory.length_toList
  have front : (memory.toList.take offset).length = offset := by
    rw [List.length_take]
    omega
  rw [same, List.append_assoc]
  by_cases before : i < offset
  · rw [List.getElem?_append_left (by omega), List.getElem?_take, if_pos before, if_neg (by omega)]
  · rw [List.getElem?_append_right (by omega), front]
    by_cases within : i < offset + bytes.length
    · rw [List.getElem?_append_left (by omega), if_pos ⟨by omega, within⟩]
    · rw [List.getElem?_append_right (by omega), List.getElem?_drop, if_neg (by omega)]
      congr 1
      omega

/-- A store touches no byte of a region. -/
def Misses (offset width : Nat) (store : Nat × List UInt8) : Prop :=
  store.1 + store.2.length ≤ offset ∨ offset + width ≤ store.1

theorem region_misses {memory changed : Bytes n} {offset width : Nat} {store : Nat × List UInt8}
    (misses : Misses offset width store)
    (stored : storeBytes memory store.1 store.2 = some changed) :
    region changed offset width = region memory offset width := by
  apply List.ext_getElem?
  intro j
  rw [region_getElem?, region_getElem?]
  split
  · rename_i within
    unfold Misses at misses
    rw [storeBytes_getElem? stored, if_neg (by omega)]
  · rfl

/-- A store at the start of a region, which keeps what the bytes do not reach. -/
theorem region_store {memory changed : Bytes n} {offset : Nat} {bytes : List UInt8}
    (stored : storeBytes memory offset bytes = some changed) (width : Nat) :
    region changed offset width =
      (bytes ++ (region memory offset width).drop bytes.length).take width := by
  apply List.ext_getElem?
  intro j
  rw [region_getElem?, List.getElem?_take]
  split
  · rename_i within
    rw [storeBytes_getElem? stored]
    by_cases reached : j < bytes.length
    · rw [if_pos (by omega), List.getElem?_append_left reached, Nat.add_sub_cancel_left]
    · rw [if_neg (by omega), List.getElem?_append_right (by omega), List.getElem?_drop,
        region_getElem?, if_pos (by omega)]
      congr 1
      omega
  · rfl

/-- Stores one after the other, absent when one of them leaves the object. -/
def storeAll (memory : Bytes n) : List (Nat × List UInt8) → Option (Bytes n)
  | [] => some memory
  | store :: rest =>
      (storeBytes memory store.1 store.2).bind fun memory => storeAll memory rest

theorem storeAll_append (memory : Bytes n) (stores others : List (Nat × List UInt8)) :
    storeAll memory (stores ++ others) =
      (storeAll memory stores).bind fun memory => storeAll memory others := by
  induction stores generalizing memory with
  | nil => rfl
  | cons store stores ih =>
      rw [List.cons_append, storeAll, storeAll, Option.bind_assoc]
      exact Option.bind_congr fun changed _ => ih changed

theorem storeAll_some {memory final : Bytes n} {stores others : List (Nat × List UInt8)}
    (stored : storeAll memory (stores ++ others) = some final) :
    ∃ middle, storeAll memory stores = some middle ∧ storeAll middle others = some final := by
  rw [storeAll_append] at stored
  exact Option.bind_eq_some_iff.mp stored

theorem storeAll_isSome (memory : Bytes n) (stores : List (Nat × List UInt8)) :
    (storeAll memory stores).isSome ↔ ∀ store ∈ stores, store.1 + store.2.length ≤ n := by
  induction stores generalizing memory with
  | nil => simp [storeAll]
  | cons store stores ih =>
      rw [List.forall_mem_cons, ← storeBytes_isSome memory]
      cases first : storeBytes memory store.1 store.2 with
      | none => simp [storeAll, first]
      | some changed => simpa [storeAll, first] using ih changed

theorem region_storeAll {memory final : Bytes n} {offset width : Nat}
    {stores : List (Nat × List UInt8)} (misses : ∀ store ∈ stores, Misses offset width store)
    (stored : storeAll memory stores = some final) :
    region final offset width = region memory offset width := by
  induction stores generalizing memory with
  | nil =>
      cases stored
      rfl
  | cons store stores ih =>
      obtain ⟨changed, first, rest⟩ := Option.bind_eq_some_iff.mp stored
      rw [ih (fun other member => misses other (List.mem_cons_of_mem _ member)) rest,
        region_misses (misses store List.mem_cons_self) first]

/-- A field of the object, with the bytes that are stored at its start, if any. -/
structure Field where
  offset : Nat
  width : Nat
  bytes : Option (List UInt8)

def Field.Fits (field : Field) : Prop := ∀ bytes ∈ field.bytes, bytes.length ≤ field.width

def Field.Apart (field other : Field) : Prop :=
  field.offset + field.width ≤ other.offset ∨ other.offset + other.width ≤ field.offset

/-- What the field holds once its bytes are stored. -/
def Field.image (field : Field) (old : List UInt8) : List UInt8 :=
  match field.bytes with
  | some bytes => (bytes ++ old.drop bytes.length).take field.width
  | none => old

/-- The stores for a list of fields. -/
def fieldStores (fields : List Field) : List (Nat × List UInt8) :=
  fields.filterMap fun field => field.bytes.map fun bytes => (field.offset, bytes)

theorem mem_fieldStores {fields : List Field} {store : Nat × List UInt8} :
    store ∈ fieldStores fields ↔
      ∃ field ∈ fields, ∃ bytes ∈ field.bytes, (field.offset, bytes) = store := by
  simp only [fieldStores, List.mem_filterMap, Option.map_eq_some_iff, Option.mem_def]

theorem Field.misses {field other : Field} (apart : field.Apart other) (fits : other.Fits)
    {bytes : List UInt8} (stored : bytes ∈ other.bytes) :
    Misses field.offset field.width (other.offset, bytes) := by
  have short := fits bytes stored
  unfold Field.Apart at apart
  unfold Misses
  dsimp only
  omega

/-- The store of one field, if there is any. -/
def Field.store (field : Field) (memory : Bytes n) : Option (Bytes n) :=
  match field.bytes with
  | some bytes => storeBytes memory field.offset bytes
  | none => some memory

theorem storeAll_cons_field (memory : Bytes n) (field : Field) (fields : List Field) :
    storeAll memory (fieldStores (field :: fields)) =
      (field.store memory).bind fun memory => storeAll memory (fieldStores fields) := by
  unfold fieldStores Field.store
  rw [List.filterMap_cons]
  cases field.bytes <;> rfl

theorem fieldStores_append (fields others : List Field) :
    fieldStores (fields ++ others) = fieldStores fields ++ fieldStores others :=
  List.filterMap_append

/-- The stores in front of a field's own, that one, and those behind it. -/
theorem fieldStores_split (front behind : List Field) (field : Field) :
    fieldStores (front ++ field :: behind) = fieldStores front ++
      ((field.bytes.map fun bytes => (field.offset, bytes)).toList ++ fieldStores behind) := by
  unfold fieldStores
  rw [List.filterMap_append, List.filterMap_cons]
  cases field.bytes <;> rfl

/-- Separate fields whose bytes fit hold their bytes. -/
theorem storeAll_fields {memory final : Bytes n} {fields : List Field}
    (apart : fields.Pairwise Field.Apart) (fits : ∀ field ∈ fields, field.Fits)
    (stored : storeAll memory (fieldStores fields) = some final) {field : Field}
    (member : field ∈ fields) :
    region final field.offset field.width =
      field.image (region memory field.offset field.width) := by
  obtain ⟨front, behind, rfl⟩ := List.append_of_mem member
  obtain ⟨_, others, across⟩ := List.pairwise_append.mp apart
  have frontMisses : ∀ store ∈ fieldStores front,
      Misses field.offset field.width store := by
    intro store here
    obtain ⟨other, inFront, bytes, own, rfl⟩ := mem_fieldStores.mp here
    refine Field.misses (across other inFront field List.mem_cons_self).symm ?_ own
    exact fits other (List.mem_append_left _ inFront)
  have behindMisses : ∀ store ∈ fieldStores behind,
      Misses field.offset field.width store := by
    intro store here
    obtain ⟨other, inBehind, bytes, own, rfl⟩ := mem_fieldStores.mp here
    refine Field.misses ((List.pairwise_cons.mp others).1 other inBehind) ?_ own
    exact fits other (List.mem_append_right _ (List.mem_cons_of_mem _ inBehind))
  rw [fieldStores_split] at stored
  obtain ⟨first, before, rest⟩ := storeAll_some stored
  obtain ⟨second, own, after⟩ := storeAll_some rest
  rw [region_storeAll behindMisses after, ← region_storeAll frontMisses before, Field.image]
  cases bytes : field.bytes with
  | none =>
      rw [bytes] at own
      cases own
      rfl
  | some bytes' =>
      rw [bytes] at own
      obtain ⟨changed, here, done⟩ := Option.bind_eq_some_iff.mp own
      cases done
      exact region_store here field.width

theorem load32_eq {order : ByteOrder} {memory : Bytes n} {offset : Nat} (inside : offset + 4 ≤ n) :
    load32 order memory offset =
      some (UInt32.ofNat (order.valueOf (region memory offset 4))) := by
  obtain ⟨loaded, found, same⟩ := loadBytes_region inside
  rw [load32, found, Option.map_some, same]

theorem load16_eq {order : ByteOrder} {memory : Bytes n} {offset : Nat} (inside : offset + 2 ≤ n) :
    load16 order memory offset =
      some (UInt16.ofNat (order.valueOf (region memory offset 2))) := by
  obtain ⟨loaded, found, same⟩ := loadBytes_region inside
  rw [load16, found, Option.map_some, same]

theorem load32_region {order : ByteOrder} {memory : Bytes n} {offset : Nat} {x : UInt32}
    (inside : offset + 4 ≤ n) (same : region memory offset 4 = order.bytesOf 4 x.toNat) :
    load32 order memory offset = some x := by
  rw [load32_eq inside, same, order.valueOf_bytesOf 4 x.toNat x.toNat_lt, UInt32.ofNat_toNat]

theorem load16_region {order : ByteOrder} {memory : Bytes n} {offset : Nat} {x : UInt16}
    (inside : offset + 2 ≤ n) (same : region memory offset 2 = order.bytesOf 2 x.toNat) :
    load16 order memory offset = some x := by
  rw [load16_eq inside, same, order.valueOf_bytesOf 2 x.toNat x.toNat_lt, UInt16.ofNat_toNat]

theorem region_zero {offset width : Nat} (inside : offset + width ≤ n) :
    region (Bytes.zero n) offset width = List.replicate width 0 := by
  rw [region, Bytes.zero, List.drop_replicate, List.take_replicate]
  congr 1
  omega

theorem littleBytes_zero (width : Nat) : littleBytes width 0 = List.replicate width 0 := by
  induction width with
  | zero => rfl
  | succ width ih => rw [littleBytes, Nat.zero_div, ih, List.replicate_succ]; rfl

/-- A field of a row of fields of one width. -/
theorem flatten_field {width : Nat} {fields : List (List UInt8)}
    (each : ∀ field ∈ fields, field.length = width) {k : Nat} {field : List UInt8}
    (here : fields[k]? = some field) :
    (fields.flatten.drop (width * k)).take width = field := by
  induction fields generalizing k with
  | nil => cases here
  | cons first rest ih =>
      rw [List.forall_mem_cons] at each
      cases k with
      | zero =>
          cases here
          rw [Nat.mul_zero, List.drop_zero, List.flatten_cons, ← each.1, List.take_left]
      | succ k =>
          have past : width * (k + 1) = first.length + width * k := by
            rw [each.1, Nat.mul_succ, Nat.add_comm]
          rw [past, List.flatten_cons, ← List.drop_drop, List.drop_left]
          exact ih each.2 here

/-- A cleared integer is zero in both byte orders. -/
theorem bytesOf_zero (order : ByteOrder) (width : Nat) :
    order.bytesOf width 0 = List.replicate width 0 := by
  rw [ByteOrder.bytesOf, littleBytes_zero]
  cases order with
  | little => rfl
  | big => exact List.reverse_replicate

/-- An integer field that is assigned, or stays cleared. -/
theorem image_integer (order : ByteOrder) (offset width : Nat) (value : Option Nat) :
    Field.image ⟨offset, width, value.map (order.bytesOf width)⟩ (List.replicate width 0) =
      order.bytesOf width (value.getD 0) := by
  cases value with
  | none => exact (bytesOf_zero order width).symm
  | some value =>
      have size := order.bytesOf_length width value
      simp only [Field.image, Option.map_some, Option.getD_some]
      rw [List.take_append_of_le_length (by omega), List.take_of_length_le (by omega)]

end VnfMonitoring.Fields
