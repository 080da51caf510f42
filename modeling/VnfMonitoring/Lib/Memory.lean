import Mathlib.Algebra.Ring.Nat
import Mathlib.Data.List.Basic

set_option autoImplicit false

/- Byte-addressed memory of a C program: the two byte orders, bounds-checked
loads and stores, and NUL-terminated strings. An access outside an object has
no value, so a computation that succeeds stayed inside the object. -/
namespace VnfMonitoring.Memory

/-- Unsigned integers, least significant byte first. -/
def littleBytes : Nat → Nat → List UInt8
  | 0, _ => []
  | width + 1, value => UInt8.ofNat value :: littleBytes width (value / 256)

def littleValue : List UInt8 → Nat
  | [] => 0
  | byte :: rest => byte.toNat + 256 * littleValue rest

@[simp] theorem littleBytes_length (width value : Nat) :
    (littleBytes width value).length = width := by
  induction width generalizing value with
  | zero => rfl
  | succ width ih => simp only [littleBytes, List.length_cons, ih]

theorem littleValue_lt (bytes : List UInt8) : littleValue bytes < 256 ^ bytes.length := by
  induction bytes with
  | nil => decide
  | cons byte rest ih =>
      have small := byte.toNat_lt
      simp only [littleValue, List.length_cons, Nat.pow_succ]
      omega

theorem littleValue_littleBytes (width value : Nat) (fits : value < 256 ^ width) :
    littleValue (littleBytes width value) = value := by
  induction width generalizing value with
  | zero =>
      have zero : value = 0 := by simpa using fits
      subst zero
      rfl
  | succ width ih =>
      have quotient : value / 256 < 256 ^ width := by
        rw [Nat.div_lt_iff_lt_mul (by decide)]
        simpa only [Nat.pow_succ] using fits
      simp only [littleBytes, littleValue, ih _ quotient, UInt8.toNat_ofNat']
      exact Nat.mod_add_div value 256

theorem littleBytes_littleValue (bytes : List UInt8) :
    littleBytes bytes.length (littleValue bytes) = bytes := by
  induction bytes with
  | nil => rfl
  | cons byte rest ih =>
      have small := byte.toNat_lt
      have quotient : (byte.toNat + 256 * littleValue rest) / 256 = littleValue rest := by omega
      have low : UInt8.ofNat (byte.toNat + 256 * littleValue rest) = byte := by
        apply UInt8.toNat_inj.mp
        simp only [UInt8.toNat_ofNat']
        omega
      simp only [List.length_cons, littleBytes, littleValue, quotient, low, ih]

inductive ByteOrder where
  | little
  | big
  deriving DecidableEq, Repr

namespace ByteOrder

/-- Least-significant-first bytes in the order of increasing addresses, and back. -/
def arrange : ByteOrder → List UInt8 → List UInt8
  | little, bytes => bytes
  | big, bytes => bytes.reverse

@[simp] theorem arrange_length (order : ByteOrder) (bytes : List UInt8) :
    (order.arrange bytes).length = bytes.length := by
  cases order <;> simp [arrange]

@[simp] theorem arrange_arrange (order : ByteOrder) (bytes : List UInt8) :
    order.arrange (order.arrange bytes) = bytes := by
  cases order <;> simp [arrange]

/-- The memory image of an unsigned integer of `width` bytes. -/
def bytesOf (order : ByteOrder) (width value : Nat) : List UInt8 :=
  order.arrange (littleBytes width value)

/-- The unsigned integer a memory image stands for. -/
def valueOf (order : ByteOrder) (bytes : List UInt8) : Nat :=
  littleValue (order.arrange bytes)

@[simp] theorem bytesOf_length (order : ByteOrder) (width value : Nat) :
    (order.bytesOf width value).length = width := by
  simp only [bytesOf, arrange_length, littleBytes_length]

theorem valueOf_lt (order : ByteOrder) (bytes : List UInt8) :
    order.valueOf bytes < 256 ^ bytes.length := by
  simpa only [valueOf, arrange_length] using littleValue_lt (order.arrange bytes)

theorem valueOf_bytesOf (order : ByteOrder) (width value : Nat) (fits : value < 256 ^ width) :
    order.valueOf (order.bytesOf width value) = value := by
  simp only [valueOf, bytesOf, arrange_arrange, littleValue_littleBytes width value fits]

theorem bytesOf_valueOf (order : ByteOrder) (bytes : List UInt8) :
    order.bytesOf bytes.length (order.valueOf bytes) = bytes := by
  have image := littleBytes_littleValue (order.arrange bytes)
  rw [arrange_length] at image
  simp only [bytesOf, valueOf, image, arrange_arrange]

/-- `htons`: the value whose memory image is the big-endian image of the argument. -/
def htons (order : ByteOrder) (x : UInt16) : UInt16 :=
  UInt16.ofNat (order.valueOf (big.bytesOf 2 x.toNat))

def ntohs (order : ByteOrder) (x : UInt16) : UInt16 :=
  UInt16.ofNat (big.valueOf (order.bytesOf 2 x.toNat))

def htonl (order : ByteOrder) (x : UInt32) : UInt32 :=
  UInt32.ofNat (order.valueOf (big.bytesOf 4 x.toNat))

def ntohl (order : ByteOrder) (x : UInt32) : UInt32 :=
  UInt32.ofNat (big.valueOf (order.bytesOf 4 x.toNat))

theorem bytesOf_htons (order : ByteOrder) (x : UInt16) :
    order.bytesOf 2 (order.htons x).toNat = big.bytesOf 2 x.toNat := by
  have bound : order.valueOf (big.bytesOf 2 x.toNat) < 2 ^ 16 := by
    have bound := order.valueOf_lt (big.bytesOf 2 x.toNat)
    rwa [bytesOf_length] at bound
  have image := order.bytesOf_valueOf (big.bytesOf 2 x.toNat)
  rw [bytesOf_length] at image
  rw [htons, UInt16.toNat_ofNat', Nat.mod_eq_of_lt bound, image]

theorem bytesOf_htonl (order : ByteOrder) (x : UInt32) :
    order.bytesOf 4 (order.htonl x).toNat = big.bytesOf 4 x.toNat := by
  have bound : order.valueOf (big.bytesOf 4 x.toNat) < 2 ^ 32 := by
    have bound := order.valueOf_lt (big.bytesOf 4 x.toNat)
    rwa [bytesOf_length] at bound
  have image := order.bytesOf_valueOf (big.bytesOf 4 x.toNat)
  rw [bytesOf_length] at image
  rw [htonl, UInt32.toNat_ofNat', Nat.mod_eq_of_lt bound, image]

@[simp] theorem ntohs_htons (order : ByteOrder) (x : UInt16) :
    order.ntohs (order.htons x) = x := by
  rw [ntohs, bytesOf_htons, big.valueOf_bytesOf 2 x.toNat x.toNat_lt, UInt16.ofNat_toNat]

@[simp] theorem ntohl_htonl (order : ByteOrder) (x : UInt32) :
    order.ntohl (order.htonl x) = x := by
  rw [ntohl, bytesOf_htonl, big.valueOf_bytesOf 4 x.toNat x.toNat_lt, UInt32.ofNat_toNat]

/-- A number that is converted once on each side is the same for a receiver of either
order. -/
theorem ntohl_valueOf_htonl (sender receiver : ByteOrder) (x : UInt32) :
    receiver.ntohl (UInt32.ofNat (receiver.valueOf (sender.bytesOf 4 (sender.htonl x).toNat))) =
      x := by
  rw [bytesOf_htonl]
  exact receiver.ntohl_htonl x

theorem ntohs_valueOf_htons (sender receiver : ByteOrder) (x : UInt16) :
    receiver.ntohs (UInt16.ofNat (receiver.valueOf (sender.bytesOf 2 (sender.htons x).toNat))) =
      x := by
  rw [bytesOf_htons]
  exact receiver.ntohs_htons x

/-- A conversion on arrival loses nothing of the bytes. -/
theorem bytesOf_ntohl_valueOf (order : ByteOrder) {bytes : List UInt8} (width : bytes.length = 4) :
    big.bytesOf 4 (order.ntohl (UInt32.ofNat (order.valueOf bytes))).toNat = bytes := by
  have small (order : ByteOrder) : order.valueOf bytes < 2 ^ 32 := by
    have bound := order.valueOf_lt bytes
    rwa [width] at bound
  have image (order : ByteOrder) : order.bytesOf 4 (order.valueOf bytes) = bytes := by
    have image := order.bytesOf_valueOf bytes
    rwa [width] at image
  rw [ntohl, UInt32.toNat_ofNat', UInt32.toNat_ofNat', Nat.mod_eq_of_lt (small order), image,
    Nat.mod_eq_of_lt (small big), image]

theorem bytesOf_ntohs_valueOf (order : ByteOrder) {bytes : List UInt8} (width : bytes.length = 2) :
    big.bytesOf 2 (order.ntohs (UInt16.ofNat (order.valueOf bytes))).toNat = bytes := by
  have small (order : ByteOrder) : order.valueOf bytes < 2 ^ 16 := by
    have bound := order.valueOf_lt bytes
    rwa [width] at bound
  have image (order : ByteOrder) : order.bytesOf 2 (order.valueOf bytes) = bytes := by
    have image := order.bytesOf_valueOf bytes
    rwa [width] at image
  rw [ntohs, UInt16.toNat_ofNat', UInt16.toNat_ofNat', Nat.mod_eq_of_lt (small order), image,
    Nat.mod_eq_of_lt (small big), image]

end ByteOrder

/-- An object of `n` bytes, such as a `char [n]`. -/
@[ext] structure Bytes (n : Nat) where
  toList : List UInt8
  length_toList : toList.length = n
  deriving DecidableEq, Repr

attribute [simp] Bytes.length_toList

def Bytes.zero (n : Nat) : Bytes n := ⟨List.replicate n 0, List.length_replicate⟩

section Access

variable {n : Nat}

/-- `width` bytes at an offset, absent unless all of them are inside the object. -/
def loadBytes (memory : Bytes n) (offset width : Nat) : Option (Bytes width) :=
  if inside : offset + width ≤ n then
    some ⟨(memory.toList.drop offset).take width, by
      simp only [List.length_take, List.length_drop, Bytes.length_toList]
      omega⟩
  else none

/-- Overwrite the bytes at an offset, absent unless all of them are inside. -/
def storeBytes (memory : Bytes n) (offset : Nat) (bytes : List UInt8) : Option (Bytes n) :=
  if inside : offset + bytes.length ≤ n then
    some ⟨memory.toList.take offset ++ bytes ++ memory.toList.drop (offset + bytes.length), by
      simp only [List.length_append, List.length_take, List.length_drop, Bytes.length_toList]
      omega⟩
  else none

def load16 (order : ByteOrder) (memory : Bytes n) (offset : Nat) : Option UInt16 :=
  (loadBytes memory offset 2).map fun bytes => UInt16.ofNat (order.valueOf bytes.toList)

def load32 (order : ByteOrder) (memory : Bytes n) (offset : Nat) : Option UInt32 :=
  (loadBytes memory offset 4).map fun bytes => UInt32.ofNat (order.valueOf bytes.toList)

def store16 (order : ByteOrder) (memory : Bytes n) (offset : Nat) (x : UInt16) :
    Option (Bytes n) :=
  storeBytes memory offset (order.bytesOf 2 x.toNat)

def store32 (order : ByteOrder) (memory : Bytes n) (offset : Nat) (x : UInt32) :
    Option (Bytes n) :=
  storeBytes memory offset (order.bytesOf 4 x.toNat)

theorem loadBytes_isSome (memory : Bytes n) (offset width : Nat) :
    (loadBytes memory offset width).isSome ↔ offset + width ≤ n := by
  unfold loadBytes
  split <;> simp_all

theorem storeBytes_isSome (memory : Bytes n) (offset : Nat) (bytes : List UInt8) :
    (storeBytes memory offset bytes).isSome ↔ offset + bytes.length ≤ n := by
  unfold storeBytes
  split <;> simp_all

theorem load32_isSome (order : ByteOrder) (memory : Bytes n) (offset : Nat) :
    (load32 order memory offset).isSome ↔ offset + 4 ≤ n := by
  simp only [load32, Option.isSome_map, loadBytes_isSome]

theorem load16_isSome (order : ByteOrder) (memory : Bytes n) (offset : Nat) :
    (load16 order memory offset).isSome ↔ offset + 2 ≤ n := by
  simp only [load16, Option.isSome_map, loadBytes_isSome]

theorem store32_isSome (order : ByteOrder) (memory : Bytes n) (offset : Nat) (x : UInt32) :
    (store32 order memory offset x).isSome ↔ offset + 4 ≤ n := by
  rw [store32, storeBytes_isSome, ByteOrder.bytesOf_length]

theorem store16_isSome (order : ByteOrder) (memory : Bytes n) (offset : Nat) (x : UInt16) :
    (store16 order memory offset x).isSome ↔ offset + 2 ≤ n := by
  rw [store16, storeBytes_isSome, ByteOrder.bytesOf_length]

theorem loadBytes_eq {memory : Bytes n} {offset width : Nat} {bytes : Bytes width}
    (loaded : loadBytes memory offset width = some bytes) :
    offset + width ≤ n ∧ bytes.toList = (memory.toList.drop offset).take width := by
  unfold loadBytes at loaded
  split at loaded
  · rename_i inside
    cases loaded
    exact ⟨inside, rfl⟩
  · cases loaded

theorem storeBytes_eq {memory changed : Bytes n} {offset : Nat} {bytes : List UInt8}
    (stored : storeBytes memory offset bytes = some changed) :
    offset + bytes.length ≤ n ∧ changed.toList =
      memory.toList.take offset ++ bytes ++ memory.toList.drop (offset + bytes.length) := by
  unfold storeBytes at stored
  split at stored
  · rename_i inside
    cases stored
    exact ⟨inside, rfl⟩
  · cases stored

theorem loadBytes_of_toList {memory : Bytes n} {offset width : Nat} {bytes : List UInt8}
    (inside : offset + width ≤ n) (same : (memory.toList.drop offset).take width = bytes) :
    ∃ loaded, loadBytes memory offset width = some loaded ∧ loaded.toList = bytes := by
  obtain ⟨loaded, found⟩ := Option.isSome_iff_exists.mp
    ((loadBytes_isSome memory offset width).mpr inside)
  exact ⟨loaded, found, (loadBytes_eq found).2.trans same⟩

theorem loadBytes_storeBytes_same {memory changed : Bytes n} {bytes : List UInt8}
    {offset width : Nat} (stored : storeBytes memory offset bytes = some changed)
    (whole : bytes.length = width) :
    ∃ loaded, loadBytes changed offset width = some loaded ∧ loaded.toList = bytes := by
  obtain ⟨inside, same⟩ := storeBytes_eq stored
  have size := memory.length_toList
  subst whole
  refine loadBytes_of_toList inside ?_
  rw [same, List.append_assoc, List.drop_append_of_le_length
    (by simp only [List.length_take]; omega), List.drop_eq_nil_of_le
    (by simp only [List.length_take]; omega), List.nil_append, List.take_left]

theorem storeBytes_nil {memory : Bytes n} {offset : Nat} (inside : offset ≤ n) :
    storeBytes memory offset [] = some memory := by
  rw [storeBytes, dif_pos (by simpa using inside)]
  congr 1
  apply Bytes.ext
  change memory.toList.take offset ++ [] ++ memory.toList.drop (offset + 0) = memory.toList
  simp

/-- Two stores in a row are one store of the bytes of both. -/
theorem storeBytes_append {memory changed : Bytes n} {first : List UInt8} {offset : Nat}
    (stored : storeBytes memory offset first = some changed) (second : List UInt8) :
    storeBytes changed (offset + first.length) second =
      storeBytes memory offset (first ++ second) := by
  obtain ⟨inside, same⟩ := storeBytes_eq stored
  have size := memory.length_toList
  have written : (memory.toList.take offset ++ first).length = offset + first.length := by
    simp only [List.length_append, List.length_take]
    omega
  have front :
      changed.toList.take (offset + first.length) = memory.toList.take offset ++ first := by
    rw [same, ← written, List.take_left]
  have back : changed.toList.drop (offset + first.length + second.length) =
      memory.toList.drop (offset + first.length + second.length) := by
    rw [same, List.drop_append, List.drop_eq_nil_of_le (by omega), List.nil_append,
      List.drop_drop, written]
    congr 1
    omega
  unfold storeBytes
  simp only [front, back, List.length_append, ← Nat.add_assoc, List.append_assoc]

/-- Loads and stores of a field whose place in the object is given by the bytes
before and behind it. -/
theorem loadBytes_field {memory : Bytes n} {before field behind : List UInt8}
    (layout : memory.toList = before ++ field ++ behind) {offset width : Nat}
    (place : before.length = offset) (size : field.length = width) :
    ∃ loaded, loadBytes memory offset width = some loaded ∧ loaded.toList = field := by
  have length := memory.length_toList
  rw [layout, List.length_append, List.length_append] at length
  refine loadBytes_of_toList (by omega) ?_
  rw [layout, List.append_assoc, ← place, List.drop_left, ← size, List.take_left]

theorem load32_field (order : ByteOrder) {memory : Bytes n} {before behind : List UInt8}
    {x : UInt32} (layout : memory.toList = before ++ order.bytesOf 4 x.toNat ++ behind)
    {offset : Nat} (place : before.length = offset) : load32 order memory offset = some x := by
  obtain ⟨loaded, found, same⟩ := loadBytes_field layout place (order.bytesOf_length 4 x.toNat)
  rw [load32, found, Option.map_some, same, order.valueOf_bytesOf 4 x.toNat x.toNat_lt,
    UInt32.ofNat_toNat]

theorem load16_field (order : ByteOrder) {memory : Bytes n} {before behind : List UInt8}
    {x : UInt16} (layout : memory.toList = before ++ order.bytesOf 2 x.toNat ++ behind)
    {offset : Nat} (place : before.length = offset) : load16 order memory offset = some x := by
  obtain ⟨loaded, found, same⟩ := loadBytes_field layout place (order.bytesOf_length 2 x.toNat)
  rw [load16, found, Option.map_some, same, order.valueOf_bytesOf 2 x.toNat x.toNat_lt,
    UInt16.ofNat_toNat]

theorem storeBytes_field {memory : Bytes n} {before field behind : List UInt8}
    (layout : memory.toList = before ++ field ++ behind) {offset : Nat}
    (place : before.length = offset) (bytes : List UInt8) (size : bytes.length = field.length) :
    ∃ changed, storeBytes memory offset bytes = some changed ∧
      changed.toList = before ++ bytes ++ behind := by
  have length := memory.length_toList
  rw [layout, List.length_append, List.length_append] at length
  obtain ⟨changed, stored⟩ := Option.isSome_iff_exists.mp
    ((storeBytes_isSome memory offset bytes).mpr (by omega))
  refine ⟨changed, stored, ?_⟩
  have rest : offset + bytes.length = (before ++ field).length := by
    rw [List.length_append]
    omega
  rw [(storeBytes_eq stored).2, rest, layout, List.drop_left, List.append_assoc before field,
    ← place, List.take_left]

end Access

/-- The characters of a string before its NUL, absent when the object has none. -/
def cstr : List UInt8 → Option (List UInt8)
  | [] => none
  | byte :: rest => if byte = 0 then some [] else (cstr rest).map (byte :: ·)

theorem cstr_append (chars rest : List UInt8) (text : (0 : UInt8) ∉ chars) :
    cstr (chars ++ 0 :: rest) = some chars := by
  induction chars with
  | nil => rfl
  | cons byte chars ih =>
      have nonzero : byte ≠ 0 := fun zero => text (by simp [zero])
      have remaining : (0 : UInt8) ∉ chars := fun member => text (List.mem_cons_of_mem _ member)
      simp only [List.cons_append, cstr, if_neg nonzero, ih remaining, Option.map_some]

theorem cstr_eq_some {bytes chars : List UInt8} (read : cstr bytes = some chars) :
    (0 : UInt8) ∉ chars ∧ ∃ rest, bytes = chars ++ 0 :: rest := by
  induction bytes generalizing chars with
  | nil => cases read
  | cons byte bytes ih =>
      unfold cstr at read
      split at read
      · rename_i zero
        cases read
        exact ⟨List.not_mem_nil, bytes, by simp [zero]⟩
      · rename_i nonzero
        obtain ⟨tail, readTail, rfl⟩ := Option.map_eq_some_iff.mp read
        obtain ⟨text, rest, rfl⟩ := ih readTail
        exact ⟨by simpa using ⟨Ne.symm nonzero, text⟩, rest, rfl⟩

theorem cstr_isSome (bytes : List UInt8) : (cstr bytes).isSome ↔ (0 : UInt8) ∈ bytes := by
  induction bytes with
  | nil => simp [cstr]
  | cons byte bytes ih =>
      unfold cstr
      split
      · rename_i zero
        simp [zero]
      · rename_i nonzero
        simp [ih, Ne.symm nonzero]

theorem cstr_append_of_some {bytes chars : List UInt8} (read : cstr bytes = some chars)
    (behind : List UInt8) : cstr (bytes ++ behind) = some chars := by
  obtain ⟨text, rest, rfl⟩ := cstr_eq_some read
  rw [List.append_assoc, List.cons_append]
  exact cstr_append chars (rest ++ behind) text

theorem cstr_length_lt {bytes chars : List UInt8} (read : cstr bytes = some chars) :
    chars.length < bytes.length := by
  obtain ⟨_, rest, rfl⟩ := cstr_eq_some read
  simp only [List.length_append, List.length_cons]
  omega

/-- `strcpy` into an array of `size` characters; no value when the source has no
NUL or the characters with their NUL do not fit. -/
def strcpy {size : Nat} (dest : Bytes size) (source : List UInt8) : Option (Bytes size) :=
  match cstr source with
  | none => none
  | some chars =>
      if fits : chars.length < size then
        some ⟨chars ++ 0 :: dest.toList.drop (chars.length + 1), by
          have length := dest.length_toList
          simp only [List.length_append, List.length_cons, List.length_drop]
          omega⟩
      else none

theorem strcpy_of_cstr {size : Nat} (dest : Bytes size)
    {source chars : List UInt8} (read : cstr source = some chars)
    (fits : chars.length < size) :
    ∃ copied, strcpy dest source = some copied ∧
      copied.toList = chars ++ 0 :: dest.toList.drop (chars.length + 1) := by
  simp only [strcpy, read, fits, ↓reduceDIte]
  exact ⟨_, rfl, rfl⟩

theorem cstr_strcpy {size : Nat} {dest copied : Bytes size}
    {source : List UInt8} (done : strcpy dest source = some copied) :
    cstr copied.toList = cstr source := by
  unfold strcpy at done
  split at done
  · cases done
  · rename_i chars read
    split at done
    · cases done
      rw [read]
      exact cstr_append _ _ (cstr_eq_some read).1
    · cases done

/-- A copy succeeds exactly when the source's first NUL comes before the size. -/
theorem strcpy_isSome {size : Nat} (dest : Bytes size) (source : List UInt8) :
    (strcpy dest source).isSome ↔ (0 : UInt8) ∈ source.take size := by
  cases read : cstr source with
  | none =>
      have absent : (0 : UInt8) ∉ source := by
        simpa [read] using (cstr_isSome source).not
      simp only [strcpy, read, Option.isSome_none, Bool.false_eq_true, false_iff]
      exact fun member => absent (List.mem_of_mem_take member)
  | some chars =>
      obtain ⟨text, rest, rfl⟩ := cstr_eq_some read
      have found : (0 : UInt8) ∈ (chars ++ 0 :: rest).take size ↔ chars.length < size := by
        constructor
        · intro member
          by_contra short
          rw [List.take_append_of_le_length (by omega)] at member
          exact text (List.mem_of_mem_take member)
        · intro fits
          rw [List.take_append, List.mem_append]
          refine Or.inr ?_
          obtain ⟨left, same⟩ := Nat.exists_eq_add_of_lt fits
          have remaining : size - chars.length = left + 1 := by omega
          rw [remaining, List.take_succ_cons]
          exact List.mem_cons_self
      rw [found]
      by_cases fits : chars.length < size
      · obtain ⟨copied, done, _⟩ := strcpy_of_cstr dest read fits
        simp [done, fits]
      · simp [strcpy, read, fits]

end VnfMonitoring.Memory
