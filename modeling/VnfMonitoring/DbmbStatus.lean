import Mathlib.Data.List.TakeWhile
import VnfMonitoring.Bpapp
import VnfMonitoring.Lib.Fields

set_option autoImplicit false

/- `SelectAllVMStatus`: the rows of a result set, decoded into the packed array of
`vmc_status_t` records that its caller has cleared. -/
namespace VnfMonitoring.DbmbStatus

open VnfMonitoring.Memory VnfMonitoring.Fields VnfMonitoring.Bpapp

/-- The characters of a column, a string without a NUL inside. -/
abbrev Text := { chars : List UInt8 // (0 : UInt8) ∉ chars }

/-- A row of the result set; the columns that can be NULL are absent then. -/
structure Row where
  id : Text
  vmState : Text
  powerState : Text
  displayName : Option Text
  ipAddress : Option Text
  uuid : Option Text
  host : Option Text

/-- Offsets in the packed layout of `vmc_status_t`, and its size. -/
def idAt : Nat := 0

def ipaddrAt : Nat := 4

def statusAt : Nat := 8

def powerStatusAt : Nat := 10

def nameAt : Nat := 12

def uuidAt : Nat := 44

def hostNameAt : Nat := 172

def vmcStatusSize : Nat := 204

/-- The array `vm`. -/
abbrev StatusArray := Bytes (vmcStatusSize * maxSystemNum)

def chars (s : String) : List UInt8 := s.toList.map fun c => UInt8.ofNat c.toNat

def isSpace (c : UInt8) : Bool := c = 32 ∨ (9 ≤ c ∧ c ≤ 13)

def isDigit (c : UInt8) : Bool := 48 ≤ c ∧ c ≤ 57

def digitsValue (digits : List UInt8) : Nat :=
  digits.foldl (fun value c => 10 * value + (c.toNat - 48)) 0

/-- `sscanf` with `%u` or `%hu` into a variable of `bits` bits: blanks, a sign, and digits
as `strtoul` reads them. Without digits nothing is assigned. -/
def scanUnsigned (bits : Nat) (text : List UInt8) : Option Nat :=
  let text := text.dropWhile isSpace
  let negative := text.head? = some 45
  let text := if text.head? = some 43 ∨ negative then text.tail else text
  let digits := text.takeWhile isDigit
  if digits = [] then none
  else if digitsValue digits ≥ 2 ^ 64 then some ((2 ^ 64 - 1) % 2 ^ bits)
  else if negative then some ((2 ^ 64 - digitsValue digits) % 2 ^ bits)
  else some (digitsValue digits % 2 ^ bits)

def digit (value : Nat) : UInt8 := UInt8.ofNat (48 + value)

/-- A number as the database prints it. -/
def decimal (number : Nat) : List UInt8 :=
  if number < 10 then [digit number] else decimal (number / 10) ++ [digit (number % 10)]

theorem digit_toNat {value : Nat} (small : value < 10) : (digit value).toNat = 48 + value := by
  rw [digit, UInt8.toNat_ofNat']
  omega

theorem isDigit_iff {c : UInt8} : isDigit c = true ↔ 48 ≤ c.toNat ∧ c.toNat ≤ 57 := by
  rw [isDigit, decide_eq_true_eq, UInt8.le_iff_toNat_le, UInt8.le_iff_toNat_le]
  rfl

theorem isDigit_digit {value : Nat} (small : value < 10) : isDigit (digit value) = true := by
  rw [isDigit_iff, digit_toNat small]
  omega

theorem decimal_digits (number : Nat) :
    decimal number ≠ [] ∧ (∀ c ∈ decimal number, isDigit c = true) ∧
      digitsValue (decimal number) = number := by
  induction number using decimal.induct with
  | case1 number small =>
      rw [decimal, if_pos small]
      refine ⟨List.cons_ne_nil _ _, ?_, ?_⟩
      · simp [isDigit_digit small]
      · simp [digitsValue, digit_toNat small]
  | case2 number large ih =>
      obtain ⟨_, digits, value⟩ := ih
      have small : number % 10 < 10 := Nat.mod_lt _ (by decide)
      rw [decimal, if_neg large]
      refine ⟨by simp, fun c member => ?_, ?_⟩
      · rcases List.mem_append.mp member with front | last
        · exact digits c front
        · rw [List.mem_singleton.mp last]
          exact isDigit_digit small
      · rw [digitsValue, List.foldl_append]
        change
          10 * digitsValue (decimal (number / 10)) + ((digit (number % 10)).toNat - 48) = number
        rw [value, digit_toNat small]
        omega

/-- Digits are neither blanks nor signs. -/
theorem isDigit_plain {c : UInt8} (digit : isDigit c = true) :
    isSpace c = false ∧ c ≠ 43 ∧ c ≠ 45 := by
  have range := isDigit_iff.mp digit
  refine ⟨?_, ?_, ?_⟩
  · simp only [isSpace, decide_eq_false_iff_not, ← UInt8.toNat_inj, UInt8.le_iff_toNat_le]
    change ¬ (c.toNat = 32 ∨ 9 ≤ c.toNat ∧ c.toNat ≤ 13)
    omega
  · rintro rfl
    exact absurd range.1 (by decide)
  · rintro rfl
    exact absurd range.1 (by decide)

theorem scanUnsigned_digits (bits : Nat) {digits : List UInt8} (all : ∀ c ∈ digits, isDigit c) :
    scanUnsigned bits digits =
      if digits = [] then none
      else if digitsValue digits ≥ 2 ^ 64 then some ((2 ^ 64 - 1) % 2 ^ bits)
      else some (digitsValue digits % 2 ^ bits) := by
  cases digits with
  | nil => rfl
  | cons first rest =>
      obtain ⟨plain, noPlus, noMinus⟩ := isDigit_plain (all first List.mem_cons_self)
      have blanks : (first :: rest).dropWhile isSpace = first :: rest := by
        rw [List.dropWhile_cons_of_neg (by simp [plain])]
      have whole : (first :: rest).takeWhile isDigit = first :: rest :=
        List.takeWhile_eq_self_iff.mpr all
      unfold scanUnsigned
      simp only [blanks, List.head?_cons, Option.some.injEq, noPlus, noMinus, or_self, if_false,
        whole]

/-- A number column that fits its variable is read back. -/
theorem scanUnsigned_decimal {bits number : Nat} (fits : number < 2 ^ bits) (width : bits ≤ 64) :
    scanUnsigned bits (decimal number) = some number := by
  obtain ⟨some_, digits, value⟩ := decimal_digits number
  have below : number < 2 ^ 64 :=
    Nat.lt_of_lt_of_le fits (Nat.pow_le_pow_right (by decide) width)
  rw [scanUnsigned_digits bits digits, if_neg some_, value, if_neg (Nat.not_le.mpr below),
    Nat.mod_eq_of_lt fits]

/-- The code of a state name; an unknown name assigns nothing. -/
def statusCode (vmState : List UInt8) : Option UInt16 :=
  if vmState = chars "active" then some statusActive
  else if vmState = chars "build" then some statusBuild
  else if vmState = chars "deleted" then some statusDeleted
  else if vmState = chars "stopped" then some statusStopped
  else if vmState = chars "paused" then some statusPaused
  else if vmState = chars "suspended" then some statusSuspended
  else none

/-- An assignment that is made when there is a value for it. -/
def assign {α : Type} (value : Option α) (store : StatusArray → α → Option StatusArray)
    (vm : StatusArray) : Option StatusArray :=
  match value with
  | some x => store vm x
  | none => some vm

/-- `strcpy` to a place in the array; nothing keeps it inside the field there. -/
def copyText (offset : Nat) (vm : StatusArray) (text : Text) : Option StatusArray :=
  storeBytes vm offset (text.val ++ [0])

section Select

variable (order : ByteOrder) (inetAddr : List UInt8 → UInt32)

/-- The body of the loop for one row. No value when it writes outside the array. -/
def fetchRow (vm : StatusArray) (count : Nat) (row : Row) : Option StatusArray :=
  let base := vmcStatusSize * count
  (assign (scanUnsigned 32 row.id.val)
    (fun vm x => store32 order vm (base + idAt) (UInt32.ofNat x)) vm).bind fun vm =>
  (assign (statusCode row.vmState.val)
    (fun vm code => store16 order vm (base + statusAt) code) vm).bind fun vm =>
  (assign (scanUnsigned 16 row.powerState.val)
    (fun vm x => store16 order vm (base + powerStatusAt) (UInt16.ofNat x)) vm).bind fun vm =>
  (assign row.displayName (copyText (base + nameAt)) vm).bind fun vm =>
  (assign row.ipAddress
    (fun vm addr => store32 order vm (base + ipaddrAt) (inetAddr addr.val)) vm).bind fun vm =>
  (assign row.uuid (copyText (base + uuidAt)) vm).bind fun vm =>
  assign row.host (copyText (base + hostNameAt)) vm

/-- The loop, from a record on. -/
def fetchRows (vm : StatusArray) (count : Nat) : List Row → Option (Nat × StatusArray)
  | [] => some (count, vm)
  | row :: rest =>
      if count ≥ maxSystemNum then some (count, vm)
      else (fetchRow order inetAddr vm count row).bind fun vm => fetchRows vm (count + 1) rest

/-- `SelectAllVMStatus`, with what `ExecQuery1` returns and the rows of the result. -/
def selectAllVMStatus (retval : Int) (rows : List Row) (vm : StatusArray) :
    Option (Int × StatusArray) :=
  if retval ≠ 0 then some (-1, vm)
  else (fetchRows order inetAddr vm 0 rows).map fun (count, vm) => ((count : Int), vm)

/-- The field holds the column as a string, or what fits of one that is too long; NULL
leaves it empty. -/
def HoldsText (vm : StatusArray) (offset size : Nat) (column : Option Text) : Prop :=
  ∃ field chars, loadBytes vm offset size = some field ∧ str field = some chars ∧
    chars <+: (column.map Subtype.val).getD [] ∧
    (((column.map Subtype.val).getD []).length < size →
      chars = (column.map Subtype.val).getD [])

/-- The record holds the values of the row and no others. -/
structure HoldsRow (vm : StatusArray) (base : Nat) (row : Row) : Prop where
  vmId : load32 order vm (base + idAt) =
    some (UInt32.ofNat ((scanUnsigned 32 row.id.val).getD 0))
  vmIpaddr : load32 order vm (base + ipaddrAt) =
    some ((row.ipAddress.map fun addr => inetAddr addr.val).getD 0)
  vmStatus : load16 order vm (base + statusAt) = some ((statusCode row.vmState.val).getD 0)
  vmPowerStatus : load16 order vm (base + powerStatusAt) =
    some (UInt16.ofNat ((scanUnsigned 16 row.powerState.val).getD 0))
  vmName : HoldsText vm (base + nameAt) maxNameLength row.displayName
  vmUuid : HoldsText vm (base + uuidAt) (maxNameLength * 4) row.uuid
  vmHostName : HoldsText vm (base + hostNameAt) maxNameLength row.host

/-- The call returns the number of records it has decoded; each holds its row, and those
behind them are as they were. -/
def Faithful (rows : List Row) (result : Option (Int × StatusArray)) : Prop :=
  ∃ vm, result = some (((min rows.length maxSystemNum : Nat) : Int), vm) ∧
    (∀ k row, k < maxSystemNum → rows[k]? = some row →
      HoldsRow order inetAddr vm (vmcStatusSize * k) row) ∧
    ∀ k, rows.length ≤ k → k < maxSystemNum →
      region vm (vmcStatusSize * k) vmcStatusSize = List.replicate vmcStatusSize 0

end Select

/-- The columns that are copied as strings fit their fields. -/
def Row.Fits (row : Row) : Prop :=
  (∀ name ∈ row.displayName, name.val.length < maxNameLength) ∧
    (∀ uuid ∈ row.uuid, uuid.val.length < maxNameLength * 4) ∧
    ∀ host ∈ row.host, host.val.length < maxNameLength

instance (row : Row) : Decidable row.Fits := inferInstanceAs (Decidable (_ ∧ _ ∧ _))

section Fields

variable (order : ByteOrder) (inetAddr : List UInt8 → UInt32)

def terminated (text : Text) : List UInt8 := text.val ++ [0]

/-- The fields of a record in the order in which they are stored. -/
def rowFields (base : Nat) (row : Row) : List Field :=
  [⟨base + idAt, 4,
      ((scanUnsigned 32 row.id.val).map fun x => (UInt32.ofNat x).toNat).map (order.bytesOf 4)⟩,
    ⟨base + statusAt, 2,
      ((statusCode row.vmState.val).map UInt16.toNat).map (order.bytesOf 2)⟩,
    ⟨base + powerStatusAt, 2,
      ((scanUnsigned 16 row.powerState.val).map fun x => (UInt16.ofNat x).toNat).map
        (order.bytesOf 2)⟩,
    ⟨base + nameAt, maxNameLength, row.displayName.map terminated⟩,
    ⟨base + ipaddrAt, 4,
      (row.ipAddress.map fun addr => (inetAddr addr.val).toNat).map (order.bytesOf 4)⟩,
    ⟨base + uuidAt, maxNameLength * 4, row.uuid.map terminated⟩,
    ⟨base + hostNameAt, maxNameLength, row.host.map terminated⟩]

/-- The fields of the records from one on. -/
def allFields (count : Nat) : List Row → List Field
  | [] => []
  | row :: rest =>
      rowFields order inetAddr (vmcStatusSize * count) row ++ allFields (count + 1) rest

variable {order inetAddr}

/-- An assignment in the loop is the store of its field. -/
theorem assign_eq {α : Type} (value : Option α) (store : StatusArray → α → Option StatusArray)
    (offset width : Nat) (bytes : α → List UInt8)
    (same : ∀ vm x, store vm x = storeBytes vm offset (bytes x)) :
    assign value store = Field.store ⟨offset, width, value.map bytes⟩ := by
  funext vm
  unfold assign Field.store
  cases value with
  | none => rfl
  | some x => exact same vm x

theorem assign32_eq {α : Type} (value : Option α) (offset : Nat) (number : α → UInt32) :
    (assign value fun vm x => store32 order vm offset (number x)) =
      Field.store
        ⟨offset, 4, (value.map fun x => (number x).toNat).map (order.bytesOf 4)⟩ := by
  rw [Option.map_map]
  exact assign_eq value _ offset 4 _ fun _ _ => rfl

theorem assign16_eq {α : Type} (value : Option α) (offset : Nat) (number : α → UInt16) :
    (assign value fun vm x => store16 order vm offset (number x)) =
      Field.store
        ⟨offset, 2, (value.map fun x => (number x).toNat).map (order.bytesOf 2)⟩ := by
  rw [Option.map_map]
  exact assign_eq value _ offset 2 _ fun _ _ => rfl

theorem assignText_eq (column : Option Text) (offset width : Nat) :
    assign column (copyText offset) =
      Field.store ⟨offset, width, column.map terminated⟩ :=
  assign_eq column _ offset width _ fun _ _ => rfl

theorem fetchRow_eq (vm : StatusArray) (count : Nat) (row : Row) :
    fetchRow order inetAddr vm count row =
      storeAll vm (fieldStores (rowFields order inetAddr (vmcStatusSize * count) row)) := by
  unfold fetchRow rowFields
  simp only [storeAll_cons_field, assign32_eq, assign16_eq,
    assignText_eq row.displayName _ maxNameLength, assignText_eq row.uuid _ (maxNameLength * 4),
    assignText_eq row.host _ maxNameLength]
  have last (vm : StatusArray) : storeAll vm (fieldStores []) = some vm := rfl
  simp only [last, Option.bind_fun_some]

/-- The loop stores the fields of as many rows as there is room for. -/
theorem fetchRows_eq (rows : List Row) {vm : StatusArray} {count : Nat}
    (room : count ≤ maxSystemNum) :
    fetchRows order inetAddr vm count rows =
      (storeAll vm (fieldStores
        (allFields order inetAddr count (rows.take (maxSystemNum - count))))).map
        fun vm => (min (count + rows.length) maxSystemNum, vm) := by
  induction rows generalizing vm count with
  | nil =>
      have full : min count maxSystemNum = count := by omega
      simp [fetchRows, allFields, fieldStores, storeAll, full]
  | cons row rest ih =>
      unfold fetchRows
      split
      · rename_i none_left
        have empty : maxSystemNum - count = 0 := by omega
        have full : min (count + (row :: rest).length) maxSystemNum = count := by
          rw [List.length_cons]
          omega
        rw [empty, List.take_zero, full]
        rfl
      · rename_i left
        obtain ⟨more, same⟩ := Nat.exists_eq_add_of_lt (not_le.mp left)
        have taken : maxSystemNum - count = (maxSystemNum - (count + 1)) + 1 := by omega
        have sum : count + 1 + rest.length = count + (row :: rest).length := by
          rw [List.length_cons]
          omega
        rw [taken, List.take_succ_cons, allFields, fieldStores_append, storeAll_append, fetchRow_eq,
          Option.map_bind, ← sum]
        refine Option.bind_congr fun vm _ => ?_
        exact ih (by omega)

theorem rowFields_place {base : Nat} {row : Row} {field : Field}
    (member : field ∈ rowFields order inetAddr base row) :
    base ≤ field.offset ∧ field.offset + field.width ≤ base + vmcStatusSize := by
  unfold rowFields at member
  simp only [List.mem_cons, List.not_mem_nil, or_false] at member
  rcases member with rfl | rfl | rfl | rfl | rfl | rfl | rfl <;>
    simp only [idAt, ipaddrAt, statusAt, powerStatusAt, nameAt, uuidAt, hostNameAt, vmcStatusSize,
      maxNameLength] <;> omega

theorem rowFields_apart (base : Nat) (row : Row) :
    (rowFields order inetAddr base row).Pairwise Field.Apart := by
  simp only [rowFields, List.pairwise_cons, List.mem_cons, List.not_mem_nil, or_false,
    forall_eq_or_imp, forall_eq, Field.Apart, idAt, ipaddrAt, statusAt, powerStatusAt, nameAt,
    uuidAt, hostNameAt, maxNameLength, List.Pairwise.nil, false_imp_iff, implies_true, and_true]
  omega

theorem allFields_append (rows others : List Row) (count : Nat) :
    allFields order inetAddr count (rows ++ others) =
      allFields order inetAddr count rows ++
        allFields order inetAddr (count + rows.length) others := by
  induction rows generalizing count with
  | nil => rfl
  | cons row rows ih =>
      have shifted : count + 1 + rows.length = count + (row :: rows).length := by
        rw [List.length_cons]
        omega
      rw [List.cons_append, allFields, allFields, ih, List.append_assoc, shifted]

theorem allFields_place {rows : List Row} {count : Nat} {field : Field}
    (member : field ∈ allFields order inetAddr count rows) :
    vmcStatusSize * count ≤ field.offset ∧
      field.offset + field.width ≤ vmcStatusSize * (count + rows.length) := by
  induction rows generalizing count with
  | nil => exact absurd member List.not_mem_nil
  | cons row rows ih =>
      unfold vmcStatusSize at ih ⊢
      rw [List.length_cons]
      rcases List.mem_append.mp member with here | later
      · have place := rowFields_place here
        unfold vmcStatusSize at place
        omega
      · have place := ih later
        omega

theorem allFields_apart (rows : List Row) (count : Nat) :
    (allFields order inetAddr count rows).Pairwise Field.Apart := by
  induction rows generalizing count with
  | nil => exact List.Pairwise.nil
  | cons row rows ih =>
      refine List.pairwise_append.mpr
        ⟨rowFields_apart _ row, ih (count + 1), fun field here other later => Or.inl ?_⟩
      have place := rowFields_place here
      have behind := allFields_place later
      unfold vmcStatusSize at place behind
      omega

theorem integer_fits (value : Option Nat) (offset width : Nat) :
    Field.Fits ⟨offset, width, value.map (order.bytesOf width)⟩ := by
  intro bytes stored
  obtain ⟨number, _, rfl⟩ := Option.map_eq_some_iff.mp stored
  exact Nat.le_of_eq (order.bytesOf_length width number)

/-- The fields of one record among those of all. -/
theorem allFields_split {rows : List Row} {k : Nat} {row : Row} (here : rows[k]? = some row) :
    allFields order inetAddr 0 rows = allFields order inetAddr 0 (rows.take k) ++
      (rowFields order inetAddr (vmcStatusSize * k) row ++
        allFields order inetAddr (k + 1) (rows.drop (k + 1))) := by
  obtain ⟨inside, same⟩ := List.getElem?_eq_some_iff.mp here
  have length : (rows.take k).length = k := by
    rw [List.length_take]
    omega
  have split : rows = rows.take k ++ row :: rows.drop (k + 1) := by
    rw [← same, List.getElem_cons_drop, List.take_append_drop]
  nth_rewrite 1 [split]
  rw [allFields_append, length, Nat.zero_add, allFields]

theorem mem_allFields {rows : List Row} {count : Nat} {field : Field}
    (member : field ∈ allFields order inetAddr count rows) :
    ∃ row ∈ rows, ∃ base, field ∈ rowFields order inetAddr base row := by
  induction rows generalizing count with
  | nil => exact absurd member List.not_mem_nil
  | cons row rows ih =>
      rcases List.mem_append.mp member with here | later
      · exact ⟨row, List.mem_cons_self, _, here⟩
      · obtain ⟨other, inside, base, found⟩ := ih later
        exact ⟨other, List.mem_cons_of_mem _ inside, base, found⟩

theorem text_fits {column : Option Text} {offset size : Nat}
    (short : ∀ text ∈ column, text.val.length < size) :
    Field.Fits ⟨offset, size, column.map terminated⟩ := by
  intro bytes stored
  obtain ⟨text, here, rfl⟩ := Option.map_eq_some_iff.mp stored
  have bound := short text here
  simp only [terminated, List.length_append, List.length_singleton]
  omega

theorem rowFields_fits {row : Row} (fits : row.Fits) {base : Nat} {field : Field}
    (member : field ∈ rowFields order inetAddr base row) : field.Fits := by
  obtain ⟨name, uuid, host⟩ := fits
  unfold rowFields at member
  simp only [List.mem_cons, List.not_mem_nil, or_false] at member
  rcases member with rfl | rfl | rfl | rfl | rfl | rfl | rfl
  · exact integer_fits _ _ _
  · exact integer_fits _ _ _
  · exact integer_fits _ _ _
  · exact text_fits name
  · exact integer_fits _ _ _
  · exact text_fits uuid
  · exact text_fits host

theorem allFields_fits {rows : List Row} (fits : ∀ row ∈ rows, row.Fits) {count : Nat}
    {field : Field} (member : field ∈ allFields order inetAddr count rows) : field.Fits := by
  obtain ⟨row, inside, base, here⟩ := mem_allFields member
  exact rowFields_fits (fits row inside) here

/-- When the columns fit, every store for some rows ends with their records. -/
theorem store_end {rows : List Row} (fits : ∀ row ∈ rows, row.Fits) {store : Nat × List UInt8}
    (member : store ∈ fieldStores (allFields order inetAddr 0 rows)) :
    store.1 + store.2.length ≤ vmcStatusSize * rows.length := by
  obtain ⟨field, here, bytes, own, rfl⟩ := mem_fieldStores.mp member
  have short := allFields_fits fits here bytes own
  have place := allFields_place here
  rw [Nat.zero_add] at place
  dsimp only
  omega

theorem stored_some {rows : List Row} (fits : ∀ row ∈ rows, row.Fits)
    (room : rows.length ≤ maxSystemNum) (vm : StatusArray) :
    ∃ final, storeAll vm (fieldStores (allFields order inetAddr 0 rows)) = some final := by
  refine Option.isSome_iff_exists.mp ((storeAll_isSome vm _).mpr fun store member => ?_)
  exact Nat.le_trans (store_end fits member) (Nat.mul_le_mul_left _ room)

/-- A text field with a column that fits. -/
theorem holdsText_of_region {vm : StatusArray} {offset size : Nat} {column : Option Text}
    (positive : 0 < size) (inside : offset + size ≤ vmcStatusSize * maxSystemNum)
    (short : ∀ text ∈ column, text.val.length < size)
    (same : region vm offset size =
      Field.image ⟨offset, size, column.map terminated⟩ (List.replicate size 0)) :
    HoldsText vm offset size column := by
  obtain ⟨loaded, found, here⟩ : ∃ loaded, loadBytes vm offset size = some loaded ∧
      loaded.toList = region vm offset size := loadBytes_region inside
  have read : str loaded = some ((column.map Subtype.val).getD []) := by
    rw [str, here, same]
    cases column with
    | none =>
        obtain ⟨less, rfl⟩ := Nat.exists_eq_add_of_lt positive
        exact cstr_append [] (List.replicate _ 0) List.not_mem_nil
    | some text =>
        have fits := short text rfl
        simp only [Field.image, Option.map_some, terminated, Option.getD_some]
        rw [List.append_assoc, List.take_append, List.take_of_length_le (Nat.le_of_lt fits)]
        obtain ⟨less, sum⟩ := Nat.exists_eq_add_of_lt fits
        have left : size - text.val.length = less + 1 := by omega
        rw [left]
        exact cstr_append _ _ text.property
  exact ⟨loaded, _, found, read, List.prefix_refl _, fun _ => rfl⟩

section Stored

variable {rows : List Row} {final : StatusArray} {k : Nat} {row : Row}

theorem field_held (fits : ∀ row ∈ rows, row.Fits) (room : rows.length ≤ maxSystemNum)
    (stored : storeAll (.zero _) (fieldStores (allFields order inetAddr 0 rows)) = some final)
    (here : rows[k]? = some row) {field : Field}
    (member : field ∈ rowFields order inetAddr (vmcStatusSize * k) row) :
    field.offset + field.width ≤ vmcStatusSize * maxSystemNum ∧
      region final field.offset field.width = field.image (List.replicate field.width 0) := by
  have among : field ∈ allFields order inetAddr 0 rows := by
    rw [allFields_split here]
    exact List.mem_append_right _ (List.mem_append_left _ member)
  have inside : field.offset + field.width ≤ vmcStatusSize * maxSystemNum := by
    have place := (allFields_place among).2
    rw [Nat.zero_add] at place
    exact Nat.le_trans place (Nat.mul_le_mul_left _ room)
  refine ⟨inside, ?_⟩
  rw [storeAll_fields (allFields_apart rows 0) (fun _ => allFields_fits fits) stored among,
    region_zero inside]

/-- The record of a row when the columns of all rows fit. -/
theorem record_held (fits : ∀ row ∈ rows, row.Fits) (room : rows.length ≤ maxSystemNum)
    (stored : storeAll (.zero _) (fieldStores (allFields order inetAddr 0 rows)) = some final)
    (here : rows[k]? = some row) :
    HoldsRow order inetAddr final (vmcStatusSize * k) row := by
  have held : ∀ field ∈ rowFields order inetAddr (vmcStatusSize * k) row,
      field.offset + field.width ≤ vmcStatusSize * maxSystemNum ∧
        region final field.offset field.width = field.image (List.replicate field.width 0) :=
    fun _ member => field_held fits room stored here member
  obtain ⟨name, uuid, host⟩ := fits row (List.mem_of_getElem? here)
  simp only [rowFields, List.mem_cons, List.not_mem_nil, or_false, forall_eq_or_imp, forall_eq]
    at held
  obtain ⟨idHeld, statusHeld, powerHeld, nameHeld, addrHeld, uuidHeld, hostHeld⟩ := held
  rw [image_integer] at idHeld statusHeld powerHeld addrHeld
  exact
    { vmId := load32_region idHeld.1 (by
        rw [idHeld.2]
        cases scanUnsigned 32 row.id.val <;> rfl)
      vmIpaddr := load32_region addrHeld.1 (by
        rw [addrHeld.2]
        cases row.ipAddress <;> rfl)
      vmStatus := load16_region statusHeld.1 (by
        rw [statusHeld.2]
        cases statusCode row.vmState.val <;> rfl)
      vmPowerStatus := load16_region powerHeld.1 (by
        rw [powerHeld.2]
        cases scanUnsigned 16 row.powerState.val <;> rfl)
      vmName := holdsText_of_region (by decide) nameHeld.1 name nameHeld.2
      vmUuid := holdsText_of_region (by decide) uuidHeld.1 uuid uuidHeld.2
      vmHostName := holdsText_of_region (by decide) hostHeld.1 host hostHeld.2 }

end Stored

theorem selectAllVMStatus_eq (rows : List Row) (vm : StatusArray) :
    selectAllVMStatus order inetAddr 0 rows vm =
      (storeAll vm (fieldStores (allFields order inetAddr 0 (rows.take maxSystemNum)))).map
        fun vm => (((min rows.length maxSystemNum : Nat) : Int), vm) := by
  rw [selectAllVMStatus, if_neg (by decide), fetchRows_eq rows (Nat.zero_le _), Option.map_map]
  simp only [Nat.zero_add]
  rfl

end Fields

/-- A row with a name of 32 characters. -/
def longName : Row where
  id := ⟨chars "7", by decide⟩
  vmState := ⟨chars "active", by decide⟩
  powerState := ⟨chars "1", by decide⟩
  displayName := some ⟨List.replicate 32 97, by decide⟩
  ipAddress := none
  uuid := none
  host := none

end VnfMonitoring.DbmbStatus
