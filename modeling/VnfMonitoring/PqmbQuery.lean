import Mathlib.Algebra.Order.BigOperators.Group.List
import Mathlib.Tactic.IntervalCases
import VnfMonitoring.DbmbStatus
import VnfMonitoring.Lib.Sql
import VnfMonitoring.Pqmb

set_option autoImplicit false

/- The texts that `PQ_InsertVMStateInfo` and `PQ_UpdateVMStateInfo` print, and when a
server that reads them finds the record in them. -/
namespace VnfMonitoring.PqmbQuery

open VnfMonitoring.Memory VnfMonitoring.Bpapp VnfMonitoring.Sql VnfMonitoring.DbmbStatus
  VnfMonitoring.Pqmb

def maxQueryLength : Nat := 1024 * 4

/-- `BYPASS_VM_STATE_INFO_TB`, with and without `__TEST__`. -/
def bypassVmStateInfoTb (test : Bool) : List UInt8 :=
  ascii (if test then "bypass_vm_state_info" else "bypass.bypass_vm_state_info")

/-- `INSERT_VM_STATE_INFO`, line by line. -/
def insertVmStateInfo : List UInt8 :=
  ["INSERT INTO %s ",
    "(create_time, vm_id, vm_name, host_name, vm_type, vm_state, vm_power_state, ",
    "vm_process1_name, vm_process1_state, vm_process2_name, vm_process2_state, ",
    "vm_process3_name, vm_process3_state, vm_process4_name, vm_process4_state, ",
    "vm_process5_name, vm_process5_state, vm_process6_name, vm_process6_state, ",
    "vm_process7_name, vm_process7_state, vm_process8_name, vm_process8_state, ",
    "vm_process9_name, vm_process9_state, vm_process10_name, vm_process10_state, ",
    "vm_process11_name, vm_process11_state, vm_process12_name, vm_process12_state, ",
    "bypass_mode_state, host_ip, process_count) ",
    "VALUES ('%s', '%s', '%s', '%s', %hu, %hu, %hu, ",
    "'%s', %hu, '%s', %hu, '%s', %hu, '%s', %hu, '%s', %hu, '%s', %hu, ",
    "'%s', %hu, '%s', %hu, '%s', %hu, '%s', %hu, '%s', %hu, '%s', %hu, ",
    "%hu, '%s', %hu)"].flatMap ascii

/-- `UPDATE_VM_STATE_INFO`. -/
def updateVmStateInfo : List UInt8 :=
  ["UPDATE %s SET ",
    "create_time = '%s', vm_id = '%s', vm_name = '%s', host_name = '%s', ",
    "vm_type = %hu, vm_state = %hu, vm_power_state = %hu, ",
    "vm_process1_name = '%s', vm_process1_state = %hu, vm_process2_name = '%s', vm_process2_state = %hu, ",
    "vm_process3_name = '%s', vm_process3_state = %hu, vm_process4_name = '%s', vm_process4_state = %hu, ",
    "vm_process5_name = '%s', vm_process5_state = %hu, vm_process6_name = '%s', vm_process6_state = %hu, ",
    "vm_process7_name = '%s', vm_process7_state = %hu, vm_process8_name = '%s', vm_process8_state = %hu, ",
    "vm_process9_name = '%s', vm_process9_state = %hu, vm_process10_name = '%s', vm_process10_state = %hu, ",
    "vm_process11_name = '%s', vm_process11_state = %hu, vm_process12_name = '%s', vm_process12_state = %hu, ",
    "bypass_mode_state = %hu, host_ip = '%s', process_count = %hu ",
    "WHERE create_time = '%s' AND vm_id = '%s'"].flatMap ascii

/-- What stands behind the format in a call of `sprintf`. -/
inductive Arg where
  | str (chars : List UInt8)
  | hu (value : Nat)

def Arg.print : Arg → List UInt8
  | .str chars => chars
  | .hu value => decimal (value % 65536)

@[simp] theorem Arg.print_str (chars : List UInt8) : (Arg.str chars).print = chars := rfl

@[simp] theorem Arg.print_hu (value : Nat) :
    (Arg.hu value).print = decimal (value % 65536) := rfl

/-- `sprintf` with the conversions `%s` and `%hu`; no value when an argument is missing or
of the other kind. -/
def sprintf : List UInt8 → List Arg → Option (List UInt8)
  | [], _ => some []
  | c :: format, args =>
      if c = 37 then
        match format, args with
        | d :: format, .str chars :: args =>
            if d = 115 then (sprintf format args).map (chars ++ ·) else none
        | d :: e :: format, .hu value :: args =>
            if d = 104 ∧ e = 117 then
              (sprintf format args).map (decimal (value % 65536) ++ ·)
            else none
        | _, _ => none
      else (sprintf format args).map (c :: ·)

/-- The strings of a record. -/
structure Strings where
  createTime : List UInt8
  vmId : List UInt8
  vmName : List UInt8
  hostName : List UInt8
  hostIp : List UInt8
  process : Fin maxVmProcNum → List UInt8

/-- What `%s` reads of each of them. -/
def strings (order : ByteOrder) (v : VmProcess) : Option Strings :=
  (whereKey v).bind fun (createTime, vmId) =>
  (str v.vmName).bind fun vmName =>
  (str v.hostId).bind fun hostName =>
  (str v.hostIp).bind fun hostIp =>
  if named : ∀ k, (processName order v.pstate k).isSome then
    some
      { createTime, vmId, vmName, hostName, hostIp
        process := fun k => (processName order v.pstate k).get (named k) }
  else none

def processArguments (t : Strings) (v : VmProcess) (k : Fin maxVmProcNum) : List Arg :=
  [.str (t.process k), .hu (v.pstate k).processState.toNat]

/-- The arguments of both calls from `v->TimeStamp` to `v->vm_process_count`. -/
def arguments (t : Strings) (v : VmProcess) : List Arg :=
  ([.str t.createTime, .str t.vmId, .str t.vmName, .str t.hostName, .hu v.vmType.toNat,
    .hu v.vmState.toNat, .hu v.vmPowerState.toNat] : List Arg) ++
  (List.finRange maxVmProcNum).flatMap (fun k => processArguments t v k) ++
  ([.hu v.bpState.toNat, .str t.hostIp, .hu v.vmProcessCount.toNat] : List Arg)

/-- The text that `PQ_InsertVMStateInfo` hands to `PQ_ExecQuery1`. -/
def insertQuery (test : Bool) (order : ByteOrder) (v : VmProcess) : Option (List UInt8) :=
  (strings order v).bind fun t =>
    sprintf insertVmStateInfo (.str (bypassVmStateInfoTb test) :: arguments t v)

/-- The text that `PQ_UpdateVMStateInfo` hands to `PQ_ExecQuery1`. -/
def updateQuery (test : Bool) (order : ByteOrder) (v : VmProcess) : Option (List UInt8) :=
  (strings order v).bind fun t =>
    sprintf updateVmStateInfo (.str (bypassVmStateInfoTb test) ::
      (arguments t v ++ [.str t.createTime, .str t.vmId]))

section Format

/-- A part of a format prints so with these arguments, whatever stands behind it. -/
def Formats (format : List UInt8) (args : List Arg) (printed : List UInt8) : Prop :=
  ∀ rest more, sprintf (format ++ rest) (args ++ more) = (sprintf rest more).map (printed ++ ·)

theorem sprintf_cons {c : UInt8} (plain : c ≠ 37) (format : List UInt8) (args : List Arg) :
    sprintf (c :: format) args = (sprintf format args).map (c :: ·) := by
  rw [sprintf.eq_def]
  exact if_neg plain

theorem formats_fixed {text : List UInt8} (plain : 37 ∉ text) : Formats text [] text := by
  intro rest more
  induction text with
  | nil => simp
  | cons c text ih =>
      rw [List.mem_cons, not_or] at plain
      rw [List.nil_append] at ih ⊢
      rw [List.cons_append, sprintf_cons (Ne.symm plain.1), ih plain.2, Option.map_map]
      rfl

theorem formats_str (chars : List UInt8) : Formats (ascii "%s") [.str chars] chars := by
  intro rest more
  rfl

theorem formats_hu (value : Nat) :
    Formats (ascii "%hu") [.hu value] (decimal (value % 65536)) := by
  intro rest more
  rfl

theorem Formats.append {format format' printed printed' : List UInt8} {args args' : List Arg}
    (first : Formats format args printed) (second : Formats format' args' printed') :
    Formats (format ++ format') (args ++ args') (printed ++ printed') := by
  intro rest more
  rw [List.append_assoc, List.append_assoc, first, second, Option.map_map]
  simp [Function.comp_def]

theorem Formats.listed {ι : Type} {format printed : ι → List UInt8} {args : ι → List Arg}
    {between : List UInt8} (plain : 37 ∉ between) (items : List ι)
    (each : ∀ i ∈ items, Formats (format i) (args i) (printed i)) :
    Formats (between.intercalate (items.map format)) (items.flatMap args)
      (between.intercalate (items.map printed)) := by
  induction items with
  | nil => exact formats_fixed (by simp)
  | cons i items ih =>
      rw [List.forall_mem_cons] at each
      cases items with
      | nil => simpa using each.1
      | cons j items =>
          have both := (each.1.append (formats_fixed plain)).append (ih each.2)
          simpa only [List.map_cons, List.intercalate_cons_cons, List.flatMap_cons,
            List.append_nil] using both

theorem Formats.sprintf {format printed : List UInt8} {args : List Arg}
    (formats : Formats format args printed) : sprintf format args = some printed := by
  have whole := formats [] []
  simpa [PqmbQuery.sprintf] using whole

/-- The text grows by no more than its arguments. -/
theorem sprintf_length : ∀ {format : List UInt8} {args : List Arg} {text : List UInt8},
    sprintf format args = some text →
      text.length ≤ format.length + (args.map fun arg => arg.print.length).sum
  | [], _, _, printed => by cases printed; simp
  | c :: format, args, text, printed => by
      rw [PqmbQuery.sprintf.eq_def] at printed
      dsimp only at printed
      split at printed
      · split at printed
        · split at printed
          · obtain ⟨rest, done, rfl⟩ := Option.map_eq_some_iff.mp printed
            have bound := sprintf_length done
            rw [List.map_cons, List.sum_cons, Arg.print, List.length_append]
            simp only [List.length_cons]
            omega
          · cases printed
        · split at printed
          · obtain ⟨rest, done, rfl⟩ := Option.map_eq_some_iff.mp printed
            have bound := sprintf_length done
            rw [List.map_cons, List.sum_cons, Arg.print, List.length_append]
            simp only [List.length_cons]
            omega
          · cases printed
        · cases printed
      · obtain ⟨rest, done, rfl⟩ := Option.map_eq_some_iff.mp printed
        have bound := sprintf_length done
        simp only [List.length_cons]
        omega

end Format

/-- The columns of both statements, in their order. -/
def columns : List (List UInt8) :=
  ["create_time", "vm_id", "vm_name", "host_name", "vm_type", "vm_state", "vm_power_state"].map
    ascii ++
  ["1", "2", "3", "4", "5", "6", "7", "8", "9", "10", "11", "12"].flatMap (fun k =>
    [ascii "vm_process" ++ ascii k ++ ascii "_name",
      ascii "vm_process" ++ ascii k ++ ascii "_state"]) ++
  ["bypass_mode_state", "host_ip", "process_count"].map ascii

/-- A value of the record, as the statement is meant to have it. -/
inductive Field where
  | text (chars : List UInt8)
  | number (value : Nat)

def processFields (t : Strings) (v : VmProcess) (k : Fin maxVmProcNum) : List Field :=
  [.text (t.process k), .number (v.pstate k).processState.toNat]

def fields (t : Strings) (v : VmProcess) : List Field :=
  ([.text t.createTime, .text t.vmId, .text t.vmName, .text t.hostName, .number v.vmType.toNat,
    .number v.vmState.toNat, .number v.vmPowerState.toNat] : List Field) ++
  (List.finRange maxVmProcNum).flatMap (fun k => processFields t v k) ++
  ([.number v.bpState.toNat, .text t.hostIp, .number v.vmProcessCount.toNat] : List Field)

def Field.format : Field → List UInt8
  | .text _ => ascii "'%s'"
  | .number _ => ascii "%hu"

def Field.arg : Field → Arg
  | .text chars => .str chars
  | .number value => .hu value

def Field.printed : Field → List UInt8
  | .text chars => quote :: (chars ++ [quote])
  | .number value => decimal (value % 65536)

def Field.value : Field → Value
  | .text chars => .text chars
  | .number value => .bare (decimal value)

def insertText (table : List UInt8) (values : List (List UInt8)) : List UInt8 :=
  ascii "INSERT" ++ (ascii " INTO " ++ (table ++ (ascii " (" ++
    ((ascii ", ").intercalate columns ++ (ascii ") VALUES (" ++
      (ascii ", ").intercalate values))))) ++ ascii ")"

def assign (column value : List UInt8) : List UInt8 := column ++ (ascii " = " ++ value)

def updateText (table : List UInt8) (assignments conditions : List (List UInt8)) : List UInt8 :=
  ascii "UPDATE" ++ (ascii " " ++ (table ++ (ascii " SET " ++
    ((ascii ", ").intercalate assignments ++ (ascii " WHERE " ++
      (ascii " AND ").intercalate conditions)))))

def textFormat : List UInt8 := ascii "'%s'"

def numberFormat : List UInt8 := ascii "%hu"

def formats : List (List UInt8) :=
  [textFormat, textFormat, textFormat, textFormat, numberFormat, numberFormat, numberFormat] ++
  (List.finRange maxVmProcNum).flatMap (fun _ => [textFormat, numberFormat]) ++
  [numberFormat, textFormat, numberFormat]

theorem fields_format (t : Strings) (v : VmProcess) :
    (fields t v).map Field.format = formats := by
  simp only [fields, processFields, formats, List.map_append, List.map_flatMap, List.map_cons,
    List.map_nil, Field.format, textFormat, numberFormat]

theorem insertVmStateInfo_eq :
    insertVmStateInfo = insertText (ascii "%s") formats ∧ insertVmStateInfo.length ≤ 1500 := by
  decide +kernel

def keyFormats : List (List UInt8) :=
  [assign (ascii "create_time") textFormat, assign (ascii "vm_id") textFormat]

theorem updateVmStateInfo_eq :
    updateVmStateInfo =
        updateText (ascii "%s") (List.zipWith assign columns formats) keyFormats ∧
      updateVmStateInfo.length ≤ 1500 := by
  decide +kernel

/-- The names of the columns are words, without the mark of a conversion. -/
theorem columns_names : ∀ column ∈ columns, IsWord column ∧ 37 ∉ column := by
  decide +kernel

theorem columns_word (column : List UInt8) (member : column ∈ columns) : IsWord column :=
  (columns_names column member).1

theorem columns_plain (column : List UInt8) (member : column ∈ columns) : 37 ∉ column :=
  (columns_names column member).2

theorem formats_field (field : Field) : Formats field.format [field.arg] field.printed := by
  cases field with
  | text chars =>
      have opened : Formats [quote] [] [quote] := formats_fixed (by decide)
      exact (opened.append (formats_str chars)).append opened
  | number value => exact formats_hu value

theorem formats_fields (fields : List Field) :
    Formats ((ascii ", ").intercalate (fields.map Field.format)) (fields.map Field.arg)
      ((ascii ", ").intercalate (fields.map Field.printed)) := by
  have each : Formats ((ascii ", ").intercalate (fields.map Field.format))
      (fields.flatMap fun field => [field.arg])
      ((ascii ", ").intercalate (fields.map Field.printed)) :=
    Formats.listed (by decide) fields fun field _ => formats_field field
  rwa [← List.map_eq_flatMap] at each

/-- A column and the value that is assigned to it, or compared with it. -/
abbrev Pair := List UInt8 × Field

theorem formats_pairs {between : List UInt8} (plain : 37 ∉ between) {pairs : List Pair}
    (columns : ∀ pair ∈ pairs, 37 ∉ pair.1) :
    Formats (between.intercalate (pairs.map fun pair => assign pair.1 pair.2.format))
      (pairs.map fun pair => pair.2.arg)
      (between.intercalate (pairs.map fun pair => assign pair.1 pair.2.printed)) := by
  have one (pair : Pair) (member : pair ∈ pairs) :
      Formats (assign pair.1 pair.2.format) [pair.2.arg] (assign pair.1 pair.2.printed) :=
    (formats_fixed (columns pair member)).append
      ((formats_fixed (by decide)).append (formats_field pair.2))
  have each : Formats (between.intercalate (pairs.map fun pair => assign pair.1 pair.2.format))
      (pairs.flatMap fun pair => [pair.2.arg])
      (between.intercalate (pairs.map fun pair => assign pair.1 pair.2.printed)) :=
    Formats.listed plain pairs one
  rwa [← List.map_eq_flatMap] at each

theorem formats_columns :
    Formats ((ascii ", ").intercalate columns) [] ((ascii ", ").intercalate columns) := by
  have each : Formats ((ascii ", ").intercalate (columns.map id)) (columns.flatMap fun _ => [])
      ((ascii ", ").intercalate (columns.map id)) :=
    Formats.listed (by decide) columns fun column member =>
      formats_fixed (columns_plain column member)
  rwa [List.flatMap_eq_nil_iff.mpr fun _ _ => rfl, List.map_id] at each

theorem sprintf_insert (table : List UInt8) (fields : List Field) :
    sprintf (insertText (ascii "%s") (fields.map Field.format))
        (.str table :: fields.map Field.arg) =
      some (insertText table (fields.map Field.printed)) := by
  have whole : Formats (insertText (ascii "%s") (fields.map Field.format))
      ([] ++ ([] ++ ([.str table] ++ ([] ++ ([] ++ ([] ++ fields.map Field.arg))))) ++ [])
      (insertText table (fields.map Field.printed)) :=
    ((formats_fixed (by decide)).append ((formats_fixed (by decide)).append
      ((formats_str table).append ((formats_fixed (by decide)).append
        (formats_columns.append ((formats_fixed (by decide)).append
          (formats_fields fields))))))).append (formats_fixed (by decide))
  simpa using whole.sprintf

theorem sprintf_update (table : List UInt8) {assigned selected : List Pair}
    (columns : ∀ pair ∈ assigned, 37 ∉ pair.1) (keys : ∀ pair ∈ selected, 37 ∉ pair.1) :
    sprintf (updateText (ascii "%s") (assigned.map fun pair => assign pair.1 pair.2.format)
        (selected.map fun pair => assign pair.1 pair.2.format))
      (.str table :: (assigned.map (fun pair => pair.2.arg) ++
        selected.map fun pair => pair.2.arg)) =
      some (updateText table (assigned.map fun pair => assign pair.1 pair.2.printed)
        (selected.map fun pair => assign pair.1 pair.2.printed)) := by
  have whole : Formats (updateText (ascii "%s")
        (assigned.map fun pair => assign pair.1 pair.2.format)
        (selected.map fun pair => assign pair.1 pair.2.format))
      ([] ++ ([] ++ ([.str table] ++ ([] ++ (assigned.map (fun pair => pair.2.arg) ++
        ([] ++ selected.map fun pair => pair.2.arg))))))
      (updateText table (assigned.map fun pair => assign pair.1 pair.2.printed)
        (selected.map fun pair => assign pair.1 pair.2.printed)) :=
    (formats_fixed (by decide)).append ((formats_fixed (by decide)).append
      ((formats_str table).append ((formats_fixed (by decide)).append
        ((formats_pairs (by decide) columns).append ((formats_fixed (by decide)).append
          (formats_pairs (by decide) keys))))))
  simpa using whole.sprintf

theorem columns_ne_nil : columns ≠ [] := by
  simp [columns]

section Reading

theorem ordinary_of_digit {c : UInt8} (digit : isDigit c = true) : isOrdinary c = true := by
  obtain ⟨low, high⟩ := isDigit_iff.mp digit
  rw [← UInt8.ofNat_toNat (x := c)]
  generalize c.toNat = n at low high
  interval_cases n <;> decide

theorem decimal_word (n : Nat) : IsWord (decimal n) :=
  ⟨(decimal_digits n).1, List.all_eq_true.mpr fun c member =>
    ordinary_of_digit ((decimal_digits n).2.1 c member)⟩

theorem decimal_injective : Function.Injective decimal := fun n m same => by
  rw [← (decimal_digits n).2.2, same, (decimal_digits m).2.2]

/-- A value that the statement carries as it is. -/
def Field.Faithful : Field → Prop
  | .text chars => quote ∉ chars
  | .number value => value < 65536

theorem reads_field (field : Field) : Reads field.printed [field.value.token] field.Faithful := by
  cases field with
  | text chars => exact reads_text chars
  | number value =>
      have kept : decimal (value % 65536) = decimal value ↔ value < 65536 := by
        rw [decimal_injective.eq_iff]
        omega
      have read : Reads (decimal (value % 65536)) [.word (decimal value)]
          (decimal (value % 65536) = decimal value) := reads_bare (decimal_word _)
      rwa [kept] at read

theorem reads_fields {fields : List Field} (some_ : fields ≠ []) :
    Reads ((ascii ", ").intercalate (fields.map Field.printed))
      (comma.intercalate (fields.map fun field => [field.value.token]))
      (∀ field ∈ fields, field.Faithful) :=
  Reads.listed some_ (fun field _ => reads_field field)
    (separates_of_scan (by decide) (by decide))

theorem reads_pairs {between : List UInt8} {mark : List Token} (sep : Separates between mark)
    {pairs : List Pair} (some_ : pairs ≠ []) (columns : ∀ pair ∈ pairs, IsWord pair.1) :
    Reads (between.intercalate (pairs.map fun pair => assign pair.1 pair.2.printed))
      (mark.intercalate (pairs.map fun pair => equation (pair.1, pair.2.value)))
      (∀ pair ∈ pairs, pair.2.Faithful) := by
  have equals : Separates (ascii " = ") [.symbol 61] :=
    separates_of_scan (by decide) (by decide)
  refine Reads.listed some_ (fun pair member => ?_) sep
  have both := (reads_word (columns pair member)).append
    equals (reads_field pair.2)
  rwa [true_and] at both

theorem reads_columns :
    Reads ((ascii ", ").intercalate columns)
      (comma.intercalate (columns.map fun column => [Token.word column])) True := by
  have each : Reads ((ascii ", ").intercalate (columns.map id))
      (comma.intercalate (columns.map fun column => [Token.word column]))
      (∀ column ∈ columns, True) :=
    Reads.listed (by simp [columns]) (fun column member => reads_word (columns_word column member))
      (separates_of_scan (by decide) (by decide))
  simpa using each

theorem lex_insert {table : List UInt8} (named : IsWord table) {fields : List Field}
    (some_ : fields ≠ []) (values : fields.map Field.value ≠ []) :
    lex (insertText table (fields.map Field.printed)) =
        some (Statement.insert table ⟨columns, columns_ne_nil⟩ ⟨_, values⟩).tokens ↔
      ∀ field ∈ fields, field.Faithful := by
  have word : Reads (ascii "INSERT") [keyword "INSERT"] True := reads_word (by decide)
  have into : Separates (ascii " INTO ") [keyword "INTO"] :=
    separates_of_scan (by decide) (by decide)
  have opened : Separates (ascii " (") [.symbol 40] := separates_of_scan (by decide) (by decide)
  have between : Separates (ascii ") VALUES (") [.symbol 41, keyword "VALUES", .symbol 40] :=
    separates_of_scan (by decide) (by decide)
  have closed : Separates (ascii ")") [.symbol 41] := separates_of_scan (by decide) (by decide)
  have read := (word.append into ((reads_word named).append opened
    (reads_columns.append between (reads_fields some_)))).lex_ended closed
  simp only [true_and] at read
  rw [← read, Statement.tokens]
  simp [insertText, Function.comp_def]

theorem lex_update {table : List UInt8} (named : IsWord table) {assigned selected : List Pair}
    (someAssigned : assigned ≠ []) (someSelected : selected ≠ [])
    (columns : ∀ pair ∈ assigned, IsWord pair.1) (keys : ∀ pair ∈ selected, IsWord pair.1)
    (assignments conditions : Items (List UInt8 × Value))
    (sameAssigned : assignments.1 = assigned.map fun pair => (pair.1, pair.2.value))
    (sameSelected : conditions.1 = selected.map fun pair => (pair.1, pair.2.value)) :
    lex (updateText table (assigned.map fun pair => assign pair.1 pair.2.printed)
        (selected.map fun pair => assign pair.1 pair.2.printed)) =
        some (Statement.update table assignments conditions).tokens ↔
      (∀ pair ∈ assigned, pair.2.Faithful) ∧ ∀ pair ∈ selected, pair.2.Faithful := by
  have word : Reads (ascii "UPDATE") [keyword "UPDATE"] True := reads_word (by decide)
  have blank : Separates (ascii " ") [] := separates_of_scan (by decide) (by decide)
  have set_ : Separates (ascii " SET ") [keyword "SET"] :=
    separates_of_scan (by decide) (by decide)
  have gap : Separates (ascii ", ") comma := separates_of_scan (by decide) (by decide)
  have where_ : Separates (ascii " WHERE ") [keyword "WHERE"] :=
    separates_of_scan (by decide) (by decide)
  have and_ : Separates (ascii " AND ") [keyword "AND"] :=
    separates_of_scan (by decide) (by decide)
  have read := (word.append blank ((reads_word named).append set_
    ((reads_pairs gap someAssigned columns).append where_
      (reads_pairs and_ someSelected keys)))).lex
  simp only [true_and] at read
  rw [← read, Statement.tokens, sameAssigned, sameSelected]
  simp [updateText, Function.comp_def]

end Reading

section Record

/-- The strings of a record, each ended within its array. -/
structure Strings.Of (t : Strings) (v : VmProcess) : Prop where
  createTime : str v.timeStamp = some t.createTime
  vmId : str v.vmId = some t.vmId
  vmName : str v.vmName = some t.vmName
  hostName : str v.hostId = some t.hostName
  hostIp : str v.hostIp = some t.hostIp
  process : ∀ k, str (v.pstate k).processName = some (t.process k)

variable {order : ByteOrder} {t : Strings} {v : VmProcess}

theorem processName_of_str {pstate : Fin maxVmProcNum → ProcessState} {k : Fin maxVmProcNum}
    {chars : List UInt8} (read : str (pstate k).processName = some chars) :
    processName order pstate k = some chars := by
  have inside : k.val < (List.ofFn pstate).length := by simp
  rw [processName, List.drop_eq_getElem_cons inside, List.flatMap_cons, List.getElem_ofFn,
    ProcessState.image, List.append_assoc]
  exact cstr_append_of_some read _

theorem Strings.Of.read (named : t.Of v) : strings order v = some t := by
  have names (k : Fin maxVmProcNum) : processName order v.pstate k = some (t.process k) :=
    processName_of_str (named.process k)
  simp [strings, whereKey, named.createTime, named.vmId, named.vmName, named.hostName,
    named.hostIp, names]

theorem arguments_eq (t : Strings) (v : VmProcess) :
    arguments t v = (fields t v).map Field.arg := by
  simp only [arguments, processArguments, fields, processFields, List.map_append,
    List.map_flatMap, List.map_cons, List.map_nil, Field.arg]

theorem fields_length (t : Strings) (v : VmProcess) : (fields t v).length = 34 := by
  simp [fields, processFields, maxVmProcNum]

theorem fields_ne_nil (t : Strings) (v : VmProcess) : fields t v ≠ [] := by
  simp [fields]

theorem values_ne_nil (t : Strings) (v : VmProcess) : (fields t v).map Field.value ≠ [] := by
  simp [fields]

/-- What the INSERT is meant to say: the values of the record in the order of the columns. -/
def insertStatement (test : Bool) (t : Strings) (v : VmProcess) : Statement :=
  .insert (bypassVmStateInfoTb test) ⟨columns, columns_ne_nil⟩
    ⟨(fields t v).map Field.value, values_ne_nil t v⟩

/-- What the UPDATE is meant to say: the same values for the same columns, in the rows with
the record's `create_time` and `vm_id`. -/
def updateStatement (test : Bool) (t : Strings) (v : VmProcess) : Statement :=
  .update (bypassVmStateInfoTb test)
    ⟨columns.zip ((fields t v).map Field.value), by simp [columns, fields]⟩
    ⟨[(ascii "create_time", .text t.createTime), (ascii "vm_id", .text t.vmId)], by simp⟩

def Strings.all (t : Strings) : List (List UInt8) :=
  [t.createTime, t.vmId, t.vmName, t.hostName, t.hostIp] ++ List.ofFn t.process

/-- The columns that the UPDATE sets and those that select its rows, with their values. -/
def assigned (t : Strings) (v : VmProcess) : List Pair := columns.zip (fields t v)

def selected (t : Strings) : List Pair :=
  [(ascii "create_time", .text t.createTime), (ascii "vm_id", .text t.vmId)]

theorem assigned_fields (t : Strings) (v : VmProcess) :
    (assigned t v).map Prod.snd = fields t v := by
  apply List.map_snd_zip
  rw [fields_length]
  exact Nat.le_of_eq rfl

theorem assigned_columns (pair : Pair) (member : pair ∈ assigned t v) : pair.1 ∈ columns :=
  (List.of_mem_zip member).1

theorem selected_columns (pair : Pair) (member : pair ∈ selected t) : pair.1 ∈ columns := by
  rcases List.mem_pair.mp member with rfl | rfl <;> simp [columns]

theorem pairs_faithful :
    ((∀ pair ∈ assigned t v, pair.2.Faithful) ∧ ∀ pair ∈ selected t, pair.2.Faithful) ↔
      ∀ field ∈ fields t v, field.Faithful := by
  have whole : (∀ pair ∈ assigned t v, pair.2.Faithful) ↔
      ∀ field ∈ fields t v, field.Faithful := by
    rw [← assigned_fields t v, List.forall_mem_map]
  rw [whole, and_iff_left_iff_imp]
  intro each pair member
  rcases List.mem_pair.mp member with rfl | rfl
  · exact each (.text t.createTime) (by simp [fields])
  · exact each (.text t.vmId) (by simp [fields])

theorem fields_faithful :
    (∀ field ∈ fields t v, field.Faithful) ↔
      (∀ chars ∈ t.all, quote ∉ chars) ∧ ∀ k, (v.pstate k).processState.toNat < 65536 := by
  have vmType := v.vmType.toNat_lt
  have vmState := v.vmState.toNat_lt
  have vmPowerState := v.vmPowerState.toNat_lt
  have bpState := v.bpState.toNat_lt
  have vmProcessCount := v.vmProcessCount.toNat_lt
  simp only [fields, processFields, Strings.all, List.forall_mem_append, List.forall_mem_cons,
    List.forall_mem_flatMap, List.mem_ofFn, Field.Faithful, List.not_mem_nil, false_imp_iff,
    implies_true, List.mem_finRange, forall_true_left, and_true, forall_exists_index,
    forall_apply_eq_imp_iff, forall_and]
  tauto

theorem decimal_length {n k : Nat} (small : n < 10 ^ (k + 1)) : (decimal n).length ≤ k + 1 := by
  induction k generalizing n with
  | zero =>
      rw [decimal, if_pos (by simpa using small)]
      rfl
  | succ k ih =>
      rw [decimal]
      split_ifs
      · simp
      · have rest := ih (n := n / 10) (by rw [pow_succ] at small; omega)
        simp only [List.length_append, List.length_singleton]
        omega

theorem hu_length (value : Nat) : (Arg.hu value).print.length ≤ 5 :=
  decimal_length (k := 4) (by omega)

theorem str_length_lt {n : Nat} {array : Bytes n} {chars : List UInt8}
    (read : str array = some chars) : chars.length < n := by
  have short := cstr_length_lt read
  rwa [array.length_toList] at short

theorem arguments_length (named : t.Of v) :
    ((arguments t v).map fun arg => arg.print.length).sum ≤ 1915 := by
  have createTime := str_length_lt named.createTime
  have vmId := str_length_lt named.vmId
  have vmName := str_length_lt named.vmName
  have hostName := str_length_lt named.hostName
  have hostIp := str_length_lt named.hostIp
  have processes :
      (((List.finRange maxVmProcNum).flatMap (fun k => processArguments t v k)).map
        fun arg => arg.print.length).sum ≤ 24 * 63 := by
    refine (List.sum_le_card_nsmul _ 63 ?_).trans_eq (by simp [processArguments, maxVmProcNum])
    simp only [processArguments, List.forall_mem_map, List.forall_mem_flatMap, List.forall_mem_cons,
      List.not_mem_nil, false_imp_iff, implies_true, and_true]
    intro k _
    exact ⟨Nat.le_of_lt_succ (str_length_lt (named.process k)), (hu_length _).trans (by decide)⟩
  have vmType := hu_length v.vmType.toNat
  have vmState := hu_length v.vmState.toNat
  have vmPowerState := hu_length v.vmPowerState.toNat
  have bpState := hu_length v.bpState.toNat
  have vmProcessCount := hu_length v.vmProcessCount.toNat
  simp only [maxTimeLength, maxNameLength] at createTime vmId vmName hostName hostIp
  rw [arguments, List.map_append, List.map_append, List.sum_append, List.sum_append]
  simp only [List.map_cons, List.map_nil, List.sum_cons, List.sum_nil]
  simp only [Arg.print_str, Arg.print_hu] at vmType vmState vmPowerState bpState vmProcessCount ⊢
  omega

theorem table_word (test : Bool) : IsWord (bypassVmStateInfoTb test) := by
  cases test <;> decide

theorem table_length (test : Bool) : (bypassVmStateInfoTb test).length ≤ 27 := by
  cases test <;> decide

theorem insertQuery_eq (order : ByteOrder) (named : t.Of v) (test : Bool) :
    insertQuery test order v =
      some (insertText (bypassVmStateInfoTb test) ((fields t v).map Field.printed)) := by
  rw [insertQuery, named.read, Option.bind_some, insertVmStateInfo_eq.1, ← fields_format t v,
    arguments_eq, sprintf_insert]

theorem updateQuery_eq (order : ByteOrder) (named : t.Of v) (test : Bool) :
    updateQuery test order v =
      some (updateText (bypassVmStateInfoTb test)
        ((assigned t v).map fun pair => assign pair.1 pair.2.printed)
        ((selected t).map fun pair => assign pair.1 pair.2.printed)) := by
  have assigns : List.zipWith assign columns formats =
      (assigned t v).map fun pair => assign pair.1 pair.2.format := by
    rw [← fields_format t v, assigned, List.zipWith_map_right, List.map_zip_eq_zipWith]
    rfl
  have args : arguments t v = (assigned t v).map fun pair => pair.2.arg := by
    rw [arguments_eq, ← assigned_fields t v, List.map_map]
    rfl
  have keys : keyFormats = (selected t).map fun pair => assign pair.1 pair.2.format := rfl
  have keyArgs : [Arg.str t.createTime, .str t.vmId] = (selected t).map fun pair => pair.2.arg :=
    rfl
  rw [updateQuery, named.read, Option.bind_some, updateVmStateInfo_eq.1, assigns, args, keys,
    keyArgs, sprintf_update _ (fun pair member => columns_plain _ (assigned_columns pair member))
      (fun pair member => columns_plain _ (selected_columns pair member))]

theorem insertQuery_length (named : t.Of v) {test : Bool} {query : List UInt8}
    (printed : insertQuery test order v = some query) : query.length < maxQueryLength := by
  rw [insertQuery, named.read, Option.bind_some] at printed
  have bound := sprintf_length printed
  have args := arguments_length named
  have table := table_length test
  have format := insertVmStateInfo_eq.2
  simp only [List.map_cons, List.sum_cons, Arg.print_str] at bound
  unfold maxQueryLength
  omega

theorem updateQuery_length (named : t.Of v) {test : Bool} {query : List UInt8}
    (printed : updateQuery test order v = some query) : query.length < maxQueryLength := by
  rw [updateQuery, named.read, Option.bind_some] at printed
  have bound := sprintf_length printed
  have args := arguments_length named
  have table := table_length test
  have format := updateVmStateInfo_eq.2
  have createTime := str_length_lt named.createTime
  have vmId := str_length_lt named.vmId
  simp only [List.map_cons, List.map_append, List.map_nil, List.sum_cons, List.sum_append,
    List.sum_nil, Arg.print_str] at bound
  simp only [maxTimeLength, maxNameLength] at createTime vmId
  unfold maxQueryLength
  omega

/-- A text that fits `Query` and that the server reads as the statement meant. -/
def Carries (text : Option (List UInt8)) (statement : Statement) : Prop :=
  ∃ query, text = some query ∧ query.length < maxQueryLength ∧ Means query statement

theorem carries_iff {text : Option (List UInt8)} {query : List UInt8} {statement : Statement}
    (printed : text = some query) (fits : query.length < maxQueryLength) :
    Carries text statement ↔ lex query = some statement.tokens := by
  rw [← means_iff]
  constructor
  · rintro ⟨other, same, -, means⟩
    cases printed.symm.trans same
    exact means
  · exact fun means => ⟨query, printed, fits, means⟩

theorem insertQuery_carries_iff (named : t.Of v) (test : Bool) :
    Carries (insertQuery test order v) (insertStatement test t v) ↔
      (∀ chars ∈ t.all, quote ∉ chars) ∧ ∀ k, (v.pstate k).processState.toNat < 65536 := by
  have printed := insertQuery_eq order named test
  rw [carries_iff printed (insertQuery_length named printed), ← fields_faithful]
  exact lex_insert (table_word test) (fields_ne_nil t v) (values_ne_nil t v)

theorem updateQuery_carries_iff (named : t.Of v) (test : Bool) :
    Carries (updateQuery test order v) (updateStatement test t v) ↔
      (∀ chars ∈ t.all, quote ∉ chars) ∧ ∀ k, (v.pstate k).processState.toNat < 65536 := by
  have printed := updateQuery_eq order named test
  have values : columns.zip ((fields t v).map Field.value) =
      (assigned t v).map fun pair => (pair.1, pair.2.value) := by
    rw [assigned, List.zip_map_right]
    rfl
  rw [carries_iff printed (updateQuery_length named printed), ← fields_faithful,
    ← pairs_faithful]
  exact lex_update (table_word test) (by simp [assigned, columns, fields]) (by simp [selected])
    (fun pair member => columns_word _ (assigned_columns pair member))
    (fun pair member => columns_word _ (selected_columns pair member)) _ _ values rfl

/-- Both statements say what the record says exactly if no string of it contains a quote
and no process state needs more than the sixteen bits that `%hu` prints. -/
theorem queries_carry_record_iff (order : ByteOrder) (test : Bool) (t : Strings) (v : VmProcess)
    (named : t.Of v) :
    Carries (insertQuery test order v) (insertStatement test t v) ∧
        Carries (updateQuery test order v) (updateStatement test t v) ↔
      (∀ chars ∈ t.all, quote ∉ chars) ∧ ∀ k, (v.pstate k).processState.toNat < 65536 := by
  rw [insertQuery_carries_iff named, updateQuery_carries_iff named, and_self]

/-- The record of a VM named `web`, without processes. -/
def webRecord : VmProcess :=
  { VmProcess.zero with
    vmName := ⟨[119, 101, 98] ++ List.replicate 125 0, by simp [maxNameLength]⟩ }

def webStrings : Strings := ⟨[], [], [119, 101, 98], [], [], fun _ => []⟩

theorem queries_carry_webRecord :
    Carries (insertQuery false .little webRecord) (insertStatement false webStrings webRecord) ∧
      Carries (updateQuery false .little webRecord)
        (updateStatement false webStrings webRecord) :=
  (queries_carry_record_iff .little false webStrings webRecord
    ⟨by rfl, by rfl, by rfl, by rfl, by rfl, fun _ => by rfl⟩).mpr
      ⟨by simp [webStrings, Strings.all, quote], fun _ => Nat.two_pow_pos 16⟩

/-- The record of a VM named `a'b`. -/
def quotedRecord : VmProcess :=
  { VmProcess.zero with
    vmName := ⟨[97, 39, 98] ++ List.replicate 125 0, by simp [maxNameLength]⟩ }

def quotedStrings : Strings := ⟨[], [], [97, 39, 98], [], [], fun _ => []⟩

/-- The quote ends the value early. -/
theorem quoted_record_not_carried :
    quotedStrings.Of quotedRecord ∧
      ¬ Carries (insertQuery false .little quotedRecord)
        (insertStatement false quotedStrings quotedRecord) ∧
      ¬ Carries (updateQuery false .little quotedRecord)
        (updateStatement false quotedStrings quotedRecord) := by
  have named : quotedStrings.Of quotedRecord :=
    ⟨by rfl, by rfl, by rfl, by rfl, by rfl, fun _ => by rfl⟩
  have spoilt : ¬ ∀ chars ∈ quotedStrings.all, quote ∉ chars := fun each =>
    each [97, 39, 98] (by simp [quotedStrings, Strings.all]) (by simp [quote])
  refine ⟨named, ?_, ?_⟩
  · rw [insertQuery_carries_iff named]
    exact fun both => spoilt both.1
  · rw [updateQuery_carries_iff named]
    exact fun both => spoilt both.1

end Record

end VnfMonitoring.PqmbQuery
