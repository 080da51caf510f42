import VnfMonitoring.PqmbQuery

set_option autoImplicit false

/- `PQMB` down to the texts: what its functions hand to `PQexec`, what they make of the
result, and that a server which does what the texts say keeps the table of `Pqmb`. -/
namespace VnfMonitoring.PqmbServer

open VnfMonitoring.Memory VnfMonitoring.Bpapp VnfMonitoring.Sql VnfMonitoring.DbmbStatus
  VnfMonitoring.Pqmb VnfMonitoring.PqmbQuery

/-- `PGresult`, with the columns of the rows as texts. -/
inductive PgResult where
  | commandOk
  | tuplesOk (rows : List (List (List UInt8)))
  | failed

/-- What is at the other end of `pgconn1`: `PQexec`, which may have no result at all, and the
rows of the table. -/
structure PgServer (σ : Type) where
  exec : σ → List UInt8 → Option PgResult × σ
  table : σ → VmStateTable

/-- The server and the number of results that `PQclear` has yet to free. -/
structure Conn (σ : Type) where
  server : σ
  results : Int

/-- `SELECT_COUNT_VM_STATE_INFO`. -/
def selectCountVmStateInfo : List UInt8 :=
  ascii "SELECT COUNT(*) FROM %s WHERE create_time = '%s' AND vm_id = '%s'"

/-- `SELECT_PROCESS_COUNT_VM_STATE_INFO`. -/
def selectProcessCountVmStateInfo : List UInt8 :=
  ascii "SELECT process_count FROM %s WHERE create_time = '%s' AND vm_id = '%s'"

def selectQuery (format : List UInt8) (test : Bool) (v : VmProcess) : Option (List UInt8) :=
  (whereKey v).bind fun (createTime, vmId) =>
    sprintf format [.str (bypassVmStateInfoTb test), .str createTime, .str vmId]

/-- A text as far as it fits `Query`. -/
def inQuery (text : Option (List UInt8)) : Option (List UInt8) :=
  text.filter fun query => decide (query.length < maxQueryLength)

/-- `atoi` of a number that an `int` can have. -/
def atoi (text : List UInt8) : Int :=
  Int.bmod ((scanUnsigned 32 text).getD 0) 4294967296

section Functions

variable {σ : Type} (server : PgServer σ) (test : Bool) (order : ByteOrder)

def pqExec (c : Conn σ) (query : List UInt8) : Option PgResult × Conn σ :=
  let (res, s) := server.exec c.server query
  (res, ⟨s, if res.isSome then c.results + 1 else c.results⟩)

def pqClear (res : Option PgResult) (c : Conn σ) : Conn σ :=
  { c with results := if res.isSome then c.results - 1 else c.results }

/-- `PQ_ExecQuery1`. -/
def pqExecQuery1 (c : Conn σ) (query : List UInt8) : Int × Conn σ :=
  let (res, c) := pqExec server c query
  match res with
  | some .commandOk => (0, pqClear res c)
  | _ => (-1, pqClear res c)

/-- `PQ_ExecSelectQuery1`; its caller clears the result. -/
def pqExecSelectQuery1 (c : Conn σ) (query : List UInt8) : Int × Option PgResult × Conn σ :=
  let (res, c) := pqExec server c query
  match res with
  | some (.tuplesOk _) => (0, res, c)
  | _ => (-1, res, c)

/-- `PQgetvalue`; there is no value outside the rows. -/
def pqGetvalue (res : Option PgResult) (row column : Nat) : Option (List UInt8) :=
  match res with
  | some (.tuplesOk rows) => rows[row]?.bind fun columns => columns[column]?
  | _ => none

/-- The number that a SELECT reads. -/
def pqSelectNumber (c : Conn σ) (text : Option (List UInt8)) : Option (Int × Conn σ) :=
  (inQuery text).bind fun query =>
    let (retval, res, c) := pqExecSelectQuery1 server c query
    if retval < 0 then some (-1, pqClear res c)
    else (pqGetvalue res 0 0).map fun value => (atoi value, pqClear res c)

/-- `PQ_SelectCountVMStateInfo`. -/
def pqSelectCountVMStateInfo (c : Conn σ) (v : VmProcess) : Option (Int × Conn σ) :=
  pqSelectNumber server c (selectQuery selectCountVmStateInfo test v)

/-- `PQ_CheckVMStateInfo`. -/
def pqCheckVMStateInfo (c : Conn σ) (v : VmProcess) : Option (Int × Conn σ) :=
  pqSelectNumber server c (selectQuery selectProcessCountVmStateInfo test v)

/-- `PQ_InsertVMStateInfo`. -/
def pqInsertVMStateInfo (c : Conn σ) (v : VmProcess) : Option (Int × Conn σ) :=
  (inQuery (insertQuery test order v)).map (pqExecQuery1 server c)

/-- `PQ_UpdateVMStateInfo`. -/
def pqUpdateVMStateInfo (c : Conn σ) (v : VmProcess) : Option (Int × Conn σ) :=
  (inQuery (updateQuery test order v)).map (pqExecQuery1 server c)

end Functions

/-- The values of a row, in the order of the columns. -/
def rowFields (row : VmStateRow) : List Field :=
  ([.text row.createTime, .text row.vmId, .text row.vmName, .text row.hostName,
    .number row.vmType.toNat, .number row.vmState.toNat,
    .number row.vmPowerState.toNat] : List Field) ++
  (List.finRange maxVmProcNum).flatMap (fun k =>
    [.text (row.vmProcess k).1, .number (row.vmProcess k).2.toNat]) ++
  ([.number row.bypassModeState.toNat, .text row.hostIp,
    .number row.processCount.toNat] : List Field)

theorem rowValues_ne_nil (row : VmStateRow) : (rowFields row).map Field.value ≠ [] := by
  simp [rowFields]

/-- The INSERT of a row, and the UPDATE of the rows at its key. -/
def insertOf (test : Bool) (row : VmStateRow) : Statement :=
  .insert (bypassVmStateInfoTb test) ⟨columns, columns_ne_nil⟩
    ⟨(rowFields row).map Field.value, rowValues_ne_nil row⟩

def updateOf (test : Bool) (row : VmStateRow) : Statement :=
  .update (bypassVmStateInfoTb test)
    ⟨columns.zip ((rowFields row).map Field.value), by simp [columns, rowFields]⟩
    ⟨[(ascii "create_time", .text row.createTime), (ascii "vm_id", .text row.vmId)], by simp⟩

def whereTokens (test : Bool) (key : Key) : List Token :=
  [.word (bypassVmStateInfoTb test), keyword "WHERE"] ++
    [keyword "AND"].intercalate
      [equation (ascii "create_time", .text key.1), equation (ascii "vm_id", .text key.2)]

/-- What the four texts say. -/
inductive Command where
  | insert (row : VmStateRow)
  | update (row : VmStateRow)
  | count (key : Key)
  | processCount (key : Key)

def Command.tokens (test : Bool) : Command → List Token
  | .insert row => (insertOf test row).tokens
  | .update row => (updateOf test row).tokens
  | .count key =>
      [keyword "SELECT", keyword "COUNT", .symbol 40, keyword "*", .symbol 41, keyword "FROM"] ++
        whereTokens test key
  | .processCount key =>
      [keyword "SELECT", keyword "process_count", keyword "FROM"] ++ whereTokens test key

/-- A change is made when the server says so, and may be made when the result is lost. -/
def PgServer.Changes {σ : Type} (server : PgServer σ) (s : σ) (text : List UInt8)
    (changed : VmStateTable) : Prop :=
  ((server.exec s text).1 = some .commandOk → server.table (server.exec s text).2 = changed) ∧
    (server.table (server.exec s text).2 = changed ∨
      server.table (server.exec s text).2 = server.table s)

/-- A query returns these rows if any, and changes nothing. -/
def PgServer.Reads {σ : Type} (server : PgServer σ) (s : σ) (text : List UInt8)
    (expected : List (List (List UInt8))) : Prop :=
  (∀ rows, (server.exec s text).1 = some (.tuplesOk rows) → rows = expected) ∧
    server.table (server.exec s text).2 = server.table s

def PgServer.Does {σ : Type} (server : PgServer σ) (s : σ) (text : List UInt8) :
    Command → Prop
  | .insert row => server.Changes s text (server.table s ++ [row])
  | .update row => server.Changes s text (setRows (server.table s) row)
  | .count key => server.Reads s text [[decimal (rowsAt (server.table s) key).length]]
  | .processCount key =>
      server.Reads s text
        ((rowsAt (server.table s) key).map fun row => [decimal row.processCount.toNat])

/-- The server does what a text says that it can read. -/
def PgServer.Lawful {σ : Type} (server : PgServer σ) (test : Bool) : Prop :=
  ∀ s text command, lex text = some (Command.tokens test command) → server.Does s text command

section Texts

variable {order : ByteOrder} {test : Bool} {t : Strings} {v : VmProcess}

/-- A record whose strings end, without a quote in them, and whose process states fit the
sixteen bits that `%hu` prints. -/
structure Printable (t : Strings) (v : VmProcess) : Prop where
  named : t.Of v
  plain : ∀ chars ∈ t.all, quote ∉ chars
  states : ∀ k, (v.pstate k).processState.toNat < 65536

theorem Printable.key (printable : Printable t v) : whereKey v = some (t.createTime, t.vmId) := by
  rw [whereKey, printable.named.createTime, printable.named.vmId]
  rfl

/-- The row of a record with these strings. -/
def rowOf (t : Strings) (v : VmProcess) : VmStateRow where
  createTime := t.createTime
  vmId := t.vmId
  vmName := t.vmName
  hostName := t.hostName
  vmType := v.vmType
  vmState := v.vmState
  vmPowerState := v.vmPowerState
  vmProcess := fun k => (t.process k, (v.pstate k).processState.toUInt16)
  bypassModeState := v.bpState
  hostIp := t.hostIp
  processCount := v.vmProcessCount

theorem Printable.row (printable : Printable t v) : vmStateRow order v = some (rowOf t v) := by
  have named := printable.named
  have names (k : Fin maxVmProcNum) : processName order v.pstate k = some (t.process k) :=
    processName_of_str (named.process k)
  simp [vmStateRow, printable.key, named.vmName, named.hostName, named.hostIp, names, rowOf]

/-- The row has the values that are printed. -/
theorem Printable.rowFields (printable : Printable t v) : rowFields (rowOf t v) = fields t v := by
  have state (k : Fin maxVmProcNum) :
      (v.pstate k).processState.toUInt16.toNat = (v.pstate k).processState.toNat := by
    rw [UInt32.toNat_toUInt16]
    exact Nat.mod_eq_of_lt (printable.states k)
  simp only [PqmbServer.rowFields, rowOf, fields, processFields, state]

theorem Printable.faithful (printable : Printable t v) : ∀ field ∈ fields t v, field.Faithful :=
  fields_faithful.mpr ⟨printable.plain, printable.states⟩

theorem Printable.keys_faithful (printable : Printable t v) :
    ∀ pair ∈ selected t, pair.2.Faithful :=
  (pairs_faithful.mpr printable.faithful).2

/-- The INSERT that is printed is that of the row, and it fits. -/
theorem Printable.inserts (printable : Printable t v) (order : ByteOrder) (test : Bool) :
    ∃ query,
    inQuery (insertQuery test order v) = some query ∧
      lex query = some (Command.tokens test (.insert (rowOf t v))) := by
  have printed := insertQuery_eq order printable.named test
  have fits := insertQuery_length printable.named printed
  refine ⟨_, by rw [printed, inQuery, Option.filter_some, if_pos (decide_eq_true fits)], ?_⟩
  simp only [Command.tokens, insertOf, printable.rowFields]
  exact (lex_insert (table_word test) (fields_ne_nil t v) _).mpr printable.faithful

/-- So is the UPDATE. -/
theorem Printable.updates (printable : Printable t v) (order : ByteOrder) (test : Bool) :
    ∃ query,
    inQuery (updateQuery test order v) = some query ∧
      lex query = some (Command.tokens test (.update (rowOf t v))) := by
  have printed := updateQuery_eq order printable.named test
  have fits := updateQuery_length printable.named printed
  have values : columns.zip ((fields t v).map Field.value) =
      (assigned t v).map fun pair => (pair.1, pair.2.value) := by
    rw [assigned, List.zip_map_right]
    rfl
  refine ⟨_, by rw [printed, inQuery, Option.filter_some, if_pos (decide_eq_true fits)], ?_⟩
  rw [Command.tokens, updateOf, lex_update (table_word test) (by simp [assigned, columns, fields])
    (by simp [selected]) (fun pair member => columns_word _ (assigned_columns pair member))
    (fun pair member => columns_word _ (selected_columns pair member))]
  · exact pairs_faithful.mpr printable.faithful
  · simp only [printable.rowFields, values]
  · simp only [selected, rowOf, List.map_cons, List.map_nil, Field.value]

/-- A SELECT of the rows at a key. -/
def selectText (columns table : List UInt8) (conditions : List (List UInt8)) : List UInt8 :=
  ascii "SELECT" ++ (columns ++ (table ++ (ascii " WHERE " ++
    (ascii " AND ").intercalate conditions)))

def countColumns : List UInt8 := ascii " COUNT(*) FROM "

def processCountColumns : List UInt8 := ascii " process_count FROM "

theorem selectFormats_eq :
    selectCountVmStateInfo = selectText countColumns (ascii "%s") keyFormats ∧
      selectProcessCountVmStateInfo = selectText processCountColumns (ascii "%s") keyFormats := by
  decide +kernel

def conditions (t : Strings) : List (List UInt8) :=
  (selected t).map fun pair => PqmbQuery.assign pair.1 pair.2.printed

theorem formats_select (t : Strings) (test : Bool) {columns : List UInt8}
    (plain : 37 ∉ columns) :
    sprintf (selectText columns (ascii "%s") keyFormats)
        [.str (bypassVmStateInfoTb test), .str t.createTime, .str t.vmId] =
      some (selectText columns (bypassVmStateInfoTb test) (conditions t)) := by
  have pairs : Formats ((ascii " AND ").intercalate keyFormats)
      ((selected t).map fun pair => pair.2.arg) ((ascii " AND ").intercalate (conditions t)) :=
    formats_pairs (by decide) fun pair member => columns_plain _ (selected_columns pair member)
  have select : Formats (ascii "SELECT") [] (ascii "SELECT") := formats_fixed (by decide)
  have where_ : Formats (ascii " WHERE ") [] (ascii " WHERE ") := formats_fixed (by decide)
  have whole := select.append ((formats_fixed plain).append
    ((formats_str (bypassVmStateInfoTb test)).append (where_.append pairs)))
  exact whole.sprintf

/-- The text of a SELECT, and that it fits. -/
theorem Printable.selects (printable : Printable t v) {columns : List UInt8}
    (plain : 37 ∉ columns)
    (short : (selectText columns (ascii "%s") keyFormats).length ≤ 200) :
    inQuery (selectQuery (selectText columns (ascii "%s") keyFormats) test v) =
      some (selectText columns (bypassVmStateInfoTb test) (conditions t)) := by
  have printed := formats_select t test plain
  have bound := sprintf_length printed
  have createTime := str_length_lt printable.named.createTime
  have vmId := str_length_lt printable.named.vmId
  have table := table_length test
  have fits : (selectText columns (bypassVmStateInfoTb test) (conditions t)).length <
      maxQueryLength := by
    simp only [List.map_cons, List.map_nil, List.sum_cons, List.sum_nil, Arg.print_str] at bound
    simp only [maxTimeLength, maxNameLength] at createTime vmId
    unfold maxQueryLength
    omega
  rw [selectQuery, printable.key, Option.bind_some]
  dsimp only
  rw [printed, inQuery, Option.filter_some, if_pos (decide_eq_true fits)]

/-- It reads as meant, whatever it selects. -/
theorem Printable.lex_select (printable : Printable t v) {columns : List UInt8}
    {mark : List Token} (sep : Separates columns mark) :
    lex (selectText columns (bypassVmStateInfoTb test) (conditions t)) =
      some (keyword "SELECT" :: (mark ++ whereTokens test (t.createTime, t.vmId))) := by
  have word : Reads (ascii "SELECT") [keyword "SELECT"] True := reads_word (by decide)
  have where_ : Separates (ascii " WHERE ") [keyword "WHERE"] :=
    separates_of_scan (by decide) (by decide)
  have and_ : Separates (ascii " AND ") [keyword "AND"] :=
    separates_of_scan (by decide) (by decide)
  have some_ : selected t ≠ [] := by simp [selected]
  have pairs := reads_pairs and_ some_ fun pair member =>
    columns_word _ (selected_columns pair member)
  have read := (word.append sep ((reads_word (table_word test)).append where_ pairs)).lex
  exact read.mpr ⟨trivial, trivial, printable.keys_faithful⟩

theorem Printable.counts (printable : Printable t v) (test : Bool) : ∃ query,
    inQuery (selectQuery selectCountVmStateInfo test v) = some query ∧
      lex query = some (Command.tokens test (.count (t.createTime, t.vmId))) := by
  have mark : Separates countColumns
      [keyword "COUNT", .symbol 40, keyword "*", .symbol 41, keyword "FROM"] :=
    separates_of_scan (by decide) (by decide)
  rw [selectFormats_eq.1]
  exact ⟨_, printable.selects (by decide) (by decide +kernel), printable.lex_select mark⟩

theorem Printable.processCounts (printable : Printable t v) (test : Bool) : ∃ query,
    inQuery (selectQuery selectProcessCountVmStateInfo test v) = some query ∧
      lex query = some (Command.tokens test (.processCount (t.createTime, t.vmId))) := by
  have mark : Separates processCountColumns [keyword "process_count", keyword "FROM"] :=
    separates_of_scan (by decide) (by decide)
  rw [selectFormats_eq.2]
  exact ⟨_, printable.selects (by decide) (by decide +kernel), printable.lex_select mark⟩

end Texts

section Calls

variable {σ : Type} {server : PgServer σ} {test : Bool} {order : ByteOrder} {t : Strings}
  {v : VmProcess} {c : Conn σ}

/-- A statement is made or not, and its result is cleared. -/
theorem pqExecQuery1_changes {query : List UInt8} {changed : VmStateTable}
    (changes : server.Changes c.server query changed) :
    (pqExecQuery1 server c query).2.results = c.results ∧
      ∃ accepted : Bool, server.table (pqExecQuery1 server c query).2.server =
        if accepted then changed else server.table c.server := by
  unfold PgServer.Changes at changes
  unfold pqExecQuery1 pqExec pqClear
  cases answer : server.exec c.server query with
  | mk res s =>
      rw [answer] at changes
      have made : ∃ accepted : Bool, server.table s =
          if accepted then changed else server.table c.server :=
        changes.2.elim (fun same => ⟨true, same⟩) (fun same => ⟨false, same⟩)
      cases res with
      | none => exact ⟨rfl, made⟩
      | some res => cases res <;> exact ⟨Int.add_sub_cancel c.results 1, made⟩

/-- A number is read or not, and the result is cleared. -/
theorem pqSelectNumber_reads {text : Option (List UInt8)} {query value : List UInt8}
    {rows : List (List (List UInt8))} (fits : inQuery text = some query)
    (reads : server.Reads c.server query rows)
    (first : (rows[0]?.bind fun columns => columns[0]?) = some value) :
    ∃ accepted next, pqSelectNumber server c text =
        some (if accepted = true then atoi value else -1, next) ∧
      next.results = c.results ∧ server.table next.server = server.table c.server := by
  unfold PgServer.Reads at reads
  unfold pqSelectNumber pqExecSelectQuery1 pqExec pqClear
  rw [fits, Option.bind_some]
  cases answer : server.exec c.server query with
  | mk res s =>
      rw [answer] at reads
      have same := Int.add_sub_cancel c.results 1
      cases res with
      | none => exact ⟨false, ⟨s, c.results⟩, rfl, rfl, reads.2⟩
      | some res =>
          cases res with
          | commandOk => exact ⟨false, ⟨s, c.results + 1 - 1⟩, rfl, same, reads.2⟩
          | failed => exact ⟨false, ⟨s, c.results + 1 - 1⟩, rfl, same, reads.2⟩
          | tuplesOk found =>
              cases reads.1 found rfl
              refine ⟨true, ⟨s, c.results + 1 - 1⟩, ?_, same, reads.2⟩
              simp only [Int.lt_irrefl, if_false, pqGetvalue, first, Option.map_some, if_true,
                Option.isSome_some]

theorem atoi_decimal {n : Nat} (small : n < 2147483648) : atoi (decimal n) = n := by
  have fits : n < 2 ^ 32 := small.trans (by decide)
  have read : scanUnsigned 32 (decimal n) = some n := scanUnsigned_decimal fits (by decide)
  unfold atoi
  rw [read, Option.getD_some]
  apply Int.bmod_eq_of_le_mul_two <;> omega

theorem pqInsertVMStateInfo_matched (order : ByteOrder) (lawful : server.Lawful test)
    (printable : Printable t v) (c : Conn σ) :
    ∃ retval next accepted, pqInsertVMStateInfo server test order c v = some (retval, next) ∧
      next.results = c.results ∧
      (Pqmb.insertVMStateInfo order accepted (server.table c.server) v).map Prod.snd =
        some (server.table next.server) := by
  obtain ⟨query, text, read⟩ := printable.inserts order test
  obtain ⟨kept, accepted, made⟩ := pqExecQuery1_changes (lawful c.server query _ read)
  refine ⟨_, _, accepted, by rw [pqInsertVMStateInfo, text]; rfl, kept, ?_⟩
  rw [made, Pqmb.insertVMStateInfo, printable.row]
  cases accepted <;> rfl

theorem pqUpdateVMStateInfo_matched (order : ByteOrder) (lawful : server.Lawful test)
    (printable : Printable t v) (c : Conn σ) :
    ∃ retval next accepted, pqUpdateVMStateInfo server test order c v = some (retval, next) ∧
      next.results = c.results ∧
      (Pqmb.updateVMStateInfo order accepted (server.table c.server) v).map Prod.snd =
        some (server.table next.server) := by
  obtain ⟨query, text, read⟩ := printable.updates order test
  obtain ⟨kept, accepted, made⟩ := pqExecQuery1_changes (lawful c.server query _ read)
  refine ⟨_, _, accepted, by rw [pqUpdateVMStateInfo, text]; rfl, kept, ?_⟩
  rw [made, Pqmb.updateVMStateInfo, printable.row]
  cases accepted <;> rfl

theorem pqSelectCountVMStateInfo_matched (lawful : server.Lawful test)
    (printable : Printable t v) {key : Key} (found : whereKey v = some key)
    (few : (rowsAt (server.table c.server) key).length < 2147483648) :
    ∃ number next accepted, pqSelectCountVMStateInfo server test c v = some (number, next) ∧
      next.results = c.results ∧ server.table next.server = server.table c.server ∧
      Pqmb.selectCountVMStateInfo accepted (server.table c.server) v = some number := by
  cases printable.key.symm.trans found
  obtain ⟨query, text, read⟩ := printable.counts test
  obtain ⟨accepted, next, done, kept, same⟩ :=
    pqSelectNumber_reads text (lawful c.server query _ read) rfl
  refine ⟨_, next, accepted, done, kept, same, ?_⟩
  rw [Pqmb.selectCountVMStateInfo, found, Option.map_some, atoi_decimal few]

theorem pqCheckVMStateInfo_matched (lawful : server.Lawful test) (printable : Printable t v)
    {key : Key} (found : whereKey v = some key)
    (some_ : rowsAt (server.table c.server) key ≠ []) :
    ∃ number next accepted, pqCheckVMStateInfo server test c v = some (number, next) ∧
      next.results = c.results ∧ server.table next.server = server.table c.server ∧
      Pqmb.checkVMStateInfo accepted (server.table c.server) v = some number := by
  cases printable.key.symm.trans found
  obtain ⟨first, rest, rows⟩ := List.exists_cons_of_ne_nil some_
  have small : first.processCount.toNat < 2147483648 :=
    first.processCount.toNat_lt.trans (by decide)
  obtain ⟨query, text, read⟩ := printable.processCounts test
  have reads := lawful c.server query _ read
  obtain ⟨accepted, next, done, kept, same⟩ :=
    pqSelectNumber_reads text reads (by rw [rows]; rfl)
  refine ⟨_, next, accepted, done, kept, same, ?_⟩
  rw [Pqmb.checkVMStateInfo, found, Option.bind_some, rows, atoi_decimal small]
  cases accepted <;> rfl

end Calls

section Reader

theorem flatMap_pairs_inj {ι α : Type} {items : List ι} {a b a' b' : ι → α}
    (same : items.flatMap (fun i => [a i, b i]) = items.flatMap fun i => [a' i, b' i]) :
    ∀ i ∈ items, a i = a' i ∧ b i = b' i := by
  induction items with
  | nil => nofun
  | cons i items ih =>
      simp only [List.flatMap_cons, List.cons_append, List.nil_append, List.cons.injEq] at same
      rw [List.forall_mem_cons]
      exact ⟨⟨same.1, same.2.1⟩, ih same.2.2⟩

theorem bare_inj {a b : UInt16} (same : Value.bare (decimal a.toNat) = .bare (decimal b.toNat)) :
    a = b :=
  UInt16.toNat_inj.mp (decimal_injective (Value.bare.inj same))

/-- The values determine the row. -/
theorem rowValues_injective {row other : VmStateRow}
    (same : (rowFields row).map Field.value = (rowFields other).map Field.value) :
    row = other := by
  cases row with
  | mk createTime vmId vmName hostName vmType vmState vmPowerState process bypassModeState
      hostIp processCount =>
  cases other with
  | mk createTime' vmId' vmName' hostName' vmType' vmState' vmPowerState' process'
      bypassModeState' hostIp' processCount' =>
  simp only [rowFields, List.map_append, List.map_flatMap, List.map_cons, List.map_nil,
    Field.value] at same
  obtain ⟨front, back⟩ := List.append_inj' same rfl
  obtain ⟨head, pairs⟩ := List.append_inj front rfl
  have each := flatMap_pairs_inj pairs
  have processes : process = process' := by
    funext k
    obtain ⟨name, state⟩ := each k (List.mem_finRange k)
    exact Prod.ext (Value.text.inj name) (bare_inj state)
  simp only [List.cons.injEq, Value.text.injEq, and_true] at head back
  obtain ⟨rfl, rfl, rfl, rfl, type, state, power⟩ := head
  obtain ⟨bypass, rfl, count⟩ := back
  cases bare_inj type
  cases bare_inj state
  cases bare_inj power
  cases bare_inj bypass
  cases bare_inj count
  subst processes
  rfl

theorem whereTokens_injective {test : Bool} {key other : Key}
    (same : whereTokens test key = whereTokens test other) : key = other := by
  simp only [whereTokens, List.intercalate_cons_cons, List.intercalate_singleton, equation,
    Value.token, List.cons_append, List.nil_append, List.cons.injEq, Token.literal.injEq,
    true_and, and_true] at same
  exact Prod.ext same.1 same.2

theorem insertOf_injective {test : Bool} {row other : VmStateRow}
    (same : insertOf test row = insertOf test other) : row = other := by
  simp only [insertOf, Statement.insert.injEq, Subtype.mk.injEq, true_and] at same
  exact rowValues_injective same

theorem updateOf_injective {test : Bool} {row other : VmStateRow}
    (same : updateOf test row = updateOf test other) : row = other := by
  simp only [updateOf, Statement.update.injEq, Subtype.mk.injEq, true_and] at same
  have values := congrArg (List.map Prod.snd) same.1
  rw [List.map_snd_zip (by simp [rowFields, columns, maxVmProcNum]),
    List.map_snd_zip (by simp [rowFields, columns, maxVmProcNum])] at values
  exact rowValues_injective values

/-- The first word of a command. -/
def Command.verb : Command → Token
  | .insert _ => keyword "INSERT"
  | .update _ => keyword "UPDATE"
  | .count _ | .processCount _ => keyword "SELECT"

theorem Command.tokens_head (test : Bool) (command : Command) :
    (command.tokens test).head? = some command.verb := by
  cases command <;> rfl

theorem Command.tokens_verb {test : Bool} {command other : Command}
    (same : command.tokens test = other.tokens test) : command.verb = other.verb := by
  have heads := congrArg List.head? same
  rw [tokens_head, tokens_head] at heads
  exact Option.some.inj heads

theorem verbs_apart : keyword "INSERT" ≠ keyword "UPDATE" ∧ keyword "INSERT" ≠ keyword "SELECT" ∧
    keyword "UPDATE" ≠ keyword "SELECT" := by
  decide

theorem counts_apart {test : Bool} {key other : Key} :
    Command.tokens test (.count key) ≠ Command.tokens test (.processCount other) := by
  intro same
  have second : some (keyword "COUNT") = some (keyword "process_count") :=
    congrArg (fun tokens => tokens[1]?) same
  exact absurd second (by decide)

/-- The tokens determine the command. -/
theorem Command.tokens_injective (test : Bool) : Function.Injective (Command.tokens test) := by
  intro command other same
  have verbs := tokens_verb same
  obtain ⟨insertUpdate, insertSelect, updateSelect⟩ := verbs_apart
  cases command with
  | insert row =>
      cases other with
      | insert row' =>
          exact congrArg Command.insert (insertOf_injective (Statement.tokens_injective same))
      | update row' => exact absurd verbs insertUpdate
      | count key => exact absurd verbs insertSelect
      | processCount key => exact absurd verbs insertSelect
  | update row =>
      cases other with
      | insert row' => exact absurd verbs insertUpdate.symm
      | update row' =>
          exact congrArg Command.update (updateOf_injective (Statement.tokens_injective same))
      | count key => exact absurd verbs updateSelect
      | processCount key => exact absurd verbs updateSelect
  | count key =>
      cases other with
      | insert row' => exact absurd verbs insertSelect.symm
      | update row' => exact absurd verbs updateSelect.symm
      | count key' =>
          exact congrArg Command.count (whereTokens_injective (List.append_cancel_left same))
      | processCount key' => exact absurd same counts_apart
  | processCount key =>
      cases other with
      | insert row' => exact absurd verbs insertSelect.symm
      | update row' => exact absurd verbs updateSelect.symm
      | count key' => exact absurd same.symm counts_apart
      | processCount key' =>
          exact congrArg Command.processCount
            (whereTokens_injective (List.append_cancel_left same))

/-- What a server answers to a command that it carries out. -/
def answer (table : VmStateTable) : Command → PgResult × VmStateTable
  | .insert row => (.commandOk, table ++ [row])
  | .update row => (.commandOk, setRows table row)
  | .count key => (.tuplesOk [[decimal (rowsAt table key).length]], table)
  | .processCount key =>
      (.tuplesOk ((rowsAt table key).map fun row => [decimal row.processCount.toNat]), table)

open Classical in
/-- A server that carries out what it can read and refuses the rest. -/
noncomputable def tableServer (test : Bool) : PgServer VmStateTable where
  exec := fun table text =>
    if readable : ∃ command, lex text = some (Command.tokens test command) then
      ((some (answer table readable.choose).1), (answer table readable.choose).2)
    else (some .failed, table)
  table := id

theorem tableServer_exec {test : Bool} {text : List UInt8} {command : Command}
    (read : lex text = some (command.tokens test)) (table : VmStateTable) :
    (tableServer test).exec table text =
      (some (answer table command).1, (answer table command).2) := by
  have readable : ∃ command, lex text = some (Command.tokens test command) := ⟨command, read⟩
  have same : readable.choose = command :=
    Command.tokens_injective test (Option.some.inj (readable.choose_spec.symm.trans read))
  rw [tableServer]
  dsimp only
  rw [dif_pos readable, same]

theorem tableServer_lawful (test : Bool) : (tableServer test).Lawful test := by
  intro table text command read
  have done := tableServer_exec read table
  cases command with
  | insert row =>
      unfold PgServer.Does PgServer.Changes
      rw [done]
      exact ⟨fun _ => rfl, Or.inl rfl⟩
  | update row =>
      unfold PgServer.Does PgServer.Changes
      rw [done]
      exact ⟨fun _ => rfl, Or.inl rfl⟩
  | count key =>
      unfold PgServer.Does PgServer.Reads
      rw [done]
      exact ⟨fun rows same => (PgResult.tuplesOk.inj (Option.some.inj same)).symm, rfl⟩
  | processCount key =>
      unfold PgServer.Does PgServer.Reads
      rw [done]
      exact ⟨fun rows same => (PgResult.tuplesOk.inj (Option.some.inj same)).symm, rfl⟩

end Reader

end VnfMonitoring.PqmbServer
