import VnfMonitoring.HostProcess

set_option autoImplicit false

/- The rows that `ProcessVmProcStateInfo` leaves of a snapshot. To the rounds of its loop each
key of the table is a latch: it takes the rows offered to it until one has processes. -/
namespace VnfMonitoring.HostRows

open VnfMonitoring.Memory VnfMonitoring.Bpapp VnfMonitoring.HostSock VnfMonitoring.HostTcpStatus
  VnfMonitoring.HostProcess VnfMonitoring.Runs VnfMonitoring.Pqmb VnfMonitoring.Latch

/-- What a record offers to its key: a number of processes, and a row if it has one. -/
structure Candidate where
  count : UInt16
  row : Option VmStateRow

def Candidate.good (candidate : Candidate) : Bool := decide (candidate.count ≠ 0)

def stored (row : VmStateRow) : Candidate := ⟨row.processCount, some row⟩

def offered (order : ByteOrder) (v : VmProcess) : Candidate :=
  ⟨v.vmProcessCount, vmStateRow order v⟩

/-- The rows found at a key are what its cell holds. -/
def Shows : Option Candidate → VmStateTable → Prop
  | none, rows => rows = []
  | some candidate, rows =>
      ∃ row, candidate.row = some row ∧ row.processCount = candidate.count ∧ rows = [row]

def Represents (table : VmStateTable) (cells : Key → Option Candidate) : Prop :=
  ∀ key, Shows (cells key) (rowsAt table key)

/-- The cells of a table. -/
def cellsOf (table : VmStateTable) : Key → Option Candidate :=
  fun key => (rowsAt table key).head?.map stored

section Cells

variable {order : ByteOrder} {table next : VmStateTable} {v : VmProcess} {key : Key}
  {cells : Key → Option Candidate}

theorem Shows.unique {cell : Option Candidate} {rows others : VmStateTable}
    (shown : Shows cell rows) (other : Shows cell others) : others = rows := by
  cases cell with
  | none => exact Eq.trans other (Eq.symm shown)
  | some candidate =>
      obtain ⟨row, formed, _, rfl⟩ := shown
      obtain ⟨same, also, _, rfl⟩ := other
      cases formed.symm.trans also
      rfl

theorem Shows.of_nil {cell : Option Candidate} (shown : Shows cell []) : cell = none := by
  cases cell with
  | none => rfl
  | some candidate =>
      obtain ⟨_, _, _, impossible⟩ := shown
      cases impossible

theorem Shows.alone {cell : Option Candidate} {first : VmStateRow} {rest : VmStateTable}
    (shown : Shows cell (first :: rest)) : rest = [] := by
  cases cell with
  | none => cases shown
  | some candidate =>
      obtain ⟨_, _, _, same⟩ := shown
      cases same
      rfl

theorem Shows.of_cons {cell : Option Candidate} {first : VmStateRow} {rest : VmStateTable}
    (shown : Shows cell (first :: rest)) :
    ∃ candidate, cell = some candidate ∧ candidate.row = some first ∧
      candidate.good = decide (first.processCount ≠ 0) := by
  cases cell with
  | none => cases shown
  | some candidate =>
      obtain ⟨row, formed, count, same⟩ := shown
      cases same
      exact ⟨candidate, rfl, formed, by rw [Candidate.good, count]⟩

theorem represents_cellsOf (unique : ∀ key, (rowsAt table key).length ≤ 1) :
    Represents table (cellsOf table) := by
  intro key
  have bound := unique key
  unfold cellsOf
  cases rows : rowsAt table key with
  | nil => rfl
  | cons row rest =>
      rw [rows, List.length_cons] at bound
      have alone : rest = [] := List.length_eq_zero_iff.mp (by omega)
      subst alone
      exact ⟨row, rfl, rfl, rfl⟩

/-- A cell is closed when a row of its key has processes. -/
theorem cellsOf_good (unique : ∀ key, (rowsAt table key).length ≤ 1) :
    (cellsOf table key).any Candidate.good = true ↔
      ∃ old ∈ rowsAt table key, old.processCount ≠ 0 := by
  have start := represents_cellsOf unique key
  cases rows : rowsAt table key with
  | nil =>
      rw [rows] at start
      rw [start.of_nil]
      exact ⟨nofun, nofun⟩
  | cons first rest =>
      rw [rows] at start
      obtain ⟨candidate, held, _, good⟩ := start.of_cons
      have alone := start.alone
      subst alone
      rw [held, Option.any_some, good, decide_eq_true_eq]
      simp only [List.mem_singleton, exists_eq_left]

/-- What the statements of a round can do, all of them accepted. -/
theorem insertCloudDb_cases (found : whereKey v = some key)
    (done : insertCloudDb order .accepted table v = some next) :
    (∃ row, vmStateRow order v = some row ∧ rowsAt table key = [] ∧ next = table ++ [row]) ∨
      (∃ row first rest, vmStateRow order v = some row ∧ rowsAt table key = first :: rest ∧
        first.processCount = 0 ∧ next = setRows table row) ∨
      ∃ first rest, rowsAt table key = first :: rest ∧ first.processCount ≠ 0 ∧ next = table := by
  cases rows : rowsAt table key with
  | nil =>
      rw [insertCloudDb_missing rfl found rows] at done
      obtain ⟨_, inserted, rfl⟩ := Option.map_eq_some_iff.mp done
      obtain ⟨row, formed, rfl⟩ := Option.map_eq_some_iff.mp inserted
      exact Or.inl ⟨row, formed, rfl, rfl⟩
  | cons first rest =>
      rw [insertCloudDb_present rfl found rows] at done
      split at done
      · rename_i zero
        obtain ⟨_, updated, rfl⟩ := Option.map_eq_some_iff.mp done
        obtain ⟨row, formed, rfl⟩ := Option.map_eq_some_iff.mp updated
        exact Or.inr (Or.inl ⟨row, first, rest, formed, rfl, zero.2, rfl⟩)
      · rename_i nonzero
        cases done
        exact Or.inr (Or.inr ⟨first, rest, rfl, fun zero => nonzero ⟨rfl, zero⟩, rfl⟩)

/-- A round changes the rows of its own key only. -/
theorem insertCloudDb_other (found : whereKey v = some key)
    (done : insertCloudDb order .accepted table v = some next) {other : Key}
    (apart : other ≠ key) : rowsAt next other = rowsAt table other := by
  have keyOf {row : VmStateRow} (formed : vmStateRow order v = some row) : row.key ≠ other := by
    intro same
    apply apart
    rw [← same]
    exact Option.some_inj.mp ((vmStateRow_spec formed).1.symm.trans found)
  obtain ⟨row, formed, _, rfl⟩ | ⟨row, _, _, formed, _, _, rfl⟩ | ⟨_, _, _, _, rfl⟩ :=
    insertCloudDb_cases found done
  · rw [rowsAt_append, if_neg (keyOf formed), List.append_nil]
  · exact rowsAt_setRows_other table (keyOf formed)
  · rfl

/-- A round is an offer to the cell of its key. -/
theorem insertCloudDb_represents (represented : Represents table cells)
    (found : whereKey v = some key) (done : insertCloudDb order .accepted table v = some next) :
    Represents next (write Candidate.good cells (key, offered order v)) := by
  intro other
  by_cases same : other = key
  · subst same
    rw [write_self]
    have here := represented other
    obtain ⟨row, formed, rows, rfl⟩ | ⟨row, first, rest, formed, rows, zero, rfl⟩ |
        ⟨first, rest, rows, nonzero, rfl⟩ := insertCloudDb_cases found done
    · -- an empty cell takes the offer
      obtain ⟨keyed, carries⟩ := vmStateRow_spec formed
      cases keyed.symm.trans found
      rw [rows] at here
      rw [here.of_nil, offer_bad _ rfl, rowsAt_append, rows, if_pos rfl]
      exact ⟨row, formed, carries.count, rfl⟩
    · -- so does one whose row has no processes
      obtain ⟨keyed, carries⟩ := vmStateRow_spec formed
      cases keyed.symm.trans found
      rw [rows] at here
      obtain ⟨candidate, held, _, good⟩ := here.of_cons
      have bad : (some candidate).any Candidate.good = false := by
        rw [Option.any_some, good, zero]
        rfl
      rw [held, offer_bad _ bad, rowsAt_setRows_self, rows]
      have alone : rest = [] := here.alone
      subst alone
      exact ⟨row, formed, carries.count, rfl⟩
    · -- any other keeps its row
      rw [rows] at here
      obtain ⟨candidate, held, _, good⟩ := here.of_cons
      rw [held, offer_good _ (good.trans (decide_eq_true nonzero)), ← held, rows]
      exact here
  · rw [write_other _ _ _ same, insertCloudDb_other found done same]
    exact represented other

end Cells

section Loop

variable {order : ByteOrder} {call : ProcessCall} {table final : VmStateTable}
  {time u : List UInt8} {answers : Slot → PqAnswers} {accepted : Slot → Bool}

/-- What the round of a VM offers, and to which key. -/
def entryOf (order : ByteOrder) (call : ProcessCall) (time : List UInt8) (i : Slot) :
    Key × Candidate :=
  ((time, (str (call.vstatus i).vmUuid).getD []),
    ((cloudVmState call i).map (offered order)).getD ⟨0, none⟩)

theorem entryOf_formed (order : ByteOrder) {i : Slot} {v : VmProcess}
    (now : str call.ttime = some time) (formed : cloudVmState call i = some v) :
    ∃ u, str (call.vstatus i).vmUuid = some u ∧ whereKey v = some (time, u) ∧
      entryOf order call time i = ((time, u), offered order v) ∧
      processData call i = (v.vmProcessCount, v.pstate) := by
  obtain ⟨same, u, alsoNow, uuid, found, data⟩ := cloudVmState_spec formed
  cases now.symm.trans alsoNow
  refine ⟨u, uuid, found, ?_, data⟩
  rw [entryOf, uuid, formed]
  rfl

/-- The rounds of the VMs of a uuid, in the order of the snapshot. -/
def roundsOf (call : ProcessCall) (u : List UInt8) : List Slot :=
  (listedSlots call.vmcount).filter fun i => decide (str (call.vstatus i).vmUuid = some u)

theorem mem_roundsOf {i : Slot} : i ∈ roundsOf call u ↔ ListedAs call u i := by
  rw [roundsOf, List.mem_filter, decide_eq_true_eq]
  rfl

theorem roundsOf_sorted (call : ProcessCall) (u : List UInt8) :
    (roundsOf call u).Pairwise (· < ·) := by
  apply List.Pairwise.filter
  exact (List.pairwise_lt_finRange maxSystemNum).sublist (List.take_sublist _ _)

/-- With every statement accepted, the loop offers each key the rows of its VMs. -/
theorem cloudLoop_represents (cloud : call.cloudMode = 1) (now : str call.ttime = some time)
    (unique : ∀ key, (rowsAt table key).length ≤ 1)
    (done : cloudLoop order call (fun _ => .accepted) table = some final) :
    Represents final
      (((listedSlots call.vmcount).map (entryOf order call time)).foldl (write Candidate.good)
        (cellsOf table)) := by
  rw [List.foldl_map]
  refine run_simulates Represents ?_ (represents_cellsOf unique) done
  intro before i next cells represented stepped
  obtain ⟨v, formed, stored⟩ := Option.bind_eq_some_iff.mp stepped
  rw [if_pos cloud] at stored
  obtain ⟨u, _, found, entry, _⟩ := entryOf_formed order now formed
  rw [entry]
  exact insertCloudDb_represents represented found stored

/-- Every VM that the loop has visited had its record formed. -/
theorem cloudLoop_formed (done : cloudLoop order call answers table = some final) :
    ∀ i ∈ listedSlots call.vmcount, ∃ v, cloudVmState call i = some v := by
  intro i listed
  obtain ⟨before, next, stepped⟩ := run_taken done i listed
  obtain ⟨v, formed, _⟩ := Option.bind_eq_some_iff.mp stepped
  exact ⟨v, formed⟩

theorem valuesAt_rounds (now : str call.ttime = some time)
    (formed : ∀ i ∈ listedSlots call.vmcount, ∃ v, cloudVmState call i = some v) :
    valuesAt ((listedSlots call.vmcount).map (entryOf order call time)) (time, u) =
      (roundsOf call u).map fun i => (entryOf order call time i).2 := by
  rw [valuesAt, List.filter_map, List.map_map, roundsOf]
  congr 1
  apply List.filter_congr
  intro i listed
  obtain ⟨v, record⟩ := formed i listed
  obtain ⟨w, uuid, _, entry, _⟩ := entryOf_formed order now record
  simp [entry, uuid]

theorem valuesAt_others {key : Key} (now : str call.ttime = some time)
    (formed : ∀ i ∈ listedSlots call.vmcount, ∃ v, cloudVmState call i = some v)
    (other : key.1 ≠ time ∨ ∀ i, ¬ ListedAs call key.2 i) :
    valuesAt ((listedSlots call.vmcount).map (entryOf order call time)) key = [] := by
  rw [valuesAt, List.map_eq_nil_iff, List.filter_eq_nil_iff]
  intro entry member
  obtain ⟨i, listed, rfl⟩ := List.mem_map.mp member
  obtain ⟨v, record⟩ := formed i listed
  obtain ⟨w, uuid, _, same, _⟩ := entryOf_formed order now record
  rw [same, decide_eq_true_eq]
  rintro rfl
  rcases other with apart | unlisted
  · exact apart rfl
  · exact unlisted i ⟨listed, uuid⟩

/-- The snapshot row whose data a key without processes takes: the first of the uuid with
processes if there is one, else the last. -/
structure Chosen (call : ProcessCall) (u : List UInt8) (i : Slot) : Prop where
  listed : ListedAs call u i
  before : ∀ k, ListedAs call u k → k < i → (processData call k).1 = 0
  first_or_last : (processData call i).1 ≠ 0 ∨ ∀ k, ListedAs call u k → k ≤ i

theorem chosen_of_pick (now : str call.ttime = some time)
    (formed : ∀ i ∈ listedSlots call.vmcount, ∃ v, cloudVmState call i = some v) {i : Slot}
    (picked : pick (Candidate.good ∘ fun i => (entryOf order call time i).2) (roundsOf call u) =
      some i) : Chosen call u i := by
  have good (k : Slot) (listed : ListedAs call u k) :
      (Candidate.good ∘ fun i => (entryOf order call time i).2) k =
        decide ((processData call k).1 ≠ 0) := by
    obtain ⟨v, record⟩ := formed k listed.1
    obtain ⟨_, _, _, entry, data⟩ := entryOf_formed order now record
    simp only [Function.comp_apply, entry, data]
    rfl
  obtain ⟨before, after, split, earlier, last⟩ := pick_eq_some _ picked
  have sorted := roundsOf_sorted call u
  rw [split, List.pairwise_append, List.pairwise_cons] at sorted
  have mine (k : Slot) : ListedAs call u k ↔ k ∈ before ∨ k = i ∨ k ∈ after := by
    rw [← mem_roundsOf, split, List.mem_append, List.mem_cons]
  have listed : ListedAs call u i := (mine i).mpr (Or.inr (Or.inl rfl))
  refine ⟨listed, fun k other low => ?_, ?_⟩
  · rcases (mine k).mp other with front | same | behind
    · have bad := earlier k front
      rw [good k other] at bad
      simpa using bad
    · exact absurd same (ne_of_lt low)
    · exact absurd (sorted.2.1.1 k behind) (lt_asymm low)
  · rcases last with kept | ⟨_, nothing⟩
    · rw [good i listed] at kept
      exact Or.inl (of_decide_eq_true kept)
    · refine Or.inr fun k other => ?_
      rcases (mine k).mp other with front | same | behind
      · exact le_of_lt (sorted.2.2 k front i List.mem_cons_self)
      · exact le_of_eq same
      · rw [nothing] at behind
        cases behind

/-- The row is the one that the round of a VM writes, and carries the VM's processes. -/
structure RowOf (order : ByteOrder) (call : ProcessCall) (i : Slot) (row : VmStateRow) : Prop where
  written : (cloudVmState call i).bind (vmStateRow order) = some row
  carries : Carries order row (processData call i).1 (processData call i).2

theorem rowOf_entry {i : Slot} {row : VmStateRow} (now : str call.ttime = some time)
    (formed : ∃ v, cloudVmState call i = some v)
    (offered : (entryOf order call time i).2.row = some row) : RowOf order call i row := by
  obtain ⟨v, record⟩ := formed
  obtain ⟨_, _, _, entry, data⟩ := entryOf_formed order now record
  rw [entry] at offered
  refine ⟨?_, ?_⟩
  · rw [record]
    exact offered
  · rw [data]
    exact (vmStateRow_spec offered).2

/-- What the loop leaves at the key of a VM. -/
theorem cloudLoop_listed (cloud : call.cloudMode = 1) (now : str call.ttime = some time)
    (unique : ∀ key, (rowsAt table key).length ≤ 1)
    (done : cloudLoop order call (fun _ => .accepted) table = some final) {i : Slot}
    (listed : ListedAs call u i) :
    ∃ row, rowsAt final (time, u) = [row] ∧
      (∀ old ∈ rowsAt table (time, u), old.processCount ≠ 0 → row = old) ∧
      ((∀ old ∈ rowsAt table (time, u), old.processCount = 0) →
        ∃ k, Chosen call u k ∧ RowOf order call k row) := by
  have formed := cloudLoop_formed done
  have shown := cloudLoop_represents cloud now unique done (time, u)
  rw [foldl_write, valuesAt_rounds now formed] at shown
  have start := represents_cellsOf unique (time, u)
  by_cases closed : (cellsOf table (time, u)).any Candidate.good = true
  · obtain ⟨old, member, nonzero⟩ := (cellsOf_good unique).mp closed
    obtain ⟨candidate, held, good⟩ := (Option.any_eq_true _ _).mp closed
    rw [held, foldl_offer_good _ good, ← held] at shown
    obtain ⟨row, only⟩ := List.length_eq_one_iff.mp
      (Nat.le_antisymm (unique (time, u)) (List.length_pos_of_mem member))
    rw [start.unique shown, only]
    rw [only, List.mem_singleton] at member
    subst member
    refine ⟨old, rfl, fun other same _ => (List.mem_singleton.mp same).symm, fun empty => ?_⟩
    exact absurd (empty old (List.mem_singleton_self old)) nonzero
  · have visited : roundsOf call u ≠ [] := List.ne_nil_of_mem (mem_roundsOf.mpr listed)
    obtain ⟨k, picked⟩ := Option.isSome_iff_exists.mp
      (pick_isSome (Candidate.good ∘ fun i => (entryOf order call time i).2) visited)
    rw [foldl_offer_bad _ (Bool.eq_false_of_not_eq_true closed), pick_map, picked, Option.map_some,
      Option.some_or] at shown
    obtain ⟨row, offered, _, rows⟩ := shown
    have chosen := chosen_of_pick now formed picked
    refine ⟨row, rows, fun old member nonzero => ?_, fun _ => ⟨k, chosen, ?_⟩⟩
    · exact absurd ((cellsOf_good unique).mpr ⟨old, member, nonzero⟩) closed
    · exact rowOf_entry now (formed k chosen.listed.1) offered

/-- A call in cloud mode, every statement accepted. It leaves exactly one row for each uuid of
the snapshot: the one that was there if it had processes, else that of the first VM of the uuid
with processes, else of the last one. Every other key keeps its rows. -/
theorem processVmProcStateInfo_rows (order : ByteOrder) (call : ProcessCall)
    (accepted : Slot → Bool) (table : VmStateTable) (time : List UInt8)
    (cloud : call.cloudMode = 1) (cloudOnly : call.baremetalMode = 0)
    (now : str call.ttime = some time) (unique : ∀ key, (rowsAt table key).length ≤ 1) :
    (StringsEnd call →
      (processVmProcStateInfo order call (fun _ => .accepted) accepted table).isSome) ∧
    ∀ final, processVmProcStateInfo order call (fun _ => .accepted) accepted table = some final →
      (∀ key : Key, (key.1 ≠ time ∨ ∀ i, ¬ ListedAs call key.2 i) →
        rowsAt final key = rowsAt table key) ∧
      ∀ i u, ListedAs call u i → ∃ row, rowsAt final (time, u) = [row] ∧
        (∀ old ∈ rowsAt table (time, u), old.processCount ≠ 0 → row = old) ∧
        ((∀ old ∈ rowsAt table (time, u), old.processCount = 0) →
          ∃ k, Chosen call u k ∧ RowOf order call k row) := by
  refine ⟨fun strings => processVmProcStateInfo_isSome strings _ accepted table, ?_⟩
  intro final done
  obtain ⟨middle, looped, done⟩ := Option.bind_eq_some_iff.mp done
  obtain ⟨s, second, rfl⟩ := Option.map_eq_some_iff.mp done
  have off : call.baremetalMode ≠ 1 := by
    rw [cloudOnly]
    decide
  rw [baremetalLoop_off off second]
  refine ⟨fun key other => ?_, fun i u listed => cloudLoop_listed cloud now unique looped listed⟩
  have shown := cloudLoop_represents cloud now unique looped key
  rw [foldl_write, valuesAt_others now (cloudLoop_formed looped) other] at shown
  exact (represents_cellsOf unique key).unique shown

/-- Two ports of one VM, of which only the second has an address that reports. -/
def twoPorts : ProcessCall where
  ttime := ⟨[49, 48, 58, 48, 48] ++ List.replicate 27 0, by simp [maxTimeLength]⟩
  vmcount := 2
  vstatus := fun i =>
    { VmcStatus.zero with
      vmIpaddr := if i = 0 then 0x0A000001 else 0x0A000002
      vmUuid := ⟨[118, 109] ++ List.replicate 126 0, by simp [maxNameLength]⟩ }
  vminfo := fun _ => { VmcStateinfo.zero with vmIp := 0x0A000002, pcount := 1 }
  cloudMode := 1
  baremetalMode := 0
  cloudBpMode := fun _ => .off
  baremetalBpMode := fun _ => .off

theorem twoPorts_strings : StringsEnd twoPorts where
  ttime := rfl
  vmUuid := fun _ _ => ⟨[118, 109], rfl, by decide⟩
  statusName := fun _ _ => rfl
  vmHostName := fun _ _ => rfl
  vmId := fun _ => rfl
  vmName := fun _ => rfl
  manageIp := fun _ => rfl
  processName := fun _ _ => rfl

theorem processVmProcStateInfo_rows_twoPorts :
    ∃ final, processVmProcStateInfo .little twoPorts (fun _ => .accepted) (fun _ => true) [] =
        some final ∧
      ∃ row, rowsAt final ([49, 48, 58, 48, 48], [118, 109]) = [row] ∧
        ∃ k, Chosen twoPorts [118, 109] k ∧ RowOf .little twoPorts k row := by
  obtain ⟨total, rows⟩ := processVmProcStateInfo_rows .little twoPorts (fun _ => true) []
    [49, 48, 58, 48, 48] rfl rfl (by decide) (fun _ => Nat.zero_le 1)
  obtain ⟨final, done⟩ := Option.isSome_iff_exists.mp (total twoPorts_strings)
  obtain ⟨row, only, _, taken⟩ := (rows final done).2 0 [118, 109] ⟨by decide, by decide⟩
  exact ⟨final, done, row, only, taken nofun⟩

end Loop

end VnfMonitoring.HostRows
