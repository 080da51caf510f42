import VnfMonitoring.Bpapp

set_option autoImplicit false

/- The table `bypass_vm_state_info` and the statements that `PQMB` issues on it. A statement
that the server accepts does what it says; refused, it leaves the table and the function
returns -1. -/
namespace VnfMonitoring.Pqmb

open VnfMonitoring.Memory VnfMonitoring.Bpapp

/-- `create_time` and `vm_id`, by which every statement but the INSERT finds its rows. -/
abbrev Key := List UInt8 × List UInt8

/-- The columns that the INSERT and the UPDATE set. -/
structure VmStateRow where
  createTime : List UInt8
  vmId : List UInt8
  vmName : List UInt8
  hostName : List UInt8
  vmType : UInt16
  vmState : UInt16
  vmPowerState : UInt16
  vmProcess : Fin maxVmProcNum → List UInt8 × UInt16
  bypassModeState : UInt16
  hostIp : List UInt8
  processCount : UInt16

def VmStateRow.key (row : VmStateRow) : Key := (row.createTime, row.vmId)

abbrev VmStateTable := List VmStateRow

/-- The rows that `WHERE create_time = '%s' AND vm_id = '%s'` finds. -/
def rowsAt (table : VmStateTable) (key : Key) : VmStateTable :=
  table.filter fun row => decide (row.key = key)

/-- What `%s` prints of a process name. The names come unchecked out of a report, so it may
read on through the records behind. -/
def processName (order : ByteOrder) (pstate : Fin maxVmProcNum → ProcessState)
    (k : Fin maxVmProcNum) : Option (List UInt8) :=
  cstr (((List.ofFn pstate).drop k).flatMap (ProcessState.image order))

/-- The strings of the WHERE clause. -/
def whereKey (v : VmProcess) : Option Key :=
  (str v.timeStamp).bind fun createTime => (str v.vmId).map fun vmId => (createTime, vmId)

/-- The values of the INSERT and the UPDATE; `%hu` prints the lower half of a state. -/
def vmStateRow (order : ByteOrder) (v : VmProcess) : Option VmStateRow :=
  (whereKey v).bind fun (createTime, vmId) =>
  (str v.vmName).bind fun vmName =>
  (str v.hostId).bind fun hostName =>
  (str v.hostIp).bind fun hostIp =>
  if named : ∀ k, (processName order v.pstate k).isSome then
    some
      { createTime, vmId, vmName, hostName, hostIp
        vmType := v.vmType
        vmState := v.vmState
        vmPowerState := v.vmPowerState
        vmProcess := fun k =>
          ((processName order v.pstate k).get (named k), (v.pstate k).processState.toUInt16)
        bypassModeState := v.bpState
        processCount := v.vmProcessCount }
  else none

/-- `PQ_SelectCountVMStateInfo`. -/
def selectCountVMStateInfo (accepted : Bool) (table : VmStateTable) (v : VmProcess) : Option Int :=
  (whereKey v).map fun key => if accepted then ((rowsAt table key).length : Int) else -1

/-- `PQ_InsertVMStateInfo`. -/
def insertVMStateInfo (order : ByteOrder) (accepted : Bool) (table : VmStateTable)
    (v : VmProcess) : Option (Int × VmStateTable) :=
  (vmStateRow order v).map fun row => if accepted then (0, table ++ [row]) else (-1, table)

/-- Every column of the rows found is set, their key to what it was. -/
def setRows (table : VmStateTable) (row : VmStateRow) : VmStateTable :=
  table.map fun old => if old.key = row.key then row else old

/-- `PQ_UpdateVMStateInfo`. -/
def updateVMStateInfo (order : ByteOrder) (accepted : Bool) (table : VmStateTable)
    (v : VmProcess) : Option (Int × VmStateTable) :=
  (vmStateRow order v).map fun row => if accepted then (0, setRows table row) else (-1, table)

/-- `PQ_CheckVMStateInfo` reads the first row found; without one there is no value. -/
def checkVMStateInfo (accepted : Bool) (table : VmStateTable) (v : VmProcess) : Option Int :=
  (whereKey v).bind fun key =>
    if accepted then (rowsAt table key).head?.map fun row => (row.processCount.toNat : Int)
    else some (-1)

theorem rowsAt_append (table : VmStateTable) (row : VmStateRow) (key : Key) :
    rowsAt (table ++ [row]) key =
      rowsAt table key ++ if row.key = key then [row] else [] := by
  by_cases same : row.key = key <;>
    simp [rowsAt, List.filter_append, same]

theorem rowsAt_setRows_self (table : VmStateTable) (row : VmStateRow) :
    rowsAt (setRows table row) row.key = (rowsAt table row.key).map fun _ => row := by
  induction table with
  | nil => rfl
  | cons old rest ih =>
      unfold rowsAt setRows at ih ⊢
      by_cases same : old.key = row.key <;> simp [same, ih]

theorem rowsAt_setRows_other (table : VmStateTable) {row : VmStateRow} {key : Key}
    (apart : row.key ≠ key) : rowsAt (setRows table row) key = rowsAt table key := by
  induction table with
  | nil => rfl
  | cons old rest ih =>
      unfold rowsAt setRows at ih ⊢
      by_cases same : old.key = row.key
      · simp only [List.map_cons, List.filter_cons, same, if_true, apart, decide_false,
          Bool.false_eq_true, if_false, ih]
      · simp only [List.map_cons, List.filter_cons, same, if_false, ih]

section Row

variable {order : ByteOrder} {v : VmProcess} {row : VmStateRow}

/-- What the row of a record carries of its processes. -/
structure Carries (order : ByteOrder) (row : VmStateRow) (pcount : UInt16)
    (pstate : Fin maxVmProcNum → ProcessState) : Prop where
  count : row.processCount = pcount
  name : ∀ k, processName order pstate k = some (row.vmProcess k).1
  state : ∀ k, (row.vmProcess k).2 = (pstate k).processState.toUInt16

theorem vmStateRow_spec (formed : vmStateRow order v = some row) :
    whereKey v = some row.key ∧ Carries order row v.vmProcessCount v.pstate := by
  unfold vmStateRow at formed
  obtain ⟨key, found, formed⟩ := Option.bind_eq_some_iff.mp formed
  obtain ⟨vmName, _, formed⟩ := Option.bind_eq_some_iff.mp formed
  obtain ⟨hostName, _, formed⟩ := Option.bind_eq_some_iff.mp formed
  obtain ⟨hostIp, _, formed⟩ := Option.bind_eq_some_iff.mp formed
  split at formed
  · rename_i named
    cases formed
    exact ⟨found, rfl, fun k => (Option.some_get (named k)).symm, fun k => rfl⟩
  · cases formed

/-- A record whose strings end has a row. -/
theorem vmStateRow_isSome (timeStamp : (str v.timeStamp).isSome) (vmId : (str v.vmId).isSome)
    (vmName : (str v.vmName).isSome) (hostId : (str v.hostId).isSome)
    (hostIp : (str v.hostIp).isSome) (names : ∀ k, (str (v.pstate k).processName).isSome) :
    (vmStateRow order v).isSome := by
  have named : ∀ k, (processName order v.pstate k).isSome := by
    intro k
    rw [processName, cstr_isSome, List.mem_flatMap]
    refine ⟨v.pstate k, ?_, List.mem_append_left _ ((cstr_isSome _).mp (names k))⟩
    have inside : 0 < ((List.ofFn v.pstate).drop k).length := by
      rw [List.length_drop, List.length_ofFn]
      exact Nat.sub_pos_of_lt k.isLt
    exact List.mem_iff_getElem.mpr ⟨0, inside, by simp⟩
  obtain ⟨time, timeRead⟩ := Option.isSome_iff_exists.mp timeStamp
  obtain ⟨id, idRead⟩ := Option.isSome_iff_exists.mp vmId
  obtain ⟨name, nameRead⟩ := Option.isSome_iff_exists.mp vmName
  obtain ⟨host, hostRead⟩ := Option.isSome_iff_exists.mp hostId
  obtain ⟨ip, ipRead⟩ := Option.isSome_iff_exists.mp hostIp
  simp only [vmStateRow, whereKey, timeRead, idRead, nameRead, hostRead, ipRead, Option.bind_some,
    Option.map_some, named, implies_true, dif_pos, Option.isSome_some]

end Row

end VnfMonitoring.Pqmb
