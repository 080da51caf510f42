import VnfMonitoring.HostStateinfo
import VnfMonitoring.HostTcpStatus
import VnfMonitoring.Lib.Latch
import VnfMonitoring.Pqmb

set_option autoImplicit false

/- `ProcessVmProcStateInfo`: every VM of the snapshot gets its row for the time, then every
other machine that reports. -/
namespace VnfMonitoring.HostProcess

open VnfMonitoring.Memory VnfMonitoring.Bpapp VnfMonitoring.HostSock VnfMonitoring.HostBypass
  VnfMonitoring.HostStateinfo VnfMonitoring.HostTcpStatus VnfMonitoring.Runs VnfMonitoring.Pqmb

/-- The value of `bp_mode` in `bp_state`. -/
def bpModeCode : BypassMode → UInt16
  | .unset => 0x00
  | .on => 0x01
  | .off => 0x02

/-- What a call works on: its argument, the copies it takes under the two locks, the modes,
and `bp_mode` as the rounds of its two loops find it. -/
structure ProcessCall where
  ttime : Bytes maxTimeLength
  vmcount : Nat
  vstatus : Slot → VmcStatus
  vminfo : Slot → VmcStateinfo
  cloudMode : Int
  baremetalMode : Int
  cloudBpMode : Slot → BypassMode
  baremetalBpMode : Slot → BypassMode

/-- Whether the server accepts the statements of a round, were they issued. -/
structure PqAnswers where
  selectCount : Bool
  insert : Bool
  check : Bool
  update : Bool

def PqAnswers.accepted : PqAnswers := ⟨true, true, true, true⟩

/-- The assignments to `vmstate` in the loop over the snapshot. -/
def cloudVmState (call : ProcessCall) (i : Slot) : Option VmProcess :=
  let vm := call.vstatus i
  (strcpy VmProcess.zero.timeStamp call.ttime.toList).bind fun timeStamp =>
  (strcpy VmProcess.zero.vmId vm.vmUuid.toList).bind fun vmId =>
  (strcpy VmProcess.zero.vmName vm.vmName.toList).bind fun vmName =>
  (strcpy VmProcess.zero.hostId vm.vmHostName.toList).bind fun hostId =>
  (strcpy VmProcess.zero.hostIp [45, 0]).bind fun hostIp =>
  let vmstate : VmProcess :=
    { VmProcess.zero with
      timeStamp, vmId, vmName, hostId, hostIp
      vmType := vmTypeUtm
      vmState := vm.vmStatus
      vmPowerState := vm.vmPowerStatus }
  let bpState := bpModeCode (call.cloudBpMode i)
  match findEntry call.vminfo vm.vmIpaddr with
  | some j =>
      let entry := call.vminfo j
      (strcpy vmstate.hostIp entry.manageIp.toList).map fun hostIp =>
        { vmstate with vmProcessCount := entry.pcount, pstate := entry.pstate, hostIp, bpState }
  | none => some { vmstate with pstate := basePState, bpState }

/-- The statements of a round of the loop over the snapshot. -/
def insertCloudDb (order : ByteOrder) (answers : PqAnswers) (table : VmStateTable)
    (vmstate : VmProcess) : Option VmStateTable :=
  (selectCountVMStateInfo answers.selectCount table vmstate).bind fun pqRetval =>
    if pqRetval = 0 then
      (insertVMStateInfo order answers.insert table vmstate).map Prod.snd
    else if pqRetval ≥ 1 then
      (checkVMStateInfo answers.check table vmstate).bind fun count =>
        if count = 0 then (updateVMStateInfo order answers.update table vmstate).map Prod.snd
        else some table
    else some table

/-- One round of the loop over the snapshot. -/
def cloudRound (order : ByteOrder) (call : ProcessCall) (answers : Slot → PqAnswers)
    (table : VmStateTable) (i : Slot) : Option VmStateTable :=
  (cloudVmState call i).bind fun vmstate =>
    if call.cloudMode = 1 then insertCloudDb order (answers i) table vmstate else some table

/-- The assignments to `vmstate` in the loop over the table of the states. -/
def baremetalVmState (call : ProcessCall) (i : Slot) : Option VmProcess :=
  let entry := call.vminfo i
  (strcpy VmProcess.zero.timeStamp call.ttime.toList).bind fun timeStamp =>
  (strcpy VmProcess.zero.vmId entry.vmId.toList).bind fun vmId =>
  (strcpy VmProcess.zero.vmName entry.vmName.toList).bind fun vmName =>
  (strcpy VmProcess.zero.hostId [85, 84, 77, 0]).bind fun hostId =>
  (strcpy VmProcess.zero.hostIp entry.manageIp.toList).map fun hostIp =>
    { timeStamp, vmId, vmName, hostId, hostIp
      vmType := entry.vmType
      vmState := statusActive
      vmPowerState := pwStatusRunning
      bpState := bpModeCode (call.baremetalBpMode i)
      vmProcessCount := entry.pcount
      pstate := entry.pstate }

/-- The loop over the table of the states between two rounds. -/
structure Baremetal where
  vFlag : Bool
  table : VmStateTable
  /-- The entries for which `PQ_InsertVMStateInfo` has been called. -/
  inserts : List Slot

/-- The address of an entry is that of a VM of the snapshot. -/
def inSnapshot (call : ProcessCall) (vmIp : UInt32) : Bool :=
  (listedSlots call.vmcount).any fun j => decide (vmIp = (call.vstatus j).vmIpaddr)

/-- One round of the loop over the table of the states. `v_flag` is set and never reset. -/
def baremetalRound (order : ByteOrder) (call : ProcessCall) (accepted : Slot → Bool)
    (s : Baremetal) (i : Slot) : Option Baremetal :=
  let vmIp := (call.vminfo i).vmIp
  if vmIp = 0 then some s
  else
    let vFlag := if inSnapshot call vmIp then true else s.vFlag
    if vFlag then some { s with vFlag }
    else
      (baremetalVmState call i).bind fun vmstate =>
        if call.baremetalMode = 1 then
          (insertVMStateInfo order (accepted i) s.table vmstate).map fun (_, table) =>
            { vFlag, table, inserts := s.inserts ++ [i] }
        else some { s with vFlag }

/-- The loop over the snapshot. -/
def cloudLoop (order : ByteOrder) (call : ProcessCall) (answers : Slot → PqAnswers)
    (table : VmStateTable) : Option VmStateTable :=
  run (cloudRound order call answers) table (listedSlots call.vmcount)

/-- The loop over the table of the states. -/
def baremetalLoop (order : ByteOrder) (call : ProcessCall) (accepted : Slot → Bool)
    (table : VmStateTable) : Option Baremetal :=
  run (baremetalRound order call accepted) ⟨false, table, []⟩ (List.finRange maxSystemNum)

/-- `ProcessVmProcStateInfo` behind its copies: the table it leaves. -/
def processVmProcStateInfo (order : ByteOrder) (call : ProcessCall) (answers : Slot → PqAnswers)
    (accepted : Slot → Bool) (table : VmStateTable) : Option VmStateTable :=
  (cloudLoop order call answers table).bind fun table =>
    (baremetalLoop order call accepted table).map fun s => s.table

section Snapshot

variable {order : ByteOrder} {call : ProcessCall} {v : VmProcess} {i : Slot}

/-- A row of the snapshot that the loop visits and whose uuid is `u`. -/
def ListedAs (call : ProcessCall) (u : List UInt8) (i : Slot) : Prop :=
  i ∈ listedSlots call.vmcount ∧ str (call.vstatus i).vmUuid = some u

/-- The process data of a VM: that of the first entry with its address. -/
def processData (call : ProcessCall) (i : Slot) : UInt16 × (Fin maxVmProcNum → ProcessState) :=
  match findEntry call.vminfo (call.vstatus i).vmIpaddr with
  | some j => ((call.vminfo j).pcount, (call.vminfo j).pstate)
  | none => (0, basePState)

/-- The key of a VM's record, and its process data. -/
theorem cloudVmState_spec (formed : cloudVmState call i = some v) :
    ∃ time u, str call.ttime = some time ∧ str (call.vstatus i).vmUuid = some u ∧
      whereKey v = some (time, u) ∧ processData call i = (v.vmProcessCount, v.pstate) := by
  unfold cloudVmState at formed
  obtain ⟨timeStamp, timeCopied, formed⟩ := Option.bind_eq_some_iff.mp formed
  obtain ⟨vmId, idCopied, formed⟩ := Option.bind_eq_some_iff.mp formed
  obtain ⟨vmName, _, formed⟩ := Option.bind_eq_some_iff.mp formed
  obtain ⟨hostId, _, formed⟩ := Option.bind_eq_some_iff.mp formed
  obtain ⟨noIp, _, formed⟩ := Option.bind_eq_some_iff.mp formed
  obtain ⟨time, timeRead, timeStr⟩ := strcpy_reads timeCopied
  obtain ⟨u, idRead, idStr⟩ := strcpy_reads idCopied
  refine ⟨time, u, timeRead, idRead, ?_⟩
  unfold processData
  cases found : findEntry call.vminfo (call.vstatus i).vmIpaddr with
  | some j =>
      rw [found] at formed
      obtain ⟨hostIp, _, same⟩ := Option.map_eq_some_iff.mp formed
      subst same
      exact ⟨by rw [whereKey, timeStr, idStr]; rfl, rfl⟩
  | none =>
      rw [found] at formed
      cases formed
      exact ⟨by rw [whereKey, timeStr, idStr]; rfl, rfl⟩

end Snapshot

section Baremetal

variable {order : ByteOrder} {call : ProcessCall} {accepted : Slot → Bool} {s next : Baremetal}
  {i : Slot}

/-- An entry of the table that is in use and whose address the snapshot lacks. -/
def Unlisted (call : ProcessCall) (i : Slot) : Prop :=
  (call.vminfo i).vmIp ≠ 0 ∧ inSnapshot call (call.vminfo i).vmIp = false

/-- An entry of the table that is in use by a VM of the snapshot. -/
def InUse (call : ProcessCall) (i : Slot) : Prop :=
  (call.vminfo i).vmIp ≠ 0 ∧ inSnapshot call (call.vminfo i).vmIp = true

instance : DecidablePred (Unlisted call) := fun _ => inferInstanceAs (Decidable (_ ∧ _))

instance : DecidablePred (InUse call) := fun _ => inferInstanceAs (Decidable (_ ∧ _))

/-- What a round of the second loop can do. -/
theorem baremetalRound_cases (done : baremetalRound order call accepted s i = some next) :
    ((call.vminfo i).vmIp = 0 ∧ next = s) ∨
      (InUse call i ∧ next = { s with vFlag := true }) ∨
      (Unlisted call i ∧ s.vFlag = true ∧ next = s) ∨
      (Unlisted call i ∧ s.vFlag = false ∧ call.baremetalMode = 1 ∧
        ∃ v ret table, baremetalVmState call i = some v ∧
          insertVMStateInfo order (accepted i) s.table v = some (ret, table) ∧
            next = ⟨false, table, s.inserts ++ [i]⟩) ∨
      (Unlisted call i ∧ s.vFlag = false ∧ call.baremetalMode ≠ 1 ∧ next = s) := by
  by_cases free : (call.vminfo i).vmIp = 0
  · simp only [baremetalRound, free, if_true, Option.some_inj] at done
    exact Or.inl ⟨free, done.symm⟩
  refine Or.inr ?_
  cases known : inSnapshot call (call.vminfo i).vmIp with
  | true =>
      simp only [baremetalRound, free, known, if_true, if_false, Option.some_inj] at done
      exact Or.inl ⟨⟨free, known⟩, done.symm⟩
  | false =>
      refine Or.inr ?_
      cases flag : s.vFlag with
      | true =>
          simp only [baremetalRound, free, known, flag, Bool.false_eq_true, if_true, if_false,
            Option.some_inj] at done
          refine Or.inl ⟨⟨free, known⟩, rfl, ?_⟩
          rw [← done, ← flag]
      | false =>
          refine Or.inr ?_
          simp only [baremetalRound, free, known, flag, Bool.false_eq_true, if_false] at done
          obtain ⟨v, formed, stored⟩ := Option.bind_eq_some_iff.mp done
          by_cases mode : call.baremetalMode = 1
          · rw [if_pos mode] at stored
            obtain ⟨⟨ret, table⟩, inserted, rfl⟩ := Option.map_eq_some_iff.mp stored
            exact Or.inl ⟨⟨free, known⟩, rfl, mode, v, ret, table, formed, inserted, rfl⟩
          · rw [if_neg mode, Option.some_inj] at stored
            refine Or.inr ⟨⟨free, known⟩, rfl, mode, ?_⟩
            rw [← stored, ← flag]

/-- Outside the bare-metal mode the second loop leaves the table. -/
theorem baremetalLoop_off (off : call.baremetalMode ≠ 1) {table : VmStateTable}
    (done : baremetalLoop order call accepted table = some s) : s.table = table := by
  refine run_invariant (fun s : Baremetal => s.table = table) ?_ rfl done
  intro before i next same stepped
  obtain ⟨_, rfl⟩ | ⟨_, rfl⟩ | ⟨_, _, rfl⟩ | ⟨_, _, mode, _⟩ | ⟨_, _, _, rfl⟩ :=
    baremetalRound_cases stepped
  · exact same
  · exact same
  · exact same
  · exact absurd mode off
  · exact same

end Baremetal

section Strings

variable {order : ByteOrder} {call : ProcessCall} {i : Slot}

/-- Every string that the call reads ends in its array, the uuids within the 64 characters
of `vm_id`. -/
structure StringsEnd (call : ProcessCall) : Prop where
  ttime : (str call.ttime).isSome
  vmUuid : ∀ i ∈ listedSlots call.vmcount, ∃ u,
    str (call.vstatus i).vmUuid = some u ∧ u.length < maxNameLength * 2
  statusName : ∀ i ∈ listedSlots call.vmcount, (str (call.vstatus i).vmName).isSome
  vmHostName : ∀ i ∈ listedSlots call.vmcount, (str (call.vstatus i).vmHostName).isSome
  vmId : ∀ j, (str (call.vminfo j).vmId).isSome
  vmName : ∀ j, (str (call.vminfo j).vmName).isSome
  manageIp : ∀ j, (str (call.vminfo j).manageIp).isSome
  processName : ∀ j k, (str ((call.vminfo j).pstate k).processName).isSome

theorem cloudVmState_formed (order : ByteOrder) (strings : StringsEnd call)
    (listed : i ∈ listedSlots call.vmcount) :
    ∃ v, cloudVmState call i = some v ∧ (vmStateRow order v).isSome := by
  have name := strings.statusName i listed
  have host := strings.vmHostName i listed
  obtain ⟨u, uuid, short⟩ := strings.vmUuid i listed
  obtain ⟨timeStamp, timeCopied, timeRead⟩ :=
    strcpy_total VmProcess.zero.timeStamp strings.ttime (by decide)
  obtain ⟨vmId, idCopied, _⟩ := strcpy_of_cstr VmProcess.zero.vmId uuid short
  obtain ⟨_, _, idRead⟩ := strcpy_reads idCopied
  obtain ⟨vmName, nameCopied, nameRead⟩ := strcpy_total VmProcess.zero.vmName name (by decide)
  obtain ⟨hostId, hostCopied, hostRead⟩ := strcpy_total VmProcess.zero.hostId host (by decide)
  obtain ⟨noIp, dashCopied, dashRead⟩ :=
    strcpy_str VmProcess.zero.hostIp [45] [] (by decide) (by decide)
  change strcpy VmProcess.zero.hostIp [45, 0] = some noIp at dashCopied
  have row {v : VmProcess} (time : v.timeStamp = timeStamp) (id : v.vmId = vmId)
      (named : v.vmName = vmName) (hosted : v.hostId = hostId) (ip : (str v.hostIp).isSome)
      (names : ∀ k, (str (v.pstate k).processName).isSome) : (vmStateRow order v).isSome := by
    apply vmStateRow_isSome _ _ _ _ ip names
    · rw [time, timeRead]
      exact strings.ttime
    · rw [id, idRead]
      rfl
    · rw [named, nameRead]
      exact name
    · rw [hosted, hostRead]
      exact host
  unfold cloudVmState
  simp only [timeCopied, idCopied, nameCopied, hostCopied, dashCopied, Option.bind_some]
  cases found : findEntry call.vminfo (call.vstatus i).vmIpaddr with
  | some j =>
      obtain ⟨hostIp, ipCopied, ipRead⟩ := strcpy_total noIp (strings.manageIp j) (Nat.le_refl _)
      refine ⟨_, Option.map_eq_some_iff.mpr ⟨hostIp, ipCopied, rfl⟩, ?_⟩
      exact row rfl rfl rfl rfl (ipRead ▸ strings.manageIp j) (strings.processName j)
  | none =>
      refine ⟨_, rfl, row rfl rfl rfl rfl (by rw [dashRead]; rfl) fun k => ?_⟩
      change (str (dash 63)).isSome = true
      decide

theorem baremetalVmState_formed (order : ByteOrder) (strings : StringsEnd call) (i : Slot) :
    ∃ v, baremetalVmState call i = some v ∧ (vmStateRow order v).isSome := by
  obtain ⟨timeStamp, timeCopied, timeRead⟩ :=
    strcpy_total VmProcess.zero.timeStamp strings.ttime (by decide)
  obtain ⟨vmId, idCopied, idRead⟩ :=
    strcpy_total VmProcess.zero.vmId (strings.vmId i) (by decide)
  obtain ⟨vmName, nameCopied, nameRead⟩ :=
    strcpy_total VmProcess.zero.vmName (strings.vmName i) (by decide)
  obtain ⟨hostId, hostCopied, hostRead⟩ :=
    strcpy_str VmProcess.zero.hostId [85, 84, 77] [] (by decide) (by decide)
  change strcpy VmProcess.zero.hostId [85, 84, 77, 0] = some hostId at hostCopied
  obtain ⟨hostIp, ipCopied, ipRead⟩ :=
    strcpy_total VmProcess.zero.hostIp (strings.manageIp i) (by decide)
  unfold baremetalVmState
  simp only [timeCopied, idCopied, nameCopied, hostCopied, ipCopied, Option.bind_some,
    Option.map_some]
  refine ⟨_, rfl, ?_⟩
  apply vmStateRow_isSome
  · exact timeRead ▸ strings.ttime
  · exact idRead ▸ strings.vmId i
  · exact nameRead ▸ strings.vmName i
  · rw [hostRead]
    rfl
  · exact ipRead ▸ strings.manageIp i
  · exact strings.processName i

/-- The statements for a record that has no row at its key yet. -/
theorem insertCloudDb_missing {answers : PqAnswers} {table : VmStateTable} {v : VmProcess}
    {key : Key} (counted : answers.selectCount = true) (found : whereKey v = some key)
    (rows : rowsAt table key = []) :
    insertCloudDb order answers table v =
      (insertVMStateInfo order answers.insert table v).map Prod.snd := by
  have count : selectCountVMStateInfo answers.selectCount table v = some 0 := by
    rw [selectCountVMStateInfo, found, Option.map_some, if_pos counted, rows]
    rfl
  rw [insertCloudDb, count, Option.bind_some, if_pos rfl]

/-- The statements for a record that has a row at its key. -/
theorem insertCloudDb_present {answers : PqAnswers} {table : VmStateTable} {v : VmProcess}
    {key : Key} {first : VmStateRow} {rest : VmStateTable} (counted : answers.selectCount = true)
    (found : whereKey v = some key) (rows : rowsAt table key = first :: rest) :
    insertCloudDb order answers table v =
      if answers.check = true ∧ first.processCount = 0 then
        (updateVMStateInfo order answers.update table v).map Prod.snd
      else some table := by
  have count : selectCountVMStateInfo answers.selectCount table v =
      some ((rest.length + 1 : Nat) : Int) := by
    rw [selectCountVMStateInfo, found, Option.map_some, if_pos counted, rows]
    rfl
  rw [insertCloudDb, count, Option.bind_some, if_neg (by omega), if_pos (by omega),
    checkVMStateInfo, found, Option.bind_some, rows, List.head?_cons, Option.map_some]
  cases checked : answers.check with
  | false => simp
  | true =>
      have zero : (first.processCount.toNat : Int) = 0 ↔ first.processCount = 0 := by
        rw [← UInt16.toNat_inj]
        exact Int.natCast_inj
      simp only [if_true, Option.bind_some, zero, true_and]

/-- The statements for a record that has a row go through: a count of one or more finds a
row to check. -/
theorem insertCloudDb_isSome (answers : PqAnswers) (table : VmStateTable) {v : VmProcess}
    (formed : (vmStateRow order v).isSome) :
    (insertCloudDb order answers table v).isSome := by
  obtain ⟨row, rowFormed⟩ := Option.isSome_iff_exists.mp formed
  have found := (vmStateRow_spec rowFormed).1
  by_cases counted : answers.selectCount = true
  · cases rows : rowsAt table row.key with
    | nil =>
        rw [insertCloudDb_missing counted found rows, insertVMStateInfo, rowFormed]
        rfl
    | cons first rest =>
        rw [insertCloudDb_present counted found rows, updateVMStateInfo, rowFormed]
        split <;> rfl
  · rw [insertCloudDb, selectCountVMStateInfo, found, Option.map_some, if_neg counted]
    rfl

theorem cloudLoop_isSome (order : ByteOrder) (strings : StringsEnd call)
    (answers : Slot → PqAnswers) (table : VmStateTable) : (cloudLoop order call answers table).isSome := by
  apply run_isSome (fun _ => True) _ trivial
  intro table _ i listed
  obtain ⟨v, recorded, formed⟩ := cloudVmState_formed order strings listed
  have stored := insertCloudDb_isSome (answers i) table formed
  unfold cloudRound
  rw [recorded, Option.bind_some]
  split
  · obtain ⟨next, done⟩ := Option.isSome_iff_exists.mp stored
    exact ⟨next, done, trivial⟩
  · exact ⟨table, rfl, trivial⟩

theorem baremetalLoop_isSome (order : ByteOrder) (strings : StringsEnd call)
    (accepted : Slot → Bool) (table : VmStateTable) : (baremetalLoop order call accepted table).isSome := by
  apply run_isSome (fun _ => True) _ trivial
  intro s _ i _
  obtain ⟨v, recorded, formed⟩ := baremetalVmState_formed order strings i
  obtain ⟨row, formed⟩ := Option.isSome_iff_exists.mp formed
  simp only [baremetalRound, insertVMStateInfo, recorded, formed, Option.bind_some,
    Option.map_some, and_true]
  apply Option.isSome_iff_exists.mp
  split
  · rfl
  · split
    · rfl
    · split
      · rfl
      · split <;> rfl

/-- A call whose strings end leaves a table. -/
theorem processVmProcStateInfo_isSome (strings : StringsEnd call) (answers : Slot → PqAnswers)
    (accepted : Slot → Bool) (table : VmStateTable) :
    (processVmProcStateInfo order call answers accepted table).isSome := by
  obtain ⟨middle, cloud⟩ := Option.isSome_iff_exists.mp
    (cloudLoop_isSome order strings answers table)
  rw [processVmProcStateInfo, cloud, Option.bind_some, Option.isSome_map]
  exact baremetalLoop_isSome order strings accepted middle

end Strings

end VnfMonitoring.HostProcess
