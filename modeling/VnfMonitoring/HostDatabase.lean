import Mathlib.Data.List.Forall2
import VnfMonitoring.DbmbStatus
import VnfMonitoring.HostBypass

set_option autoImplicit false

/- The bypass decision from the database on: the rows of `SelectAllVMStatus`, the array
they are decoded into, and the mode that the two checks make of it. -/
namespace VnfMonitoring.HostDatabase

open VnfMonitoring.Memory VnfMonitoring.Fields VnfMonitoring.Bpapp VnfMonitoring.DbmbStatus
  VnfMonitoring.HostBypass VnfMonitoring.Runs

/-- What `ExecQuery1` returns, and the rows of the result. -/
structure Answer where
  retval : Int
  rows : List Row

section Query

variable (order : ByteOrder) (inetAddr : List UInt8 → UInt32)

/-- A record of the array, as the host reads it. -/
def record (vm : StatusArray) (k : Fin maxSystemNum) : VmcStatus :=
  let base := vmcStatusSize * k
  { vmId := (load32 order vm (base + idAt)).getD 0
    vmIpaddr := (load32 order vm (base + ipaddrAt)).getD 0
    vmStatus := (load16 order vm (base + statusAt)).getD 0
    vmPowerStatus := (load16 order vm (base + powerStatusAt)).getD 0
    vmName := (loadBytes vm (base + nameAt) maxNameLength).getD (.zero _)
    vmUuid := (loadBytes vm (base + uuidAt) (maxNameLength * 4)).getD (.zero _)
    vmHostName := (loadBytes vm (base + hostNameAt) maxNameLength).getD (.zero _) }

/-- `SelectAllVMStatus` on a cleared array, without a snapshot when it returns -1. No value
when it writes outside the array. -/
def select (answer : Answer) : Option (Option VmSnapshot) :=
  (selectAllVMStatus order inetAddr answer.retval answer.rows (.zero _)).bind fun (count, vm) =>
    if count < 0 then some none
    else if bounded : count.toNat ≤ maxSystemNum then
      some (some ⟨count.toNat, record order vm, bounded⟩)
    else none

/-- The two checks, with the answer that a pending `CheckVmcStatus` works on and the one
whose rows are stored. -/
structure DbHost where
  state : State
  asked : Answer
  stored : Answer

/-- The host after `GetVmStatusInfoDB`. -/
def DbHost.start (conf : HostConf) (answer : Answer) : Option DbHost :=
  (select order inetAddr answer).bind fun query =>
    (getVmStatusInfoDB conf query).map fun conf => ⟨State.initial conf, answer, answer⟩

inductive DbEvent where
  | vmcQuery (answer : Answer)
  | vmcCommit
  | tcpCopy
  | tcpCommit (hung : Bool)

def DbHost.step (s : DbHost) : DbEvent → Option DbHost
  | .vmcQuery answer =>
      (select order inetAddr answer).bind fun query =>
        (HostBypass.step s.state (.vmcQuery query)).map fun state =>
          { s with state, asked := answer }
  | .vmcCommit =>
      (HostBypass.step s.state .vmcCommit).map fun state => { s with state, stored := s.asked }
  | .tcpCopy => (HostBypass.step s.state .tcpCopy).map fun state => { s with state }
  | .tcpCommit hung =>
      (HostBypass.step s.state (.tcpCommit hung)).map fun state => { s with state }

/-- The event of the checks that an event stands for. -/
def translate : DbEvent → List Event
  | .vmcQuery answer => ((select order inetAddr answer).map Event.vmcQuery).toList
  | .vmcCommit => [.vmcCommit]
  | .tcpCopy => [.tcpCopy]
  | .tcpCommit hung => [.tcpCommit hung]

end Query

/-- A column as a string; NULL is the empty one. -/
def columnText (column : Option Text) : List UInt8 := (column.map Subtype.val).getD []

/-- The power state that a row gives its VM. -/
def powerOf (row : Row) : UInt16 := UInt16.ofNat ((scanUnsigned 16 row.powerState.val).getD 0)

/-- A row whose VM asks for the bypass. -/
def AsksBypass (row : Row) : Prop :=
  powerOf row ≠ pwStatusShutdown ∧
    ¬ ((row.vmState.val = chars "active" ∨ row.vmState.val = chars "build") ∧
      (powerOf row = pwStatusRunning ∨ powerOf row = pwStatusNostatus))

/-- The answer asks for the bypass: there is no row, or one that is decoded does. -/
def Answer.Requests (answer : Answer) : Prop :=
  answer.rows = [] ∨ ∃ row ∈ answer.rows.take maxSystemNum, AsksBypass row

/-- The columns of the rows that are decoded fit their fields. -/
def Answer.Fits (answer : Answer) : Prop := ∀ row ∈ answer.rows.take maxSystemNum, row.Fits

/-- The record of a VM says what its row says. -/
structure RecordOf (inetAddr : List UInt8 → UInt32) (row : Row) (vm : VmcStatus) : Prop where
  vmId : vm.vmId = UInt32.ofNat ((scanUnsigned 32 row.id.val).getD 0)
  vmIpaddr : vm.vmIpaddr = (row.ipAddress.map fun addr => inetAddr addr.val).getD 0
  vmStatus : vm.vmStatus = (statusCode row.vmState.val).getD 0
  vmPowerStatus : vm.vmPowerStatus = powerOf row
  vmName : str vm.vmName = some (columnText row.displayName)
  vmUuid : str vm.vmUuid = some (columnText row.uuid)
  vmHostName : str vm.vmHostName = some (columnText row.host)

/-- The records are those of the rows, in their order. -/
def Listed (inetAddr : List UInt8 → UInt32) (answer : Answer) (vms : List VmcStatus) : Prop :=
  List.Forall₂ (RecordOf inetAddr) (answer.rows.take maxSystemNum) vms

section Decode

variable {order : ByteOrder} {inetAddr : List UInt8 → UInt32}

theorem holdsText_read {vm : StatusArray} {offset size : Nat} {column : Option Text}
    (holds : HoldsText vm offset size column) (fits : ∀ text ∈ column, text.val.length < size)
    (positive : 0 < size) :
    str ((loadBytes vm offset size).getD (.zero _)) = some (columnText column) := by
  obtain ⟨field, chars, loaded, read, _, whole⟩ := holds
  rw [loaded, Option.getD_some, read, whole]
  · rfl
  · cases column with
    | none => exact positive
    | some text => exact fits text rfl

/-- A record that holds its row says what the row says. -/
theorem recordOf_holds {vm : StatusArray} {k : Fin maxSystemNum} {row : Row} (fits : row.Fits)
    (holds : HoldsRow order inetAddr vm (vmcStatusSize * k) row) :
    RecordOf inetAddr row (record order vm k) where
  vmId := by
    simp only [record]
    rw [holds.vmId, Option.getD_some]
  vmIpaddr := by
    simp only [record]
    rw [holds.vmIpaddr, Option.getD_some]
  vmStatus := by
    simp only [record]
    rw [holds.vmStatus, Option.getD_some]
  vmPowerStatus := by
    simp only [record]
    rw [holds.vmPowerStatus, Option.getD_some]
    rfl
  vmName := holdsText_read holds.vmName fits.1 (by decide)
  vmUuid := holdsText_read holds.vmUuid fits.2.1 (by decide)
  vmHostName := holdsText_read holds.vmHostName fits.2.2 (by decide)

/-- A query whose columns fit stays inside the array. It leaves the records of its rows. -/
theorem select_spec {answer : Answer} (fits : answer.Fits) :
    ∃ query, select order inetAddr answer = some query ∧
      (answer.retval ≠ 0 ∧ query = none ∨ answer.retval = 0 ∧ ∃ snapshot, query = some snapshot ∧
        Listed inetAddr answer (listedVms snapshot.vmcount snapshot.vm)) := by
  by_cases failed : answer.retval = 0
  · have room : (answer.rows.take maxSystemNum).length ≤ maxSystemNum := List.length_take_le _ _
    obtain ⟨vm, stored⟩ : ∃ vm, storeAll (.zero _)
        (fieldStores (allFields order inetAddr 0 (answer.rows.take maxSystemNum))) = some vm :=
      stored_some fits room _
    have done : selectAllVMStatus order inetAddr 0 answer.rows (.zero _) = _ :=
      selectAllVMStatus_eq answer.rows (.zero _)
    rw [stored, Option.map_some] at done
    have count : ¬ ((min answer.rows.length maxSystemNum : Nat) : Int) < 0 := by omega
    have bounded : min answer.rows.length maxSystemNum ≤ maxSystemNum := Nat.min_le_right _ _
    refine ⟨some ⟨min answer.rows.length maxSystemNum, record order vm, bounded⟩, ?_,
      Or.inr ⟨failed, _, rfl, ?_⟩⟩
    · simp only [select, failed, done, Option.bind_some, count, if_false, Int.toNat_natCast,
        bounded, dite_true]
    apply List.forall₂_iff_get.mpr
    constructor
    · simp only [listedVms, List.length_take, List.length_ofFn]
      omega
    · intro k inside here
      have short := inside
      rw [List.length_take] at short
      simp only [listedVms, List.get_eq_getElem, List.getElem_take, List.getElem_ofFn]
      rw [← List.getElem_take (h := inside)]
      apply recordOf_holds
      · exact fits _ (List.getElem_mem inside)
      · exact record_held fits room stored (List.getElem?_eq_getElem inside)
  · refine ⟨none, ?_, Or.inl ⟨failed, rfl⟩⟩
    simp only [select, selectAllVMStatus, failed, not_false_eq_true, if_true, ne_eq,
      Option.bind_some]
    rfl

end Decode

section Policy

variable {inetAddr : List UInt8 → UInt32} {row : Row} {vm : VmcStatus} {answer : Answer}
  {vms : List VmcStatus}

/-- The two codes that count as normal come from their names only. -/
theorem statusCode_normal (name : List UInt8) :
    (statusCode name).getD 0 = statusActive ∨ (statusCode name).getD 0 = statusBuild ↔
      name = chars "active" ∨ name = chars "build" := by
  unfold statusCode
  split_ifs with active build deleted stopped paused suspended
  · exact iff_of_true (Or.inl rfl) (Or.inl active)
  · exact iff_of_true (Or.inr rfl) (Or.inr build)
  all_goals
    exact iff_of_false (by decide) (by simp only [active, build, or_self, not_false_eq_true])

theorem RecordOf.asks (recordOf : RecordOf inetAddr row vm) :
    RequestsBypass vm ↔ AsksBypass row := by
  rw [RequestsBypass, AsksBypass, recordOf.vmStatus, recordOf.vmPowerStatus, statusCode_normal]

theorem exists_mem_forall₂ {α β : Type} {R : α → β → Prop} {P : α → Prop} {Q : β → Prop}
    (agree : ∀ a b, R a b → (Q b ↔ P a)) {l : List α} {m : List β} (related : List.Forall₂ R l m) :
    (∃ b ∈ m, Q b) ↔ ∃ a ∈ l, P a := by
  induction related with
  | nil => simp
  | cons here _ ih => simp only [List.mem_cons, exists_eq_or_imp, ih, agree _ _ here]

theorem Listed.asks (listed : Listed inetAddr answer vms) :
    (∃ vm ∈ vms, RequestsBypass vm) ↔ ∃ row ∈ answer.rows.take maxSystemNum, AsksBypass row :=
  exists_mem_forall₂ (fun _ _ recordOf => recordOf.asks) listed

theorem Listed.nil (listed : Listed inetAddr answer vms) : vms = [] ↔ answer.rows = [] := by
  have count := listed.length_eq
  rw [List.length_take] at count
  rw [← List.length_eq_zero_iff, ← List.length_eq_zero_iff]
  have room : 0 < maxSystemNum := by decide
  omega

/-- The policy of the records is that of the rows. -/
theorem Listed.policy (listed : Listed inetAddr answer vms) :
    bypassPolicy vms = .on ↔ answer.Requests := by
  rw [Answer.Requests, ← listed.nil, ← listed.asks, bypassPolicy]
  split
  · rename_i asks
    exact iff_of_true rfl asks
  · rename_i quiet
    refine iff_of_false ?_ quiet
    intro same
    cases same

end Policy

section Runs

variable {order : ByteOrder} {inetAddr : List UInt8 → UInt32} {conf : HostConf} {s next : DbHost}

/-- The records of an answer; without the cloud there are none. -/
def Shows (inetAddr : List UInt8 → UInt32) (cloudMode : Int) (answer : Answer)
    (vms : List VmcStatus) : Prop :=
  (cloudMode = 1 → Listed inetAddr answer vms) ∧ (cloudMode ≠ 1 → vms = [])

theorem Shows.policy {cloudMode : Int} {answer : Answer} {vms : List VmcStatus}
    (shows_ : Shows inetAddr cloudMode answer vms) :
    bypassPolicy vms = .on ↔ (cloudMode = 1 → answer.Requests) := by
  by_cases cloud : cloudMode = 1
  · rw [(shows_.1 cloud).policy]
    exact ⟨fun asks _ => asks, fun asks => asks cloud⟩
  · rw [shows_.2 cloud]
    exact iff_of_true rfl fun same => absurd same cloud

/-- The stored snapshot is that of the stored answer, and a pending call has that of its
own. -/
structure Backed (inetAddr : List UInt8 → UInt32) (cloudMode : Int) (s : DbHost) : Prop where
  cloud : s.state.conf.cloudMode = cloudMode
  stored : Shows inetAddr cloudMode s.stored s.state.conf.storedVms
  asked : ∀ call ∈ s.state.vmc, Shows inetAddr cloudMode s.asked (listedVms call.vmcount call.vm)

/-- What a query makes of the rows, with the cloud and without it. -/
theorem selected_shows {cloudMode : Int} {answer : Answer} (fits : answer.Fits)
    {query : Option VmSnapshot} (selected : select order inetAddr answer = some query)
    {other : Fin maxSystemNum → VmcStatus} {found : Nat × (Fin maxSystemNum → VmcStatus)}
    (read : (if cloudMode = 1 then query.map fun rows => (rows.vmcount, rows.vm)
      else some (0, other)) = some found) :
    Shows inetAddr cloudMode answer (listedVms found.1 found.2) := by
  by_cases cloud : cloudMode = 1
  · rw [if_pos cloud] at read
    obtain ⟨snapshot, same, rfl⟩ := Option.map_eq_some_iff.mp read
    refine ⟨fun _ => ?_, fun off => absurd cloud off⟩
    obtain ⟨other, done, outcome⟩ := select_spec fits
    cases done.symm.trans selected
    rcases outcome with ⟨_, failed⟩ | ⟨_, decoded, here, listed⟩
    · rw [failed] at same
      cases same
    · rw [here] at same
      cases same
      exact listed
  · rw [if_neg cloud] at read
    cases read
    exact ⟨fun on => absurd on cloud, fun _ => rfl⟩

theorem start_backed {answer : Answer} (fits : answer.Fits)
    (started : DbHost.start order inetAddr conf answer = some s) :
    Backed inetAddr conf.cloudMode s := by
  obtain ⟨query, selected, started⟩ := Option.bind_eq_some_iff.mp started
  obtain ⟨begun, found, rfl⟩ := Option.map_eq_some_iff.mp started
  obtain ⟨⟨vmcount, vm⟩, read, rfl⟩ := Option.map_eq_some_iff.mp found
  refine ⟨?_, ?_, nofun⟩
  · simp only [State.initial, apply_ite HostConf.cloudMode, ite_self]
  · simp only [State.initial, HostConf.storedVms, apply_ite HostConf.vmcStatus, ite_self]
    exact selected_shows fits selected read

theorem vmcCommit_backed {cloudMode : Int} (backed : Backed inetAddr cloudMode s) {state : State}
    (stepped : HostBypass.step s.state .vmcCommit = some state) :
    Backed inetAddr cloudMode { s with state, stored := s.asked } := by
  obtain ⟨call, pending, rfl⟩ := Option.map_eq_some_iff.mp stepped
  obtain ⟨_, rows⟩ := checkVmcStatusCommit_stores s.state.conf call
  refine ⟨?_, ?_, nofun⟩
  · rw [← backed.cloud]
    simp only [checkVmcStatusCommit, apply_ite HostConf.cloudMode, ite_self]
  · simp only [rows]
    exact backed.asked call pending

theorem tcpCommit_backed {cloudMode : Int} {hung : Bool} (backed : Backed inetAddr cloudMode s)
    {state : State} (stepped : HostBypass.step s.state (.tcpCommit hung) = some state) :
    Backed inetAddr cloudMode { s with state } := by
  obtain ⟨_, _, rfl⟩ := Option.map_eq_some_iff.mp stepped
  have same : (checkTcpStatusCommit s.state.conf (tcpVerdict hung)).cloudMode =
        s.state.conf.cloudMode ∧
      (checkTcpStatusCommit s.state.conf (tcpVerdict hung)).storedVms = s.state.conf.storedVms := by
    simp only [checkTcpStatusCommit, HostConf.storedVms, apply_ite HostConf.cloudMode,
      apply_ite HostConf.vmCount, apply_ite HostConf.vmcStatus, ite_self, and_self]
  refine ⟨same.1.trans backed.cloud, ?_, backed.asked⟩
  simp only [same.2]
  exact backed.stored

theorem vmcQuery_backed {cloudMode : Int} {answer : Answer} (backed : Backed inetAddr cloudMode s)
    (fits : answer.Fits) {query : Option VmSnapshot}
    (selected : select order inetAddr answer = some query) {state : State}
    (stepped : HostBypass.step s.state (.vmcQuery query) = some state) :
    Backed inetAddr cloudMode { s with state, asked := answer } := by
  simp only [HostBypass.step] at stepped
  split at stepped
  · cases stepped
    refine ⟨backed.cloud, backed.stored, ?_⟩
    intro call made
    obtain ⟨⟨vmcount, vm⟩, read, rfl⟩ := Option.map_eq_some_iff.mp made
    rw [backed.cloud] at read
    exact selected_shows fits selected read
  · cases stepped

/-- The answers of the queries fit. -/
def FitsEvent : DbEvent → Prop
  | .vmcQuery answer => answer.Fits
  | .vmcCommit | .tcpCopy | .tcpCommit _ => True

theorem step_backed {cloudMode : Int} {event : DbEvent} (backed : Backed inetAddr cloudMode s)
    (fits : FitsEvent event) (stepped : s.step order inetAddr event = some next) :
    Backed inetAddr cloudMode next := by
  cases event with
  | vmcQuery answer =>
      obtain ⟨query, selected, stepped⟩ := Option.bind_eq_some_iff.mp stepped
      obtain ⟨state, moved, rfl⟩ := Option.map_eq_some_iff.mp stepped
      exact vmcQuery_backed backed fits selected moved
  | vmcCommit =>
      obtain ⟨state, moved, rfl⟩ := Option.map_eq_some_iff.mp stepped
      exact vmcCommit_backed backed moved
  | tcpCopy =>
      obtain ⟨state, moved, rfl⟩ := Option.map_eq_some_iff.mp stepped
      simp only [HostBypass.step] at moved
      split at moved
      · cases moved
        exact ⟨backed.cloud, backed.stored, backed.asked⟩
      · cases moved
  | tcpCommit hung =>
      obtain ⟨state, moved, rfl⟩ := Option.map_eq_some_iff.mp stepped
      exact tcpCommit_backed backed moved

theorem step_translated {event : DbEvent} (stepped : s.step order inetAddr event = some next) :
    run HostBypass.step s.state (translate order inetAddr event) = some next.state := by
  cases event with
  | vmcQuery answer =>
      obtain ⟨query, selected, stepped⟩ := Option.bind_eq_some_iff.mp stepped
      obtain ⟨state, moved, rfl⟩ := Option.map_eq_some_iff.mp stepped
      rw [translate, selected, Option.map_some, Option.toList_some, run_singleton]
      exact moved
  | vmcCommit | tcpCopy | tcpCommit =>
      obtain ⟨state, moved, rfl⟩ := Option.map_eq_some_iff.mp stepped
      rw [translate, run_singleton]
      exact moved

/-- An answer that the first query or a later one got. -/
def Heard (first : Answer) (events : List DbEvent) (answer : Answer) : Prop :=
  answer = first ∨ .vmcQuery answer ∈ events

theorem step_heard {first : Answer} {events : List DbEvent} {event : DbEvent}
    (heard : Heard first events s.asked ∧ Heard first events s.stored) (member : event ∈ events)
    (stepped : s.step order inetAddr event = some next) :
    Heard first events next.asked ∧ Heard first events next.stored := by
  cases event with
  | vmcQuery answer =>
      obtain ⟨query, _, stepped⟩ := Option.bind_eq_some_iff.mp stepped
      obtain ⟨state, _, rfl⟩ := Option.map_eq_some_iff.mp stepped
      exact ⟨Or.inr member, heard.2⟩
  | vmcCommit =>
      obtain ⟨state, _, rfl⟩ := Option.map_eq_some_iff.mp stepped
      exact ⟨heard.1, heard.1⟩
  | tcpCopy | tcpCommit =>
      obtain ⟨state, _, rfl⟩ := Option.map_eq_some_iff.mp stepped
      exact heard

/-- In every state of a run the stored snapshot is that of an answer that the database gave,
record by row, and the bypass is on exactly when the rows of that answer ask for it or the
last check of the connections does. -/
theorem run_database {first : Answer} {start : DbHost} (tcpOff : conf.tcpMode = .off)
    (fits : first.Fits) (started : DbHost.start order inetAddr conf first = some start)
    {events : List DbEvent} (allFit : ∀ event ∈ events, FitsEvent event) {final : DbHost}
    (reached : run (DbHost.step order inetAddr) start events = some final) :
    Heard first events final.stored ∧
      (conf.cloudMode = 1 → Listed inetAddr final.stored final.state.conf.storedVms) ∧
      (final.state.conf.bpMode = .on ↔ (conf.cloudMode = 1 → final.stored.Requests) ∨
        lastTcpVerdict .off (events.flatMap (translate order inetAddr)) = .on) := by
  have fitting : AllSteps (DbHost.step order inetAddr) (fun _ event => FitsEvent event) start
      events := allSteps_of_forall allFit
  have taken : AllSteps (DbHost.step order inetAddr) (fun _ event => event ∈ events) start
      events := allSteps_of_forall fun _ member => member
  have backed := run_invariant_of (Backed inetAddr conf.cloudMode)
    (fun _ _ _ before allowed stepped => step_backed before allowed stepped)
    (start_backed fits started) fitting reached
  obtain ⟨query, _, asked⟩ := Option.bind_eq_some_iff.mp started
  obtain ⟨begun, found, rfl⟩ := Option.map_eq_some_iff.mp asked
  have heard := run_invariant_of
    (fun s : DbHost => Heard first events s.asked ∧ Heard first events s.stored)
    (fun _ _ _ before member stepped => step_heard before member stepped)
    ⟨Or.inl rfl, Or.inl rfl⟩ taken reached
  obtain ⟨after, translated, rfl⟩ := run_translated (translate order inetAddr)
    (fun (s : DbHost) state => state = s.state)
    (fun s event next state same stepped => by
      subst same
      exact ⟨next.state, step_translated stepped, rfl⟩) rfl reached
  have consistent := run_invariant Consistent
    (fun _ _ _ before stepped => step_consistent before stepped)
    (initial_consistent tcpOff found) translated
  have off : begun.tcpMode = .off := (getVmStatusInfoDB_policy found).2.2.trans tcpOff
  have verdict := run_tcpMode translated
  simp only [State.initial, off] at verdict
  refine ⟨heard.2, backed.stored.1, ?_⟩
  rw [consistent.bypass, ← backed.stored.policy, ← consistent.policy, ← verdict]
  split
  · rename_i votes
    exact iff_of_true rfl votes
  · rename_i quiet
    refine iff_of_false ?_ quiet
    intro same
    cases same

/-- `CheckVmcStatus` stores the rows of a query that succeeds. -/
theorem query_stored {answer : Answer} {snapshot : VmSnapshot}
    (cloud : s.state.conf.cloudMode = 1) (idle : s.state.vmc = none)
    (selected : select order inetAddr answer = some (some snapshot)) :
    ∃ final, run (DbHost.step order inetAddr) s [.vmcQuery answer, .vmcCommit] = some final ∧
      final.stored = answer := by
  obtain ⟨call, made⟩ : ∃ call, checkVmcStatusQuery s.state.conf (some snapshot) = some call := by
    rw [checkVmcStatusQuery, if_pos cloud]
    exact ⟨_, rfl⟩
  simp only [run, DbHost.step, selected, Option.bind_some, HostBypass.step, idle, made,
    Option.map_some, Option.some_inj, exists_eq_left']

/-- The row of a VM that is up. -/
def activeRow : Row := { longName with displayName := some ⟨chars "web", by decide⟩ }

/-- The bypass is on for an empty cloud, and off once the row of a VM that is up is stored. -/
theorem run_database_activeRow :
    ∃ start final,
      DbHost.start .little (fun _ => 0) ⟨1, .unset, .off, .off, 0, fun _ => .zero⟩ ⟨0, []⟩ =
        some start ∧
      run (DbHost.step .little fun _ => 0) start [.vmcQuery ⟨0, [activeRow]⟩, .vmcCommit] =
        some final ∧
      final.state.conf.bpMode ≠ .on := by
  have none_ : Answer.Fits ⟨0, []⟩ := nofun
  have fits : Answer.Fits ⟨0, [activeRow]⟩ := by
    intro row member
    obtain rfl : row = activeRow := by simpa using member
    decide
  have quiet : ¬ Answer.Requests ⟨0, [activeRow]⟩ := by
    rintro (empty | ⟨row, member, asks⟩)
    · cases empty
    · obtain rfl : row = activeRow := by simpa using member
      exact absurd asks (by unfold AsksBypass; decide)
  obtain ⟨_, empty, ⟨failed, _⟩ | ⟨_, _, rfl, _⟩⟩ :
      ∃ query, select .little (fun _ => 0) ⟨0, []⟩ = some query ∧ _ := select_spec none_
  · exact absurd rfl failed
  obtain ⟨_, selected, ⟨failed, _⟩ | ⟨_, _, rfl, _⟩⟩ :
      ∃ query, select .little (fun _ => 0) ⟨0, [activeRow]⟩ = some query ∧ _ := select_spec fits
  · exact absurd rfl failed
  obtain ⟨start, started⟩ : ∃ start, DbHost.start .little (fun _ => 0)
      ⟨1, .unset, .off, .off, 0, fun _ => .zero⟩ ⟨0, []⟩ = some start := by
    rw [DbHost.start, empty]
    exact ⟨_, rfl⟩
  have idle : start.state.vmc = none := by
    rw [DbHost.start, empty] at started
    cases started
    rfl
  obtain ⟨final, reached, stored⟩ := query_stored (start_backed none_ started).cloud idle selected
  refine ⟨start, final, started, reached, fun on => ?_⟩
  have allFit : ∀ event ∈ [DbEvent.vmcQuery ⟨0, [activeRow]⟩, .vmcCommit], FitsEvent event := by
    intro event member
    rcases List.mem_pair.mp member with rfl | rfl
    · exact fits
    · trivial
  rcases (run_database rfl none_ started allFit reached).2.2.mp on with asks | hung
  · rw [stored] at asks
    exact quiet (asks rfl)
  · simp only [List.flatMap_cons, translate, selected] at hung
    exact absurd (show BypassMode.off = .on from hung) nofun

end Runs

end VnfMonitoring.HostDatabase
