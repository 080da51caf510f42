import VnfMonitoring.Bpapp
import VnfMonitoring.Lib.Runs

set_option autoImplicit false

/- The host's bypass decision: `GetVmStatusInfoDB` sets it at start-up, then the
threads of `CheckVmcStatus` and `CheckTcpStatus` share it under `BypassMutex`. -/
namespace VnfMonitoring.HostBypass

open VnfMonitoring.Bpapp VnfMonitoring.Runs

/-- `BYPASS_MODE_ON`, `BYPASS_MODE_OFF`, and the zero of a cleared `hostConf`. -/
inductive BypassMode where
  | unset
  | on
  | off
  deriving DecidableEq, Repr

/-- The array `SelectAllVMStatus` fills and the number of rows it returns. -/
structure VmSnapshot where
  vmcount : Nat
  vm : Fin maxSystemNum → VmcStatus
  bounded : vmcount ≤ maxSystemNum

/-- The fields of `hostConf` that take part in the decision. -/
structure HostConf where
  cloudMode : Int
  bpMode : BypassMode
  vmcMode : BypassMode
  tcpMode : BypassMode
  vmCount : Nat
  vmcStatus : Fin maxSystemNum → VmcStatus

/-- The first `vmcount` records of an array. -/
def listedVms (vmcount : Nat) (vm : Fin maxSystemNum → VmcStatus) : List VmcStatus :=
  (List.ofFn vm).take vmcount

def HostConf.storedVms (conf : HostConf) : List VmcStatus :=
  listedVms conf.vmCount conf.vmcStatus

/-- What one VM of the list makes of the mode found so far. -/
def vmBypassMode (bpmode : BypassMode) (vm : VmcStatus) : BypassMode :=
  if (vm.vmStatus ≠ statusActive ∧ vm.vmStatus ≠ statusBuild) ∨
      (vm.vmPowerStatus ≠ pwStatusRunning ∧ vm.vmPowerStatus ≠ pwStatusNostatus) then
    if vm.vmPowerStatus ≠ pwStatusShutdown then .on else bpmode
  else bpmode

/-- `GetVmStatusInfoDB`: the query writes into `hostConf.vmc_status` itself. The
result is absent when the function returns -1. -/
def getVmStatusInfoDB (conf : HostConf) (query : Option VmSnapshot) : Option HostConf :=
  let selected :=
    if conf.cloudMode = 1 then query.map fun rows => (rows.vmcount, rows.vm)
    else some (0, conf.vmcStatus)
  selected.map fun (vmcount, vmcStatus) =>
    let bpmode := if vmcount = 0 then BypassMode.on else .off
    let bpmode := (listedVms vmcount vmcStatus).foldl vmBypassMode bpmode
    let conf := { conf with vmcStatus }
    let conf := if bpmode = .on then { conf with bpMode := .on } else { conf with bpMode := .off }
    { conf with vmcMode := bpmode, vmCount := vmcount }

/-- A call of `CheckVmcStatus` that has yet to take the lock. -/
structure VmcCall where
  vmcount : Nat
  vm : Fin maxSystemNum → VmcStatus
  bpmode : BypassMode

/-- `CheckVmcStatus` up to the lock, absent when it returns -1. Its `s_flag`
only guards a debug listing. -/
def checkVmcStatusQuery (conf : HostConf) (query : Option VmSnapshot) : Option VmcCall :=
  let selected :=
    if conf.cloudMode = 1 then query.map fun rows => (rows.vmcount, rows.vm)
    else some (0, fun _ => VmcStatus.zero)
  selected.map fun (vmcount, vm) =>
    let bpmode :=
      if vmcount = 0 then BypassMode.on else (listedVms vmcount vm).foldl vmBypassMode .off
    { vmcount, vm, bpmode }

/-- `CheckVmcStatus` under the lock. -/
def checkVmcStatusCommit (conf : HostConf) (call : VmcCall) : HostConf :=
  let conf := { conf with vmcStatus := call.vm, vmCount := call.vmcount }
  let conf :=
    if call.bpmode ≠ conf.bpMode then
      if call.bpmode = .on then { conf with bpMode := call.bpmode }
      else if conf.tcpMode = .off then { conf with bpMode := call.bpmode }
      else conf
    else conf
  { conf with vmcMode := call.bpmode }

/-- The snapshot `CheckTcpStatus` copies under the lock before it looks for hung VMs. -/
structure TcpCall where
  vmcount : Nat
  vstatus : Fin maxSystemNum → VmcStatus

/-- The locked end of `CheckTcpStatus`. -/
def checkTcpStatusCommit (conf : HostConf) (bpmode : BypassMode) : HostConf :=
  let conf :=
    if bpmode ≠ conf.bpMode then
      if bpmode = .on then { conf with bpMode := bpmode }
      else if conf.vmcMode = .off then { conf with bpMode := bpmode }
      else conf
    else conf
  { conf with tcpMode := bpmode }

/-- The two threads between their sections. -/
structure State where
  conf : HostConf
  vmc : Option VmcCall
  tcp : Option TcpCall

inductive Event where
  | vmcQuery (query : Option VmSnapshot)
  | vmcCommit
  | tcpCopy
  | tcpCommit (hung : Bool)

def tcpVerdict (hung : Bool) : BypassMode := if hung then .on else .off

def step (state : State) : Event → Option State
  | .vmcQuery query =>
      match state.vmc with
      | none => some { state with vmc := checkVmcStatusQuery state.conf query }
      | some _ => none
  | .vmcCommit =>
      state.vmc.map fun call =>
        { state with conf := checkVmcStatusCommit state.conf call, vmc := none }
  | .tcpCopy =>
      match state.tcp with
      | none => some { state with tcp := some ⟨state.conf.vmCount, state.conf.vmcStatus⟩ }
      | some _ => none
  | .tcpCommit hung =>
      state.tcp.map fun _ =>
        { state with conf := checkTcpStatusCommit state.conf (tcpVerdict hung), tcp := none }

def State.initial (conf : HostConf) : State := ⟨conf, none, none⟩

/-- A VM that asks for the bypass: not shut down, and not a normal VM either. -/
def RequestsBypass (vm : VmcStatus) : Prop :=
  vm.vmPowerStatus ≠ pwStatusShutdown ∧
    ¬ ((vm.vmStatus = statusActive ∨ vm.vmStatus = statusBuild) ∧
      (vm.vmPowerStatus = pwStatusRunning ∨ vm.vmPowerStatus = pwStatusNostatus))

instance (vm : VmcStatus) : Decidable (RequestsBypass vm) :=
  inferInstanceAs (Decidable (_ ∧ _))

/-- The policy both paths are meant to apply to a list of VMs. -/
def bypassPolicy (vms : List VmcStatus) : BypassMode :=
  if vms = [] ∨ ∃ vm ∈ vms, RequestsBypass vm then .on else .off

def recordVerdict (before : BypassMode) : Event → BypassMode
  | .tcpCommit hung => tcpVerdict hung
  | _ => before

/-- The result of the last `CheckTcpStatus` that a run completes. -/
def lastTcpVerdict (before : BypassMode) (events : List Event) : BypassMode :=
  events.foldl recordVerdict before

theorem vmBypassMode_eq (bpmode : BypassMode) (vm : VmcStatus) :
    vmBypassMode bpmode vm = if RequestsBypass vm then .on else bpmode := by
  unfold vmBypassMode
  by_cases request : RequestsBypass vm
  · obtain ⟨running, abnormal⟩ := request
    rw [if_pos (by tauto), if_pos running, if_pos ⟨running, abnormal⟩]
  · rw [if_neg request]
    split
    · rename_i abnormal
      rw [if_neg fun running => request ⟨running, by tauto⟩]
    · rfl

theorem foldl_vmBypassMode (bpmode : BypassMode) (vms : List VmcStatus) :
    vms.foldl vmBypassMode bpmode =
      if ∃ vm ∈ vms, RequestsBypass vm then .on else bpmode := by
  induction vms generalizing bpmode with
  | nil => simp
  | cons vm rest ih =>
      rw [List.foldl_cons, ih, vmBypassMode_eq]
      by_cases requests : RequestsBypass vm <;> simp [requests]

theorem listedVms_eq_nil (vmcount : Nat) (vm : Fin maxSystemNum → VmcStatus) :
    listedVms vmcount vm = [] ↔ vmcount = 0 := by
  have nonempty : List.ofFn vm ≠ [] :=
    List.ne_nil_of_length_pos (by rw [List.length_ofFn]; decide)
  simp only [listedVms, List.take_eq_nil_iff, nonempty, or_false]

/-- Start-up applies the policy, its loop running even over an empty list. -/
theorem getVmStatusInfoDB_policy {conf start : HostConf} {query : Option VmSnapshot}
    (success : getVmStatusInfoDB conf query = some start) :
    start.vmcMode = bypassPolicy start.storedVms ∧ start.bpMode = start.vmcMode ∧
      start.tcpMode = conf.tcpMode := by
  obtain ⟨⟨vmcount, vmcStatus⟩, _, rfl⟩ := Option.map_eq_some_iff.mp success
  have mode : (listedVms vmcount vmcStatus).foldl vmBypassMode
      (if vmcount = 0 then .on else .off) = bypassPolicy (listedVms vmcount vmcStatus) := by
    simp only [foldl_vmBypassMode, bypassPolicy, listedVms_eq_nil]
    split <;> split <;> simp_all
  have decided : bypassPolicy (listedVms vmcount vmcStatus) = .on ∨
      bypassPolicy (listedVms vmcount vmcStatus) = .off := by
    unfold bypassPolicy
    split <;> simp
  simp only [mode]
  rcases decided with on | off
  · simp [on, HostConf.storedVms]
  · simp [off, HostConf.storedVms]

/-- `CheckVmcStatus` applies the same policy to the rows it is about to store. -/
theorem checkVmcStatusQuery_policy {conf : HostConf} {query : Option VmSnapshot}
    {call : VmcCall} (success : checkVmcStatusQuery conf query = some call) :
    call.bpmode = bypassPolicy (listedVms call.vmcount call.vm) := by
  obtain ⟨⟨vmcount, vm⟩, _, rfl⟩ := Option.map_eq_some_iff.mp success
  simp only [foldl_vmBypassMode, bypassPolicy, listedVms_eq_nil]
  split <;> simp_all

/-- What holds between the sections: the shared mode is the disjunction of the two
votes, and the pending call of `CheckVmcStatus` carries the policy of its rows. -/
structure Consistent (state : State) : Prop where
  bypass : state.conf.bpMode =
    if state.conf.vmcMode = .on ∨ state.conf.tcpMode = .on then .on else .off
  policy : state.conf.vmcMode = bypassPolicy state.conf.storedVms
  verdict : state.conf.tcpMode = .on ∨ state.conf.tcpMode = .off
  pending : ∀ call ∈ state.vmc, call.bpmode = bypassPolicy (listedVms call.vmcount call.vm)

theorem bypassPolicy_cases (vms : List VmcStatus) :
    bypassPolicy vms = .on ∨ bypassPolicy vms = .off := by
  unfold bypassPolicy
  split <;> simp

theorem checkVmcStatusCommit_bypass {conf : HostConf} {call : VmcCall}
    (before : conf.bpMode = if conf.vmcMode = .on ∨ conf.tcpMode = .on then .on else .off)
    (verdict : conf.tcpMode = .on ∨ conf.tcpMode = .off)
    (vote : call.bpmode = .on ∨ call.bpmode = .off) :
    (checkVmcStatusCommit conf call).bpMode =
        (if call.bpmode = .on ∨ conf.tcpMode = .on then .on else .off) ∧
      (checkVmcStatusCommit conf call).tcpMode = conf.tcpMode := by
  unfold checkVmcStatusCommit
  rcases verdict with tcp | tcp <;> rcases vote with vmc | vmc <;>
    cases mode : conf.vmcMode <;> simp_all

theorem checkVmcStatusCommit_stores (conf : HostConf) (call : VmcCall) :
    (checkVmcStatusCommit conf call).vmcMode = call.bpmode ∧
      (checkVmcStatusCommit conf call).storedVms = listedVms call.vmcount call.vm := by
  refine ⟨rfl, ?_⟩
  simp only [checkVmcStatusCommit, HostConf.storedVms]
  split <;> [split <;> [rfl; split <;> rfl]; rfl]

theorem tcpVerdict_cases (hung : Bool) : tcpVerdict hung = .on ∨ tcpVerdict hung = .off := by
  cases hung <;> simp [tcpVerdict]

@[simp] theorem checkTcpStatusCommit_tcpMode (conf : HostConf) (bpmode : BypassMode) :
    (checkTcpStatusCommit conf bpmode).tcpMode = bpmode := rfl

theorem checkTcpStatusCommit_bypass {conf : HostConf} {bpmode : BypassMode}
    (before : conf.bpMode = if conf.vmcMode = .on ∨ conf.tcpMode = .on then .on else .off)
    (policy : conf.vmcMode = .on ∨ conf.vmcMode = .off)
    (vote : bpmode = .on ∨ bpmode = .off) :
    (checkTcpStatusCommit conf bpmode).bpMode =
        (if conf.vmcMode = .on ∨ bpmode = .on then .on else .off) ∧
      (checkTcpStatusCommit conf bpmode).vmcMode = conf.vmcMode ∧
      (checkTcpStatusCommit conf bpmode).storedVms = conf.storedVms := by
  unfold checkTcpStatusCommit HostConf.storedVms
  rcases policy with vmc | vmc <;> rcases vote with tcp | tcp <;>
    cases mode : conf.tcpMode <;> simp_all

theorem step_consistent {state next : State} {event : Event} (before : Consistent state)
    (stepped : step state event = some next) : Consistent next := by
  cases event with
  | vmcQuery query =>
      simp only [step] at stepped
      split at stepped
      · cases stepped
        exact { before with pending := fun call made => checkVmcStatusQuery_policy made }
      · cases stepped
  | vmcCommit =>
      obtain ⟨call, made, rfl⟩ := Option.map_eq_some_iff.mp stepped
      have vote := before.pending call made
      obtain ⟨bypass, verdict⟩ := checkVmcStatusCommit_bypass before.bypass before.verdict
        (vote ▸ bypassPolicy_cases _)
      obtain ⟨mode, rows⟩ := checkVmcStatusCommit_stores state.conf call
      exact
        { bypass := by simp only [bypass, mode, verdict]
          policy := by rw [mode, rows, vote]
          verdict := by simpa only [verdict] using before.verdict
          pending := fun call none => nomatch none }
  | tcpCopy =>
      simp only [step] at stepped
      split at stepped
      · cases stepped
        exact { before with }
      · cases stepped
  | tcpCommit hung =>
      obtain ⟨call, _, rfl⟩ := Option.map_eq_some_iff.mp stepped
      obtain ⟨bypass, vote, rows⟩ := checkTcpStatusCommit_bypass
        before.bypass (before.policy ▸ bypassPolicy_cases _) (tcpVerdict_cases hung)
      exact
        { bypass := by simp only [bypass, vote, checkTcpStatusCommit_tcpMode]
          policy := by rw [vote, rows, before.policy]
          verdict := tcpVerdict_cases hung
          pending := before.pending }

theorem vmcQuery_conf {state next : State} {query : Option VmSnapshot}
    (stepped : step state (.vmcQuery query) = some next) : next.conf = state.conf := by
  simp only [step] at stepped
  split at stepped <;> cases stepped
  rfl

/-- Only the locked end of `CheckTcpStatus` writes its vote. -/
theorem step_tcpMode {state next : State} {event : Event}
    (stepped : step state event = some next) :
    next.conf.tcpMode = recordVerdict state.conf.tcpMode event := by
  cases event with
  | vmcQuery query =>
      rw [vmcQuery_conf stepped]
      rfl
  | vmcCommit =>
      obtain ⟨call, _, rfl⟩ := Option.map_eq_some_iff.mp stepped
      simp only [checkVmcStatusCommit]
      split <;> [split <;> [rfl; split <;> rfl]; rfl]
  | tcpCopy =>
      simp only [step] at stepped
      split at stepped <;> cases stepped
      rfl
  | tcpCommit hung =>
      obtain ⟨call, _, rfl⟩ := Option.map_eq_some_iff.mp stepped
      rfl

theorem initial_consistent {conf start : HostConf} {query : Option VmSnapshot}
    (tcpOff : conf.tcpMode = .off) (started : getVmStatusInfoDB conf query = some start) :
    Consistent (State.initial start) := by
  obtain ⟨policy, same, tcp⟩ := getVmStatusInfoDB_policy started
  rw [tcpOff] at tcp
  refine ⟨?_, policy, Or.inr tcp, fun call none => nomatch none⟩
  simp only [State.initial, same, tcp, reduceCtorEq, or_false, policy]
  rcases bypassPolicy_cases start.storedVms with on | off
  · simp [on]
  · simp [off]

theorem run_tcpMode {state final : State} {events : List Event}
    (reached : run step state events = some final) :
    final.conf.tcpMode = lastTcpVerdict state.conf.tcpMode events := by
  induction events generalizing state with
  | nil =>
      cases reached
      rfl
  | cons event rest ih =>
      obtain ⟨next, stepped, remaining⟩ := run_cons_some reached
      rw [ih remaining, step_tcpMode stepped]
      rfl

/-- In every state of a run the bypass is on exactly when one of the two checks
votes for it, the database vote is the policy of the stored snapshot, the TCP
vote is the last verdict, and a failed `CheckVmcStatus` leaves no trace. -/
theorem run_bypassMode {conf start : HostConf} {query : Option VmSnapshot}
    (tcpOff : conf.tcpMode = .off) (started : getVmStatusInfoDB conf query = some start)
    {events : List Event} {final : State}
    (reached : run step (State.initial start) events = some final) :
    (final.conf.bpMode = .on ↔ final.conf.vmcMode = .on ∨ final.conf.tcpMode = .on) ∧
      final.conf.vmcMode = bypassPolicy final.conf.storedVms ∧
      final.conf.tcpMode = lastTcpVerdict .off events ∧
      ∀ failing next, checkVmcStatusQuery final.conf failing = none →
        step final (.vmcQuery failing) = some next → next.conf = final.conf := by
  have consistent := run_invariant Consistent
    (fun _ _ _ before stepped => step_consistent before stepped)
    (initial_consistent tcpOff started) reached
  refine ⟨?_, consistent.policy, ?_, ?_⟩
  · rw [consistent.bypass]
    split <;> simp_all
  · have initial : start.tcpMode = .off := (getVmStatusInfoDB_policy started).2.2.trans tcpOff
    simpa only [State.initial, initial] using run_tcpMode reached
  · intro failing next _ stepped
    exact vmcQuery_conf stepped

/-- A VM that is up, and one in these states. -/
def upAnd (vmStatus vmPowerStatus : UInt16) : VmSnapshot where
  vmcount := 2
  vm := fun i =>
    if i.val = 0 then
      { VmcStatus.zero with vmStatus := statusActive, vmPowerStatus := pwStatusRunning }
    else { VmcStatus.zero with vmStatus, vmPowerStatus }
  bounded := by decide

/-- A VM is paused while another is found hung, which is found up again later. -/
def pausedRun : List Event :=
  [.tcpCopy, .vmcQuery (some (upAnd statusPaused pwStatusRunning)), .tcpCommit true, .vmcCommit,
    .tcpCopy, .tcpCommit false]

theorem run_bypassMode_paused :
    ∃ start final,
      getVmStatusInfoDB ⟨1, .unset, .off, .off, 0, fun _ => .zero⟩
        (some (upAnd statusStopped pwStatusShutdown)) = some start ∧ start.bpMode = .off ∧
      run step (State.initial start) pausedRun = some final ∧ final.conf.storedVms.length = 2 ∧
      final.conf.bpMode = .on ∧ final.conf.tcpMode = .off := by
  obtain ⟨start, started, off⟩ : ∃ start,
      getVmStatusInfoDB ⟨1, .unset, .off, .off, 0, fun _ => .zero⟩
        (some (upAnd statusStopped pwStatusShutdown)) = some start ∧ start.bpMode = .off :=
    ⟨_, rfl, by decide⟩
  obtain ⟨final, reached, two, paused⟩ : ∃ final,
      run step (State.initial start) pausedRun = some final ∧
        final.conf.storedVms.length = 2 ∧ final.conf.vmcMode = .on := by
    cases started
    exact exists_of_any (by decide)
  obtain ⟨bypass, _, verdict, _⟩ := run_bypassMode rfl started reached
  exact ⟨start, final, started, off, reached, two, bypass.mpr (Or.inl paused), verdict⟩

end VnfMonitoring.HostBypass
