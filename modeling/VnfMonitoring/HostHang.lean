import VnfMonitoring.HostSystem
import VnfMonitoring.HostTcpStatus

set_option autoImplicit false

/- Hang detection over runs: the link status of a system counts the calls of
`CheckTcpStatus` since its VM last reported, and stays at the threshold. -/
namespace VnfMonitoring.HostHang

open VnfMonitoring.Bpapp VnfMonitoring.HostSock VnfMonitoring.HostBypass
  VnfMonitoring.HostReport VnfMonitoring.HostSystem VnfMonitoring.HostTcpStatus
  VnfMonitoring.Runs

/-- What the calls work on. `calls` records, for every system, the calls that have listed
its VM since the entry was made or a report of the VM was processed. -/
structure Checks where
  tables : HostTables
  conf : HostConf
  calls : Slot → Nat

def Checks.init (conf : HostConf) : Checks := ⟨HostTables.init, conf, fun _ => 0⟩

/-- The VMs of the snapshot have distinct addresses, none of them 0. -/
def SnapshotOk (conf : HostConf) : Prop :=
  conf.vmCount ≤ maxSystemNum ∧
    (∀ i : Slot, i.val < conf.vmCount → (conf.vmcStatus i).vmIpaddr ≠ 0) ∧
    ∀ i k : Slot, i.val < conf.vmCount → k.val < conf.vmCount →
      (conf.vmcStatus i).vmIpaddr = (conf.vmcStatus k).vmIpaddr → i = k

instance (conf : HostConf) : Decidable (SnapshotOk conf) :=
  inferInstanceAs (Decidable (_ ∧ _ ∧ _))

/-- A VM of the snapshot has the address. -/
def Listed (conf : HostConf) (systemaddr : UInt32) : Prop :=
  ∃ i : Slot, i.val < conf.vmCount ∧ (conf.vmcStatus i).vmIpaddr = systemaddr

instance (conf : HostConf) (systemaddr : UInt32) : Decidable (Listed conf systemaddr) :=
  inferInstanceAs (Decidable (∃ _ : Slot, _ ∧ _))

/-- The address may be given to the entry: the entry has none, and no other has this one. -/
def AppearOk (t : HostTables) (i : Slot) (systemaddr : UInt32) : Prop :=
  systemaddr ≠ 0 ∧ (t.vmcSystem i).systemaddr = 0 ∧ ∀ j, (t.vmcSystem j).systemaddr ≠ systemaddr

instance (t : HostTables) (i : Slot) (systemaddr : UInt32) : Decidable (AppearOk t i systemaddr) :=
  inferInstanceAs (Decidable (_ ∧ _ ∧ _))

inductive HangEvent where
  /-- `CheckTcpStatus`. A copy outside its arrays may leave any states behind. -/
  | check (left : Slot → VmcStateinfo)
  /-- `SendVmProcStateRsp` up to its section, for a slot with an address. -/
  | report (alistIdx : Slot)
  /-- The registration of a slot. -/
  | appear (i : Slot) (systemaddr : UInt32)
  /-- The end of a disconnection branch. -/
  | zeroed (i : Slot)
  /-- `CheckVmcStatus`. -/
  | snapshot (query : Option VmSnapshot)
  /-- The other threads accept, lose and report on connections. -/
  | others (alist : Slot → AcceptList) (stateinfo : Slot → VmcStateinfo)

def checkStep (checkTcpstatusMin : Int) (s : Checks) (left : Slot → VmcStateinfo) : Checks :=
  let checked := checkTcpStatus checkTcpstatusMin s.conf s.tables.vmcSystem s.tables.stateinfo
  { tables :=
      { s.tables with
        vmcSystem := checked.2.vmcSystem
        stateinfo := checked.2.stateinfo.getD left }
    conf := checked.1
    calls := fun j =>
      if Listed s.conf (s.tables.vmcSystem j).systemaddr then s.calls j + 1 else s.calls j }

def reportStep (s : Checks) (alistIdx : Slot) : Checks :=
  { s with
    tables :=
      match resetLinkStatus s.tables alistIdx with
      | some (_, tables) => tables
      | none => s.tables
    calls := fun j =>
      if (s.tables.vmcSystem j).systemaddr = (s.tables.alist alistIdx).sysinfo.systemaddr then 0
      else s.calls j }

/-- The configuration after `CheckVmcStatus`, which returns early when its query fails. -/
def checkVmcStatus (conf : HostConf) (query : Option VmSnapshot) : HostConf :=
  match checkVmcStatusQuery conf query with
  | some call => checkVmcStatusCommit conf call
  | none => conf

def step (checkTcpstatusMin : Int) (s : Checks) : HangEvent → Option Checks
  | .check left => some (checkStep checkTcpstatusMin s left)
  | .report alistIdx =>
      if (s.tables.alist alistIdx).sysinfo.systemaddr ≠ 0 then some (reportStep s alistIdx)
      else none
  | .appear i systemaddr =>
      if AppearOk s.tables i systemaddr then
        some { s with
          tables := registerAs s.tables i systemaddr, calls := Function.update s.calls i 0 }
      else none
  | .zeroed i =>
      some { s with tables := clearSystem s.tables i, calls := Function.update s.calls i 0 }
  | .snapshot query =>
      if SnapshotOk (checkVmcStatus s.conf query) then
        some { s with conf := checkVmcStatus s.conf query }
      else none
  | .others alist stateinfo => some { s with tables := { s.tables with alist, stateinfo } }

/-- The link status of every system is the number of calls, up to the threshold. -/
structure CountInv (checkTcpstatusMin : Int) (s : Checks) : Prop where
  snapshot : SnapshotOk s.conf
  distinct : ∀ i j, (s.tables.vmcSystem i).systemaddr ≠ 0 →
    (s.tables.vmcSystem i).systemaddr = (s.tables.vmcSystem j).systemaddr → i = j
  count : ∀ j, (s.tables.vmcSystem j).systemaddr ≠ 0 →
    ((s.tables.vmcSystem j).linkStatus.toNat : Int) = min checkTcpstatusMin (s.calls j)
  empty : ∀ j, (s.tables.vmcSystem j).systemaddr = 0 → (s.tables.vmcSystem j).linkStatus = 0

theorem init_countInv {checkTcpstatusMin : Int} {conf : HostConf} (listed : SnapshotOk conf) :
    CountInv checkTcpstatusMin (Checks.init conf) where
  snapshot := listed
  distinct := fun _ _ present => absurd rfl present
  count := fun _ present => absurd rfl present
  empty := fun _ _ => rfl

section Check

variable {checkTcpstatusMin : Int} {s : Checks}

theorem countP_listedSlots {p : Slot → Bool} {n : Nat} (inside : n ≤ maxSystemNum)
    (unique : ∀ i k : Slot, i.val < n → k.val < n → p i = true → p k = true → i = k) :
    (listedSlots n).countP p = if ∃ i : Slot, i.val < n ∧ p i = true then 1 else 0 := by
  induction n with
  | zero =>
      rw [if_neg fun ⟨i, low, _⟩ => absurd low (Nat.not_lt_zero _)]
      rfl
  | succ n ih =>
      have before := ih (Nat.le_of_lt inside) fun i k low also =>
        unique i k (Nat.lt_succ_of_lt low) (Nat.lt_succ_of_lt also)
      rw [listedSlots_succ ⟨n, inside⟩, List.countP_append, before, List.countP_singleton]
      cases here : p ⟨n, inside⟩ with
      | false =>
          rw [if_neg Bool.false_ne_true, Nat.add_zero]
          refine if_congr (exists_congr fun i => ⟨fun ⟨low, holds⟩ =>
            ⟨Nat.lt_succ_of_lt low, holds⟩, fun ⟨low, holds⟩ => ⟨?_, holds⟩⟩) rfl rfl
          by_contra last
          have same : i = ⟨n, inside⟩ := Fin.ext (show i.val = n by omega)
          rw [same, here] at holds
          cases holds
      | true =>
          have alone : ¬ ∃ i : Slot, i.val < n ∧ p i = true := by
            rintro ⟨i, low, holds⟩
            have same :=
              unique i ⟨n, inside⟩ (Nat.lt_succ_of_lt low) (Nat.lt_succ_self n) holds here
            rw [same] at low
            exact Nat.lt_irrefl n low
          rw [if_neg alone, if_pos rfl, if_pos ⟨⟨n, inside⟩, Nat.lt_succ_self n, here⟩]

/-- With distinct addresses, the system found is the one of the address. -/
theorem CountInv.findSystem (inv : CountInv checkTcpstatusMin s) (vmIpaddr : UInt32) (j : Slot) :
    findSystem s.tables.vmcSystem vmIpaddr = some j ↔
      (s.tables.vmcSystem j).systemaddr ≠ 0 ∧ vmIpaddr = (s.tables.vmcSystem j).systemaddr := by
  refine ⟨findSystem_eq_some, fun ⟨present, same⟩ => ?_⟩
  cases found : HostTcpStatus.findSystem s.tables.vmcSystem vmIpaddr with
  | none =>
      have absent := Fin.find?_eq_none_iff.mp found j
      simp only [decide_eq_false_iff_not] at absent
      exact absurd ⟨present, same⟩ absent
  | some k =>
      obtain ⟨other, also⟩ := findSystem_eq_some found
      rw [inv.distinct k j other (also.symm.trans same)]

/-- A listed VM with a system is found hung when as many calls as the threshold have been
counted. -/
theorem CountInv.foundHung (inv : CountInv checkTcpstatusMin s)
    (inRange : checkTcpstatusMin ≤ 65535) {i : Slot} (low : i.val < s.conf.vmCount) :
    FoundHung checkTcpstatusMin s.conf.vmcStatus s.tables.vmcSystem i ↔
      ∃ j, (s.tables.vmcSystem j).systemaddr = (s.conf.vmcStatus i).vmIpaddr ∧
        checkTcpstatusMin ≤ s.calls j := by
  obtain ⟨_, nonzero, unique⟩ := inv.snapshot
  have alone : countedBefore s.conf.vmcStatus i = 0 := by
    refine List.countP_eq_zero.mpr fun k member same => ?_
    have before : k.val < i.val := mem_listedSlots.mp member
    have equal := unique k i (by omega) low (of_decide_eq_true same)
    rw [equal] at before
    exact Nat.lt_irrefl _ before
  unfold FoundHung
  rw [alone]
  refine exists_congr fun j => ?_
  rw [inv.findSystem]
  constructor
  · rintro ⟨⟨present, same⟩, _, reached⟩
    have count := inv.count j present
    exact ⟨same.symm, by omega⟩
  · rintro ⟨same, reached⟩
    have present : (s.tables.vmcSystem j).systemaddr ≠ 0 := same ▸ nonzero i low
    have count := inv.count j present
    exact ⟨⟨present, same.symm⟩, inRange, by omega⟩

theorem checkStep_calls (left : Slot → VmcStateinfo) (j : Slot) :
    (checkStep checkTcpstatusMin s left).calls j =
      if Listed s.conf (s.tables.vmcSystem j).systemaddr then s.calls j + 1 else s.calls j := by
  simp only [checkStep]

/-- A call finds the system of an address once if the address is listed. -/
theorem CountInv.countP_findSystem (inv : CountInv checkTcpstatusMin s) (j : Slot) :
    (listedSlots s.conf.vmCount).countP (fun i =>
        HostTcpStatus.findSystem s.tables.vmcSystem (s.conf.vmcStatus i).vmIpaddr = some j) =
      if Listed s.conf (s.tables.vmcSystem j).systemaddr then 1 else 0 := by
  obtain ⟨bounded, nonzero, unique⟩ := inv.snapshot
  have found (i : Slot) : decide (HostTcpStatus.findSystem s.tables.vmcSystem
      (s.conf.vmcStatus i).vmIpaddr = some j) = true ↔
        (s.tables.vmcSystem j).systemaddr ≠ 0 ∧
          (s.conf.vmcStatus i).vmIpaddr = (s.tables.vmcSystem j).systemaddr := by
    rw [decide_eq_true_eq, inv.findSystem]
  rw [countP_listedSlots bounded]
  · refine if_congr (exists_congr fun i => and_congr_right fun low => ?_) rfl rfl
    rw [found]
    exact ⟨fun ⟨_, same⟩ => same, fun same => ⟨same ▸ nonzero i low, same⟩⟩
  · intro i k low also first second
    exact unique i k low also
      (((found i).mp first).2.trans ((found k).mp second).2.symm)

/-- A call adds one to the count of every listed system, until the threshold. -/
theorem checkStep_vmcSystem (inv : CountInv checkTcpstatusMin s) (left : Slot → VmcStateinfo)
    (j : Slot) :
    (checkStep checkTcpstatusMin s left).tables.vmcSystem j =
      if Listed s.conf (s.tables.vmcSystem j).systemaddr then
        { s.tables.vmcSystem j with
          linkStatus := countUp checkTcpstatusMin (s.tables.vmcSystem j).linkStatus }
      else s.tables.vmcSystem j := by
  unfold checkStep
  rw [checkTcpStatus_eq]
  simp only
  rw [checkedTo_vmcSystem, inv.countP_findSystem]
  split <;> rfl

theorem SnapshotOk.commit {conf : HostConf} (listed : SnapshotOk conf) (bpmode : BypassMode) :
    SnapshotOk (checkTcpStatusCommit conf bpmode) := by
  unfold checkTcpStatusCommit
  split
  · split
    · exact listed
    · split <;> exact listed
  · exact listed

theorem checkStep_inv (inRange : checkTcpstatusMin ≤ 65535)
    (inv : CountInv checkTcpstatusMin s) (left : Slot → VmcStateinfo) :
    CountInv checkTcpstatusMin (checkStep checkTcpstatusMin s left) := by
  obtain ⟨_, nonzero, _⟩ := inv.snapshot
  have system := checkStep_vmcSystem inv left
  have addr (j : Slot) : ((checkStep checkTcpstatusMin s left).tables.vmcSystem j).systemaddr =
      (s.tables.vmcSystem j).systemaddr := by
    rw [system]
    split <;> rfl
  refine ⟨inv.snapshot.commit _, ?_, fun j present => ?_, fun j absent => ?_⟩
  · simpa only [addr] using inv.distinct
  · rw [addr] at present
    have count := inv.count j present
    rw [system, checkStep_calls]
    split
    · simp only
      rw [countUp_toNat inRange]
      split <;> omega
    · exact count
  · rw [addr] at absent
    have unlisted : ¬ Listed s.conf (s.tables.vmcSystem j).systemaddr := by
      rw [absent]
      exact fun ⟨i, low, zero⟩ => nonzero i low zero
    rw [system, if_neg unlisted]
    exact inv.empty j absent

/-- A report resets the system of its VM, and no other. -/
theorem reportStep_vmcSystem (inv : CountInv checkTcpstatusMin s) {alistIdx : Slot}
    (present : (s.tables.alist alistIdx).sysinfo.systemaddr ≠ 0) (j : Slot) :
    (reportStep s alistIdx).tables.vmcSystem j =
      if (s.tables.vmcSystem j).systemaddr = (s.tables.alist alistIdx).sysinfo.systemaddr then
        { s.tables.vmcSystem j with isCheck := 1, linkStatus := 0 }
      else s.tables.vmcSystem j := by
  unfold reportStep resetLinkStatus
  cases found : Fin.find? fun i : Slot => decide ((s.tables.vmcSystem i).systemaddr =
      (s.tables.alist alistIdx).sysinfo.systemaddr) with
  | none =>
      have absent := Fin.find?_eq_none_iff.mp found j
      exact (if_neg (of_decide_eq_false absent)).symm
  | some i =>
      have owned := of_decide_eq_true (Fin.find?_eq_some_iff.mp found).1
      simp only [Option.map_some, Function.update_apply]
      by_cases here : j = i
      · subst here
        rw [if_pos rfl, if_pos owned]
      · rw [if_neg here, if_neg]
        intro same
        rw [← owned] at same
        exact here (inv.distinct j i (same ▸ owned ▸ present) same)

theorem reportStep_inv (nonneg : 0 ≤ checkTcpstatusMin) (inv : CountInv checkTcpstatusMin s)
    {alistIdx : Slot} (present : (s.tables.alist alistIdx).sysinfo.systemaddr ≠ 0) :
    CountInv checkTcpstatusMin (reportStep s alistIdx) := by
  have system := reportStep_vmcSystem inv present
  have addr (j : Slot) : ((reportStep s alistIdx).tables.vmcSystem j).systemaddr =
      (s.tables.vmcSystem j).systemaddr := by
    rw [system]
    split <;> rfl
  refine ⟨inv.snapshot, ?_, fun j known => ?_, fun j absent => ?_⟩
  · simpa only [addr] using inv.distinct
  · rw [addr] at known
    have calls : (reportStep s alistIdx).calls j =
        if (s.tables.vmcSystem j).systemaddr = (s.tables.alist alistIdx).sysinfo.systemaddr then 0
        else s.calls j := rfl
    rw [system, calls]
    split
    · exact (Int.min_eq_right nonneg).symm
    · exact inv.count j known
  · rw [addr] at absent
    rw [system, if_neg fun same => present (same.symm.trans absent)]
    exact inv.empty j absent

/-- An entry given an address, or zeroed, starts with no calls counted. -/
theorem update_inv (nonneg : 0 ≤ checkTcpstatusMin) (inv : CountInv checkTcpstatusMin s)
    (i : Slot) (system : VmcSystem) (fresh : system.linkStatus = 0)
    (other : system.systemaddr ≠ 0 → ∀ j, (s.tables.vmcSystem j).systemaddr ≠ system.systemaddr)
    (alist : Slot → AcceptList) :
    CountInv checkTcpstatusMin
      { s with
        tables :=
          { s.tables with alist, vmcSystem := Function.update s.tables.vmcSystem i system }
        calls := Function.update s.calls i 0 } := by
  refine ⟨inv.snapshot, fun j k => ?_, fun j => ?_, fun j => ?_⟩
  · simp only [Function.update_apply]
    by_cases first : j = i <;> by_cases second : k = i
    · exact fun _ _ => first.trans second.symm
    · rw [if_pos first, if_neg second]
      exact fun present same => absurd same.symm (other present k)
    · rw [if_neg first, if_pos second]
      intro present same
      exact absurd same (other (same ▸ present) j)
    · rw [if_neg first, if_neg second]
      exact inv.distinct j k
  · simp only [Function.update_apply]
    split
    · rw [fresh]
      exact fun _ => (Int.min_eq_right nonneg).symm
    · exact inv.count j
  · simp only [Function.update_apply]
    split
    · exact fun _ => fresh
    · exact inv.empty j

end Check

section Step

variable {checkTcpstatusMin : Int} {s next : Checks}

theorem step_inv (nonneg : 0 ≤ checkTcpstatusMin) (inRange : checkTcpstatusMin ≤ 65535)
    {event : HangEvent} (inv : CountInv checkTcpstatusMin s)
    (stepped : step checkTcpstatusMin s event = some next) : CountInv checkTcpstatusMin next := by
  cases event with
  | check left =>
      cases stepped
      exact checkStep_inv inRange inv left
  | report alistIdx =>
      obtain ⟨present, same⟩ := Option.ite_none_right_eq_some.mp stepped
      cases same
      exact reportStep_inv nonneg inv present
  | appear i systemaddr =>
      obtain ⟨⟨_, empty, other⟩, same⟩ := Option.ite_none_right_eq_some.mp stepped
      cases same
      exact update_inv nonneg inv i
        { s.tables.vmcSystem i with systemaddr, systemport := (s.tables.alist i).sysinfo.port }
        (inv.empty i empty) (fun _ => other) _
  | zeroed i =>
      cases stepped
      exact update_inv nonneg inv i .zero rfl (fun present => absurd rfl present) _
  | snapshot query =>
      obtain ⟨listed, same⟩ := Option.ite_none_right_eq_some.mp stepped
      cases same
      exact ⟨listed, inv.distinct, inv.count, inv.empty⟩
  | others alist stateinfo =>
      cases stepped
      exact ⟨inv.snapshot, inv.distinct, inv.count, inv.empty⟩

end Step

/-- In every run, a call turns the mode on exactly when more calls than the threshold, this
one included, have listed some VM since its entry was made or its last report, and a
report touches the count of its own VM only. -/
theorem run_hang {checkTcpstatusMin : Int} (nonneg : 0 ≤ checkTcpstatusMin)
    (inRange : checkTcpstatusMin ≤ 65535) {conf : HostConf} (listed : SnapshotOk conf)
    {events : List HangEvent} {s : Checks}
    (reached : run (step checkTcpstatusMin) (Checks.init conf) events = some s) :
    (∀ left next, step checkTcpstatusMin s (.check left) = some next →
      (next.conf.tcpMode = .on ↔ ∃ i j : Slot, i.val < s.conf.vmCount ∧
        (s.tables.vmcSystem j).systemaddr = (s.conf.vmcStatus i).vmIpaddr ∧
          checkTcpstatusMin < next.calls j)) ∧
    ∀ alistIdx next, step checkTcpstatusMin s (.report alistIdx) = some next →
      ∀ j, (s.tables.vmcSystem j).systemaddr ≠ (s.tables.alist alistIdx).sysinfo.systemaddr →
        next.tables.vmcSystem j = s.tables.vmcSystem j := by
  have inv : CountInv checkTcpstatusMin s :=
    run_invariant (CountInv checkTcpstatusMin)
      (fun _ _ _ inv stepped => step_inv nonneg inRange inv stepped) (init_countInv listed) reached
  refine ⟨fun left next stepped => ?_, fun alistIdx next stepped j other => ?_⟩
  · cases stepped
    rw [show (checkStep checkTcpstatusMin s left).conf =
      (checkTcpStatus checkTcpstatusMin s.conf s.tables.vmcSystem s.tables.stateinfo).1 from rfl,
      checkTcpStatus_tcpMode inv.snapshot.1]
    refine exists_congr fun i => ?_
    constructor
    · rintro ⟨low, hung⟩
      obtain ⟨j, same, reached⟩ := (inv.foundHung inRange low).mp hung
      have calls : (checkStep checkTcpstatusMin s left).calls j = s.calls j + 1 := by
        rw [checkStep_calls, if_pos ⟨i, low, same.symm⟩]
      exact ⟨j, low, same, by omega⟩
    · rintro ⟨j, low, same, reached⟩
      have calls : (checkStep checkTcpstatusMin s left).calls j = s.calls j + 1 := by
        rw [checkStep_calls, if_pos ⟨i, low, same.symm⟩]
      exact ⟨low, (inv.foundHung inRange low).mpr ⟨j, same, by omega⟩⟩
  · obtain ⟨present, same⟩ := Option.ite_none_right_eq_some.mp stepped
    cases same
    rw [reportStep_vmcSystem inv present, if_neg other]

/-- A VM that has been listed once and has not reported is hung at the second call. -/
theorem run_hang_second :
    ∃ (conf : HostConf) (s : Checks), SnapshotOk conf ∧
      run (step 1) (Checks.init conf)
        [.appear 0 0x0A000001, .check fun _ => baseStateinfo] = some s ∧
      ∀ left next, step 1 s (.check left) = some next → next.conf.tcpMode = .on := by
  let conf : HostConf :=
    ⟨1, .off, .off, .off, 1, fun _ => { VmcStatus.zero with vmIpaddr := 0x0A000001 }⟩
  have listed : SnapshotOk conf := by
    refine ⟨by decide, fun i _ => ?_, fun i k low also _ => ?_⟩
    · exact (show (0x0A000001 : UInt32) ≠ 0 by decide)
    · change i.val < 1 at low
      change k.val < 1 at also
      exact Fin.ext (by omega)
  obtain ⟨s, reached, one, same, counted⟩ : ∃ s, run (step 1) (Checks.init conf)
      [.appear 0 0x0A000001, .check fun _ => baseStateinfo] = some s ∧ s.conf.vmCount = 1 ∧
        (s.tables.vmcSystem 0).systemaddr = (s.conf.vmcStatus 0).vmIpaddr ∧ s.calls 0 = 1 :=
    exists_of_any (by decide +kernel)
  refine ⟨conf, s, listed, reached, fun left next stepped => ?_⟩
  refine ((run_hang (by decide) (by decide) listed reached).1 left next stepped).mpr ⟨0, 0, ?_⟩
  cases stepped
  rw [checkStep_calls, same, if_pos ⟨0, by rw [one]; decide, rfl⟩, counted, one]
  exact ⟨by decide, rfl, by decide⟩

end VnfMonitoring.HostHang
