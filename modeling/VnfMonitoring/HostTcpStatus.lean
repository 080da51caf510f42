import Mathlib.Data.List.FinRange
import VnfMonitoring.HostBypass
import VnfMonitoring.HostSock

set_option autoImplicit false

/- `CheckTcpStatus`: the link status of every listed VM that has a system is counted up,
and a VM whose count has reached `CHECK_TCPSTATUS_MIN` is hung. -/
namespace VnfMonitoring.HostTcpStatus

open VnfMonitoring.Bpapp VnfMonitoring.HostSock VnfMonitoring.HostBypass

/-- What the loop works on: the table of the systems, the verdict, and the VMs' states,
absent once a copy has left its arrays. -/
structure TcpStatus where
  vmcSystem : Slot → VmcSystem
  bpmode : BypassMode
  stateinfo : Option (Slot → VmcStateinfo)

/-- The search of the systems, which skips the entries without an address. -/
def findSystem (vmcSystem : Slot → VmcSystem) (vmIpaddr : UInt32) : Option Slot :=
  Fin.find? fun j : Slot =>
    decide ((vmcSystem j).systemaddr ≠ 0 ∧ vmIpaddr = (vmcSystem j).systemaddr)

/-- The comparison of the link status, an `unsigned short`, with the `int` threshold. -/
def belowMin (checkTcpstatusMin : Int) (linkStatus : UInt16) : Bool :=
  (linkStatus.toNat : Int) < checkTcpstatusMin

/-- `memcpy(&pstate[i], &basePState[i], ...)` of `MAX_VM_PROC_NUM` elements: from and to
the index `i` of arrays of that many. -/
def copyBasePState (i : Nat) (entry : VmcStateinfo) : Option VmcStateinfo :=
  if i + maxVmProcNum ≤ maxVmProcNum then
    some { entry with pstate := fun k => if i ≤ k.val then basePState k else entry.pstate k }
  else none

/-- The search for a hung VM's state. The entry reset is that of the VM's index in the
snapshot, not the one found. -/
def resetHung (i : Slot) (vmIpaddr : UInt32) (stateinfo : Slot → VmcStateinfo) :
    Option (Slot → VmcStateinfo) :=
  match Fin.find? fun v : Slot => decide ((stateinfo v).vmIp = vmIpaddr) with
  | some _ => (copyBasePState i .zero).map fun entry => Function.update stateinfo i entry
  | none => some stateinfo

/-- One round of the loop over the snapshot. -/
def checkVm (checkTcpstatusMin : Int) (vstatus : Slot → VmcStatus) (s : TcpStatus) (i : Slot) :
    TcpStatus :=
  match findSystem s.vmcSystem (vstatus i).vmIpaddr with
  | some j =>
      let system := s.vmcSystem j
      if belowMin checkTcpstatusMin system.linkStatus then
        { s with
          vmcSystem := Function.update s.vmcSystem j
            { system with linkStatus := system.linkStatus + 1 } }
      else
        { s with
          bpmode := .on
          stateinfo := s.stateinfo.bind (resetHung i (vstatus i).vmIpaddr) }
  | none => s

/-- The indices of the loop over the snapshot. -/
def listedSlots (vmcount : Nat) : List Slot := (List.finRange maxSystemNum).take vmcount

/-- The loop of `CheckTcpStatus` over the snapshot it has copied. -/
def checkVms (checkTcpstatusMin : Int) (call : TcpCall) (vmcSystem : Slot → VmcSystem)
    (stateinfo : Slot → VmcStateinfo) : TcpStatus :=
  (listedSlots call.vmcount).foldl (checkVm checkTcpstatusMin call.vstatus)
    ⟨vmcSystem, .off, some stateinfo⟩

/-- `CheckTcpStatus` when no other thread runs in between. -/
def checkTcpStatus (checkTcpstatusMin : Int) (conf : HostConf) (vmcSystem : Slot → VmcSystem)
    (stateinfo : Slot → VmcStateinfo) : HostConf × TcpStatus :=
  let s := checkVms checkTcpstatusMin ⟨conf.vmCount, conf.vmcStatus⟩ vmcSystem stateinfo
  (checkTcpStatusCommit conf s.bpmode, s)

section LinkStatus

variable {checkTcpstatusMin : Int}

/-- What a round makes of a link status. -/
def countUp (checkTcpstatusMin : Int) (linkStatus : UInt16) : UInt16 :=
  if belowMin checkTcpstatusMin linkStatus then linkStatus + 1 else linkStatus

/-- Counted up to a threshold in its range, a link status does not wrap. -/
theorem countUp_toNat (inRange : checkTcpstatusMin ≤ 65535) (linkStatus : UInt16) :
    (countUp checkTcpstatusMin linkStatus).toNat =
      if (linkStatus.toNat : Int) < checkTcpstatusMin then linkStatus.toNat + 1
      else linkStatus.toNat := by
  by_cases below : (linkStatus.toNat : Int) < checkTcpstatusMin
  · rw [countUp, belowMin, decide_eq_true below, if_pos rfl, if_pos below]
    have room : linkStatus.toNat + 1 < 2 ^ 16 := by omega
    rw [UInt16.toNat_add, Nat.mod_eq_of_lt (by simpa using room)]
    rfl
  · rw [countUp, belowMin, decide_eq_false below, if_neg Bool.false_ne_true, if_neg below]

/-- The count stays at the threshold once there, and at a larger value it started from. -/
theorem iterate_countUp (inRange : checkTcpstatusMin ≤ 65535) (linkStatus : UInt16) (n : Nat) :
    (((countUp checkTcpstatusMin)^[n] linkStatus).toNat : Int) =
      max (linkStatus.toNat : Int) (min ((linkStatus.toNat : Int) + n) checkTcpstatusMin) := by
  induction n with
  | zero =>
      rw [Function.iterate_zero_apply]
      omega
  | succ n ih =>
      rw [Function.iterate_succ_apply', countUp_toNat inRange]
      split <;> omega

theorem findSystem_eq_some {vmcSystem : Slot → VmcSystem} {vmIpaddr : UInt32} {j : Slot}
    (found : findSystem vmcSystem vmIpaddr = some j) :
    (vmcSystem j).systemaddr ≠ 0 ∧ vmIpaddr = (vmcSystem j).systemaddr := by
  simpa using (Fin.find?_eq_some_iff.mp found).1

theorem findSystem_congr {vmcSystem other : Slot → VmcSystem}
    (same : ∀ j, (other j).systemaddr = (vmcSystem j).systemaddr) (vmIpaddr : UInt32) :
    findSystem other vmIpaddr = findSystem vmcSystem vmIpaddr := by
  unfold findSystem
  simp only [same]

variable (vstatus : Slot → VmcStatus)

theorem checkVm_missing {s : TcpStatus} {i : Slot}
    (found : findSystem s.vmcSystem (vstatus i).vmIpaddr = none) :
    checkVm checkTcpstatusMin vstatus s i = s := by
  unfold checkVm
  rw [found]

theorem checkVm_below {s : TcpStatus} {i j : Slot}
    (found : findSystem s.vmcSystem (vstatus i).vmIpaddr = some j)
    (below : belowMin checkTcpstatusMin (s.vmcSystem j).linkStatus = true) :
    checkVm checkTcpstatusMin vstatus s i =
      { s with
        vmcSystem := Function.update s.vmcSystem j
          { s.vmcSystem j with linkStatus := (s.vmcSystem j).linkStatus + 1 } } := by
  unfold checkVm
  rw [found]
  exact if_pos below

theorem checkVm_hung {s : TcpStatus} {i j : Slot}
    (found : findSystem s.vmcSystem (vstatus i).vmIpaddr = some j)
    (reached : ¬ belowMin checkTcpstatusMin (s.vmcSystem j).linkStatus = true) :
    checkVm checkTcpstatusMin vstatus s i =
      { s with
        bpmode := .on
        stateinfo := s.stateinfo.bind (resetHung i (vstatus i).vmIpaddr) } := by
  unfold checkVm
  rw [found]
  exact if_neg reached

/-- A round counts up the system it finds. -/
theorem checkVm_vmcSystem (s : TcpStatus) (i j : Slot) :
    (checkVm checkTcpstatusMin vstatus s i).vmcSystem j =
      if findSystem s.vmcSystem (vstatus i).vmIpaddr = some j then
        { s.vmcSystem j with
          linkStatus := countUp checkTcpstatusMin (s.vmcSystem j).linkStatus }
      else s.vmcSystem j := by
  cases found : findSystem s.vmcSystem (vstatus i).vmIpaddr with
  | none =>
      rw [checkVm_missing vstatus found]
      rfl
  | some other =>
      simp only [Option.some.injEq]
      by_cases below : belowMin checkTcpstatusMin (s.vmcSystem other).linkStatus = true
      · rw [checkVm_below vstatus found below]
        by_cases here : other = j
        · subst here
          rw [if_pos rfl, countUp, if_pos below]
          exact Function.update_self ..
        · rw [if_neg here]
          exact Function.update_of_ne (Ne.symm here) ..
      · rw [checkVm_hung vstatus found below]
        split
        · rename_i here
          subst here
          rw [countUp, if_neg below]
        · rfl

/-- The rounds count up a system once for every round that finds it. -/
theorem foldl_checkVm_vmcSystem (rounds : List Slot) (s : TcpStatus) (j : Slot) :
    (rounds.foldl (checkVm checkTcpstatusMin vstatus) s).vmcSystem j =
      { s.vmcSystem j with
        linkStatus := (countUp checkTcpstatusMin)^[rounds.countP fun i =>
          findSystem s.vmcSystem (vstatus i).vmIpaddr = some j] (s.vmcSystem j).linkStatus } := by
  induction rounds generalizing s with
  | nil => rfl
  | cons i rounds ih =>
      have addr (j : Slot) : ((checkVm checkTcpstatusMin vstatus s i).vmcSystem j).systemaddr =
          (s.vmcSystem j).systemaddr := by
        rw [checkVm_vmcSystem]
        split <;> rfl
      simp only [List.foldl_cons, ih, findSystem_congr addr, List.countP_cons, checkVm_vmcSystem]
      by_cases found : findSystem s.vmcSystem (vstatus i).vmIpaddr = some j
      · rw [if_pos found, decide_eq_true found, if_pos rfl, Function.iterate_succ_apply]
      · rw [if_neg found, decide_eq_false found, if_neg Bool.false_ne_true, Nat.add_zero]

end LinkStatus

section Hung

variable (checkTcpstatusMin : Int) (vstatus : Slot → VmcStatus) (vmcSystem : Slot → VmcSystem)

/-- The VMs before `i` in the snapshot that have the address of `i`: each has counted up
the same link status. -/
def countedBefore (i : Slot) : Nat :=
  (listedSlots i).countP fun k => (vstatus k).vmIpaddr = (vstatus i).vmIpaddr

/-- The VM has a system whose link status is at the threshold when its round comes. No
link status reaches a threshold outside its range. -/
def FoundHung (i : Slot) : Prop :=
  ∃ j, findSystem vmcSystem (vstatus i).vmIpaddr = some j ∧ checkTcpstatusMin ≤ 65535 ∧
    checkTcpstatusMin ≤ (vmcSystem j).linkStatus.toNat + countedBefore vstatus i

/-- The loop up to the VM `n` of the snapshot. -/
@[irreducible] def checkedTo (stateinfo : Slot → VmcStateinfo) (n : Nat) : TcpStatus :=
  checkVms checkTcpstatusMin ⟨n, vstatus⟩ vmcSystem stateinfo

variable {checkTcpstatusMin vstatus vmcSystem}

theorem mem_listedSlots {n : Nat} {i : Slot} : i ∈ listedSlots n ↔ i.val < n := by
  unfold listedSlots
  rw [List.mem_take_iff_idxOf_lt (List.mem_finRange i), List.idxOf_finRange]

theorem listedSlots_succ (i : Slot) : listedSlots (i.val + 1) = listedSlots i.val ++ [i] := by
  unfold listedSlots
  rw [List.take_add_one, List.getElem?_eq_getElem (by simp)]
  simp

theorem countedBefore_eq {i j : Slot}
    (found : findSystem vmcSystem (vstatus i).vmIpaddr = some j) :
    (listedSlots i).countP (fun k => findSystem vmcSystem (vstatus k).vmIpaddr = some j) =
      countedBefore vstatus i := by
  refine List.countP_congr fun k _ => ?_
  simp only [decide_eq_true_eq]
  constructor
  · intro also
    rw [(findSystem_eq_some also).2, (findSystem_eq_some found).2]
  · rintro same
    rw [same, found]

theorem checkedTo_vmcSystem (stateinfo : Slot → VmcStateinfo) (n : Nat) (j : Slot) :
    (checkedTo checkTcpstatusMin vstatus vmcSystem stateinfo n).vmcSystem j =
      { vmcSystem j with
        linkStatus := (countUp checkTcpstatusMin)^[(listedSlots n).countP fun i =>
          findSystem vmcSystem (vstatus i).vmIpaddr = some j] (vmcSystem j).linkStatus } := by
  unfold checkedTo
  exact foldl_checkVm_vmcSystem vstatus (listedSlots n) ⟨vmcSystem, .off, some stateinfo⟩ j

variable (checkTcpstatusMin) in
/-- Whether a round finds its VM hung, in terms of the table before the loop. -/
theorem belowMin_checkedTo (stateinfo : Slot → VmcStateinfo) {i j : Slot}
    (found : findSystem vmcSystem (vstatus i).vmIpaddr = some j) :
    belowMin checkTcpstatusMin
        ((checkedTo checkTcpstatusMin vstatus vmcSystem stateinfo i).vmcSystem j).linkStatus =
      true ↔ ¬ FoundHung checkTcpstatusMin vstatus vmcSystem i := by
  have hung : FoundHung checkTcpstatusMin vstatus vmcSystem i ↔ checkTcpstatusMin ≤ 65535 ∧
      checkTcpstatusMin ≤ (vmcSystem j).linkStatus.toNat + countedBefore vstatus i := by
    refine ⟨fun ⟨other, also, reached⟩ => ?_, fun reached => ⟨j, found, reached⟩⟩
    cases found.symm.trans also
    exact reached
  rw [hung, checkedTo_vmcSystem, countedBefore_eq found, belowMin, decide_eq_true_eq]
  by_cases inRange : checkTcpstatusMin ≤ 65535
  · rw [iterate_countUp inRange]
    omega
  · have small := UInt16.toNat_lt
      ((countUp checkTcpstatusMin)^[countedBefore vstatus i] (vmcSystem j).linkStatus)
    simp only [inRange, false_and, not_false_eq_true, iff_true]
    omega

theorem checkedTo_zero (stateinfo : Slot → VmcStateinfo) :
    checkedTo checkTcpstatusMin vstatus vmcSystem stateinfo 0 =
      ⟨vmcSystem, .off, some stateinfo⟩ := by
  unfold checkedTo
  rfl

theorem checkedTo_succ (stateinfo : Slot → VmcStateinfo) (i : Slot) :
    checkedTo checkTcpstatusMin vstatus vmcSystem stateinfo (i.val + 1) =
      checkVm checkTcpstatusMin vstatus
        (checkedTo checkTcpstatusMin vstatus vmcSystem stateinfo i.val) i := by
  unfold checkedTo checkVms
  rw [listedSlots_succ, List.foldl_append, List.foldl_cons, List.foldl_nil]

variable (checkTcpstatusMin vstatus vmcSystem) in
/-- A round touches the verdict and the VMs' states when it finds its VM hung. -/
theorem checkedTo_cases (stateinfo : Slot → VmcStateinfo) (i : Slot) {s next : TcpStatus}
    (before : checkedTo checkTcpstatusMin vstatus vmcSystem stateinfo i.val = s)
    (after : checkedTo checkTcpstatusMin vstatus vmcSystem stateinfo (i.val + 1) = next) :
    (FoundHung checkTcpstatusMin vstatus vmcSystem i ∧ next.bpmode = .on ∧
      next.stateinfo = s.stateinfo.bind (resetHung i (vstatus i).vmIpaddr)) ∨
    (¬ FoundHung checkTcpstatusMin vstatus vmcSystem i ∧ next.bpmode = s.bpmode ∧
      next.stateinfo = s.stateinfo) := by
  have addr : findSystem s.vmcSystem (vstatus i).vmIpaddr =
      findSystem vmcSystem (vstatus i).vmIpaddr := by
    refine findSystem_congr (fun j => ?_) _
    rw [← before, checkedTo_vmcSystem]
  have stepped : next = checkVm checkTcpstatusMin vstatus s i :=
    after.symm.trans ((checkedTo_succ stateinfo i).trans
      (congrArg (fun t => checkVm checkTcpstatusMin vstatus t i) before))
  rw [stepped]
  cases found : findSystem vmcSystem (vstatus i).vmIpaddr with
  | none =>
      refine Or.inr ⟨fun ⟨j, also, _⟩ => ?_, ?_⟩
      · cases found.symm.trans also
      · rw [checkVm_missing vstatus (addr.trans found)]
        exact ⟨rfl, rfl⟩
  | some j =>
      have below := belowMin_checkedTo checkTcpstatusMin stateinfo found
      rw [before] at below
      by_cases hung : FoundHung checkTcpstatusMin vstatus vmcSystem i
      · refine Or.inl ⟨hung, ?_⟩
        rw [checkVm_hung vstatus (addr.trans found) fun under => below.mp under hung]
        exact ⟨rfl, rfl⟩
      · refine Or.inr ⟨hung, ?_⟩
        rw [checkVm_below vstatus (addr.trans found) (below.mpr hung)]
        exact ⟨rfl, rfl⟩

variable (checkTcpstatusMin vstatus vmcSystem) in
/-- The verdict is that some VM was found hung. -/
theorem checkedTo_bpmode (stateinfo : Slot → VmcStateinfo) (n : Nat) (inside : n ≤ maxSystemNum) :
    ((checkedTo checkTcpstatusMin vstatus vmcSystem stateinfo n).bpmode = .on ∧
      ∃ i : Slot, i.val < n ∧ FoundHung checkTcpstatusMin vstatus vmcSystem i) ∨
    ((checkedTo checkTcpstatusMin vstatus vmcSystem stateinfo n).bpmode = .off ∧
      ∀ i : Slot, i.val < n → ¬ FoundHung checkTcpstatusMin vstatus vmcSystem i) := by
  induction n with
  | zero =>
      rw [checkedTo_zero]
      exact Or.inr ⟨rfl, fun i low => absurd low (Nat.not_lt_zero _)⟩
  | succ n ih =>
      obtain ⟨hung, verdict, _⟩ | ⟨fine, verdict, _⟩ :=
        checkedTo_cases checkTcpstatusMin vstatus vmcSystem stateinfo ⟨n, inside⟩ rfl rfl
      · exact Or.inl ⟨verdict, ⟨n, inside⟩, Nat.lt_succ_self n, hung⟩
      · rw [verdict]
        obtain ⟨on, i, low, hung⟩ | ⟨off, fineBefore⟩ := ih (Nat.le_of_lt inside)
        · exact Or.inl ⟨on, i, Nat.lt_succ_of_lt low, hung⟩
        · refine Or.inr ⟨off, fun i low => ?_⟩
          by_cases here : i.val = n
          · rwa [show i = ⟨n, inside⟩ from Fin.ext here]
          · exact fineBefore i (by omega)

end Hung

section Verdict

variable {checkTcpstatusMin : Int} {conf : HostConf} {vmcSystem : Slot → VmcSystem}
  {stateinfo : Slot → VmcStateinfo}

theorem checkTcpStatus_eq :
    checkTcpStatus checkTcpstatusMin conf vmcSystem stateinfo =
      (checkTcpStatusCommit conf
        (checkedTo checkTcpstatusMin conf.vmcStatus vmcSystem stateinfo conf.vmCount).bpmode,
        checkedTo checkTcpstatusMin conf.vmcStatus vmcSystem stateinfo conf.vmCount) := by
  unfold checkedTo checkTcpStatus
  rfl

/-- Between the two threads that decide on the bypass, a call is a copy of the snapshot
and a commit of the verdict. -/
theorem checkTcpStatus_steps (bounded : conf.vmCount ≤ maxSystemNum) (vmc : Option VmcCall) :
    ∃ hung, Runs.run HostBypass.step ⟨conf, vmc, none⟩ [.tcpCopy, .tcpCommit hung] =
      some ⟨(checkTcpStatus checkTcpstatusMin conf vmcSystem stateinfo).1, vmc, none⟩ := by
  rw [checkTcpStatus_eq]
  obtain ⟨on, _⟩ | ⟨off, _⟩ :=
    checkedTo_bpmode checkTcpstatusMin conf.vmcStatus vmcSystem stateinfo conf.vmCount bounded
  · exact ⟨true, by rw [on]; rfl⟩
  · exact ⟨false, by rw [off]; rfl⟩

/-- The mode that a call stores for the connections. -/
theorem checkTcpStatus_tcpMode (bounded : conf.vmCount ≤ maxSystemNum) :
    (checkTcpStatus checkTcpstatusMin conf vmcSystem stateinfo).1.tcpMode = .on ↔
      ∃ i : Slot, i.val < conf.vmCount ∧
        FoundHung checkTcpstatusMin conf.vmcStatus vmcSystem i := by
  rw [checkTcpStatus_eq]
  obtain ⟨on, hung⟩ | ⟨off, fine⟩ :=
    checkedTo_bpmode checkTcpstatusMin conf.vmcStatus vmcSystem stateinfo conf.vmCount bounded
  · rw [on]
    exact ⟨fun _ => hung, fun _ => rfl⟩
  · rw [off]
    refine ⟨fun mode => absurd (show BypassMode.off = .on from mode) (by decide), ?_⟩
    rintro ⟨i, low, hung⟩
    exact absurd hung (fine i low)

end Verdict

section Reset

variable {checkTcpstatusMin : Int} {vstatus : Slot → VmcStatus} {vmcSystem : Slot → VmcSystem}
  {stateinfo : Slot → VmcStateinfo}

theorem FoundHung.ne_zero {i : Slot} (hung : FoundHung checkTcpstatusMin vstatus vmcSystem i) :
    (vstatus i).vmIpaddr ≠ 0 := by
  obtain ⟨j, found, _⟩ := hung
  obtain ⟨present, same⟩ := findSystem_eq_some found
  rwa [same]

theorem resetHung_absent {i : Slot} {vmIpaddr : UInt32}
    (absent : ∀ v, (stateinfo v).vmIp ≠ vmIpaddr) :
    resetHung i vmIpaddr stateinfo = some stateinfo := by
  unfold resetHung
  rw [Fin.find?_eq_none_iff.mpr fun v => by simpa using absent v]

/-- Only the first VM of the snapshot can have a state reset: the arrays of any other
index are left. -/
theorem resetHung_present {i : Slot} {vmIpaddr : UInt32}
    (present : ∃ v, (stateinfo v).vmIp = vmIpaddr) :
    resetHung i vmIpaddr stateinfo =
      if i = 0 then some (Function.update stateinfo 0 baseStateinfo) else none := by
  have found : (Fin.find? fun v : Slot => decide ((stateinfo v).vmIp = vmIpaddr)).isSome := by
    obtain ⟨v, owned⟩ := present
    exact Fin.isSome_find?_iff.mpr ⟨v, decide_eq_true owned⟩
  obtain ⟨v, found⟩ := Option.isSome_iff_exists.mp found
  unfold resetHung
  rw [found]
  by_cases first : i = 0
  · subst first
    rfl
  · have later : ¬ i.val + maxVmProcNum ≤ maxVmProcNum := fun inside =>
      first (Fin.ext (show i.val = 0 by omega))
    rw [if_neg first, copyBasePState, if_neg later]
    rfl

variable (checkTcpstatusMin vstatus vmcSystem stateinfo) in
/-- The states after the round of the first VM. -/
def FirstRound (t : Slot → VmcStateinfo) : Prop :=
  (t = stateinfo ∧ (FoundHung checkTcpstatusMin vstatus vmcSystem 0 →
      ∀ v, (stateinfo v).vmIp ≠ (vstatus 0).vmIpaddr)) ∨
    (t = Function.update stateinfo 0 baseStateinfo ∧
      FoundHung checkTcpstatusMin vstatus vmcSystem 0 ∧
      ∃ v, (stateinfo v).vmIp = (vstatus 0).vmIpaddr)

variable (checkTcpstatusMin vstatus vmcSystem stateinfo) in
theorem checkedTo_one :
    ∃ t, (checkedTo checkTcpstatusMin vstatus vmcSystem stateinfo 1).stateinfo = some t ∧
      FirstRound checkTcpstatusMin vstatus vmcSystem stateinfo t := by
  obtain ⟨hung, _, same⟩ | ⟨fine, _, same⟩ :=
    checkedTo_cases checkTcpstatusMin vstatus vmcSystem stateinfo 0 (checkedTo_zero stateinfo) rfl
  · rw [Option.bind_some] at same
    by_cases present : ∃ v, (stateinfo v).vmIp = (vstatus 0).vmIpaddr
    · rw [resetHung_present present, if_pos rfl] at same
      exact ⟨_, same, Or.inr ⟨rfl, hung, present⟩⟩
    · have absent := not_exists.mp present
      rw [resetHung_absent absent] at same
      exact ⟨stateinfo, same, Or.inl ⟨rfl, fun _ => absent⟩⟩
  · exact ⟨stateinfo, same, Or.inl ⟨rfl, fun hung => absurd hung fine⟩⟩

/-- The later rounds keep the states, and leave their arrays if one of them finds the state
of its VM. -/
theorem checkedTo_later {t : Slot → VmcStateinfo}
    (first : (checkedTo checkTcpstatusMin vstatus vmcSystem stateinfo 1).stateinfo = some t)
    (n : Nat) (inside : n < maxSystemNum) (final : Slot → VmcStateinfo) :
    (checkedTo checkTcpstatusMin vstatus vmcSystem stateinfo (n + 1)).stateinfo = some final ↔
      final = t ∧ ∀ i : Slot, i ≠ 0 → i.val < n + 1 →
        FoundHung checkTcpstatusMin vstatus vmcSystem i →
          ∀ v, (t v).vmIp ≠ (vstatus i).vmIpaddr := by
  induction n generalizing final with
  | zero =>
      rw [first, Option.some.injEq, eq_comm]
      refine ⟨fun same => ⟨same, fun i later low => ?_⟩, fun same => same.1⟩
      exact absurd (Fin.ext (show i.val = 0 by omega)) later
  | succ n ih =>
      have before (u : Slot → VmcStateinfo) := ih (by omega) u
      have old {P : Slot → Prop} (kept : ∀ i : Slot, i ≠ 0 → i.val < n + 1 → P i)
          (new : P ⟨n + 1, inside⟩) (i : Slot) (later : i ≠ 0) (low : i.val < n + 2) : P i := by
        by_cases here : i.val = n + 1
        · rwa [show i = ⟨n + 1, inside⟩ from Fin.ext here]
        · exact kept i later (by omega)
      obtain ⟨hung, _, same⟩ | ⟨fine, _, same⟩ :=
        checkedTo_cases checkTcpstatusMin vstatus vmcSystem stateinfo ⟨n + 1, inside⟩ rfl rfl
      · rw [same, Option.bind_eq_some_iff]
        constructor
        · rintro ⟨u, reached, reset⟩
          obtain ⟨rfl, kept⟩ := (before u).mp reached
          by_cases present : ∃ v, (u v).vmIp = (vstatus ⟨n + 1, inside⟩).vmIpaddr
          · rw [resetHung_present present, if_neg (by simp)] at reset
            cases reset
          · have absent := not_exists.mp present
            rw [resetHung_absent absent] at reset
            cases reset
            exact ⟨rfl, old kept fun _ => absent⟩
        · rintro ⟨rfl, kept⟩
          refine ⟨final, (before final).mpr ⟨rfl, fun i later low => kept i later (by omega)⟩, ?_⟩
          exact resetHung_absent (kept ⟨n + 1, inside⟩ (by simp) (Nat.lt_succ_self _) hung)
      · rw [same, before]
        refine and_congr_right fun _ => ⟨fun kept => old kept fun hung => absurd hung fine, ?_⟩
        exact fun kept i later low => kept i later (by omega)

end Reset

section Frame

variable (checkTcpstatusMin : Int) (snapshot : VmSnapshot) (vmcSystem : Slot → VmcSystem)
  (stateinfo : Slot → VmcStateinfo)

/-- The state `v` is that of a VM of the snapshot that is found hung. -/
def HungState (v : Slot) : Prop :=
  ∃ i : Slot, i.val < snapshot.vmcount ∧ FoundHung checkTcpstatusMin snapshot.vm vmcSystem i ∧
    (stateinfo v).vmIp = (snapshot.vm i).vmIpaddr

/-- The states of the hung VMs are reset, the others kept, and no copy leaves its arrays. -/
def ResetsHungOnly (after : Option (Slot → VmcStateinfo)) : Prop :=
  ∃ final, after = some final ∧ ∀ v,
    (HungState checkTcpstatusMin snapshot vmcSystem stateinfo v → final v = baseStateinfo) ∧
      (¬ HungState checkTcpstatusMin snapshot vmcSystem stateinfo v → final v = stateinfo v)

/-- The state of a hung VM is the first entry, and that VM is the first of the snapshot. -/
def HungFirst : Prop :=
  ∀ i v : Slot, i.val < snapshot.vmcount →
    FoundHung checkTcpstatusMin snapshot.vm vmcSystem i →
    (stateinfo v).vmIp = (snapshot.vm i).vmIpaddr →
      v = 0 ∧ FoundHung checkTcpstatusMin snapshot.vm vmcSystem 0 ∧
        (snapshot.vm 0).vmIpaddr = (snapshot.vm i).vmIpaddr

variable {checkTcpstatusMin snapshot vmcSystem stateinfo}

theorem HungState.ne_base {v : Slot}
    (hung : HungState checkTcpstatusMin snapshot vmcSystem stateinfo v) :
    stateinfo v ≠ baseStateinfo := by
  obtain ⟨i, _, found, owned⟩ := hung
  intro same
  rw [same] at owned
  exact found.ne_zero owned.symm

/-- With every hung VM that has a state first, the first round does all there is to do. -/
theorem HungFirst.resets (first : HungFirst checkTcpstatusMin snapshot vmcSystem stateinfo)
    (listed : 0 < snapshot.vmcount) {t : Slot → VmcStateinfo}
    (round : FirstRound checkTcpstatusMin snapshot.vm vmcSystem stateinfo t) (v : Slot) :
    (HungState checkTcpstatusMin snapshot vmcSystem stateinfo v → t v = baseStateinfo) ∧
      (¬ HungState checkTcpstatusMin snapshot vmcSystem stateinfo v → t v = stateinfo v) := by
  rcases round with ⟨rfl, absent⟩ | ⟨rfl, hung, u, owned⟩
  · refine ⟨fun ⟨i, low, found, same⟩ => ?_, fun _ => rfl⟩
    obtain ⟨_, hung, addr⟩ := first i v low found same
    exact absurd (same.trans addr.symm) (absent hung v)
  · obtain ⟨rfl, _⟩ := first 0 u listed hung owned
    refine ⟨fun ⟨i, low, found, same⟩ => ?_, fun other => ?_⟩
    · obtain ⟨rfl, _⟩ := first i v low found same
      exact Function.update_self ..
    · refine Function.update_of_ne ?_ ..
      rintro rfl
      exact other ⟨0, listed, hung, owned⟩

/-- The states of hung VMs that the first round leaves are not there, so the later rounds
find none. -/
theorem HungFirst.later (first : HungFirst checkTcpstatusMin snapshot vmcSystem stateinfo)
    (listed : 0 < snapshot.vmcount) {t : Slot → VmcStateinfo}
    (round : FirstRound checkTcpstatusMin snapshot.vm vmcSystem stateinfo t) (i : Slot)
    (low : i.val < snapshot.vmcount)
    (hung : FoundHung checkTcpstatusMin snapshot.vm vmcSystem i) (v : Slot) :
    (t v).vmIp ≠ (snapshot.vm i).vmIpaddr := by
  intro owned
  obtain ⟨reset, kept⟩ := first.resets listed round v
  by_cases state : HungState checkTcpstatusMin snapshot vmcSystem stateinfo v
  · rw [reset state] at owned
    exact hung.ne_zero owned.symm
  · rw [kept state] at owned
    exact state ⟨i, low, hung, owned⟩

/-- What the first round makes of the states shows that the hung VM is first. -/
theorem hungFirst_of_resets (listed : 0 < snapshot.vmcount) {t : Slot → VmcStateinfo}
    (round : FirstRound checkTcpstatusMin snapshot.vm vmcSystem stateinfo t)
    (resets : ∀ v, HungState checkTcpstatusMin snapshot vmcSystem stateinfo v →
      t v = baseStateinfo) :
    HungFirst checkTcpstatusMin snapshot vmcSystem stateinfo := by
  rcases round with ⟨rfl, absent⟩ | ⟨rfl, hung, u, owned⟩
  · intro i v low found same
    have state : HungState checkTcpstatusMin snapshot vmcSystem t v := ⟨i, low, found, same⟩
    exact absurd (resets v state) state.ne_base
  · have first (v : Slot) (state : HungState checkTcpstatusMin snapshot vmcSystem stateinfo v) :
        v = 0 := by
      by_contra later
      have same := resets v state
      rw [Function.update_of_ne later] at same
      exact state.ne_base same
    have zero := first u ⟨0, listed, hung, owned⟩
    subst zero
    intro i v low found same
    have here := first v ⟨i, low, found, same⟩
    subst here
    exact ⟨rfl, hung, owned.symm.trans same⟩

theorem checkedTo_resetsHungOnly :
    ResetsHungOnly checkTcpstatusMin snapshot vmcSystem stateinfo
        (checkedTo checkTcpstatusMin snapshot.vm vmcSystem stateinfo snapshot.vmcount).stateinfo ↔
      HungFirst checkTcpstatusMin snapshot vmcSystem stateinfo := by
  obtain ⟨vmcount, vm, bounded⟩ := snapshot
  cases vmcount with
  | zero =>
      rw [checkedTo_zero]
      refine ⟨fun _ i v low => absurd low (Nat.not_lt_zero _), fun _ => ⟨stateinfo, rfl, ?_⟩⟩
      exact fun v => ⟨fun ⟨i, low, _⟩ => absurd low (Nat.not_lt_zero _), fun _ => rfl⟩
  | succ n =>
      obtain ⟨t, one, round⟩ := checkedTo_one checkTcpstatusMin vm vmcSystem stateinfo
      have later := checkedTo_later one n bounded
      constructor
      · rintro ⟨final, reached, resets⟩
        obtain ⟨rfl, _⟩ := (later final).mp reached
        exact hungFirst_of_resets (Nat.succ_pos n) round fun v => (resets v).1
      · intro first
        refine ⟨t, (later t).mpr ⟨rfl, fun i _ low hung => ?_⟩, ?_⟩
        · exact first.later (Nat.succ_pos n) round i low hung
        · exact first.resets (Nat.succ_pos n) round

/-- `CheckTcpStatus` resets the states of the hung VMs, and nothing else, exactly when
the only one of them is the first entry, of the first VM of the snapshot. -/
theorem checkTcpStatus_resetsHungOnly (checkTcpstatusMin : Int) (conf : HostConf)
    (snapshot : VmSnapshot) (vmcSystem : Slot → VmcSystem) (stateinfo : Slot → VmcStateinfo) :
    ResetsHungOnly checkTcpstatusMin snapshot vmcSystem stateinfo
        (checkTcpStatus checkTcpstatusMin
          { conf with vmCount := snapshot.vmcount, vmcStatus := snapshot.vm } vmcSystem
          stateinfo).2.stateinfo ↔
      HungFirst checkTcpstatusMin snapshot vmcSystem stateinfo := by
  rw [checkTcpStatus_eq]
  exact checkedTo_resetsHungOnly

/-- One VM, hung, whose state is the second entry: the first entry is reset instead. -/
theorem resets_otherVm :
    ¬ ∀ (checkTcpstatusMin : Int) (conf : HostConf) (snapshot : VmSnapshot)
        (vmcSystem : Slot → VmcSystem) (stateinfo : Slot → VmcStateinfo),
      ResetsHungOnly checkTcpstatusMin snapshot vmcSystem stateinfo
        (checkTcpStatus checkTcpstatusMin
          { conf with vmCount := snapshot.vmcount, vmcStatus := snapshot.vm } vmcSystem
          stateinfo).2.stateinfo := by
  intro all
  let snapshot : VmSnapshot :=
    ⟨1, fun _ => { VmcStatus.zero with vmIpaddr := 0x0A000001 }, by decide⟩
  let vmcSystem : Slot → VmcSystem := fun j =>
    if j = 0 then ⟨1, 0x0A000001, 5000, 1, 3⟩ else .zero
  let stateinfo : Slot → VmcStateinfo := fun v =>
    if v = 0 then { baseStateinfo with vmIp := 0x0A000002 }
    else if v = 1 then { baseStateinfo with vmIp := 0x0A000001 } else baseStateinfo
  obtain ⟨final, reached, resets⟩ :=
    all 3 ⟨1, .off, .off, .off, 0, fun _ => .zero⟩ snapshot vmcSystem stateinfo
  have kept : ((checkTcpStatus 3 ⟨1, .off, .off, .off, 1, snapshot.vm⟩ vmcSystem
      stateinfo).2.stateinfo.map fun after => (after 1).vmIp) = some 0x0A000001 := by
    decide +kernel
  have hung : HungState 3 snapshot vmcSystem stateinfo 1 :=
    ⟨0, by decide, ⟨0, by decide +kernel, by decide, by decide +kernel⟩, by decide⟩
  have same : final 1 = baseStateinfo := (resets 1).1 hung
  rw [show (checkTcpStatus 3 ⟨1, .off, .off, .off, 1, snapshot.vm⟩ vmcSystem
    stateinfo).2.stateinfo = some final from reached, Option.map_some, same] at kept
  exact absurd kept (by decide)

end Frame

end VnfMonitoring.HostTcpStatus
