import Mathlib.Data.List.OfFn
import Mathlib.Data.List.TakeWhile
import Mathlib.Logic.Equiv.Defs
import VnfMonitoring.HostProcess

set_option autoImplicit false

/- The second loop of `ProcessVmProcStateInfo`. Its flag is never reset, so it reports the
entries that stand before the first one of a VM of the snapshot. -/
namespace VnfMonitoring.HostBaremetal

open VnfMonitoring.Memory VnfMonitoring.Bpapp VnfMonitoring.HostSock VnfMonitoring.HostTcpStatus
  VnfMonitoring.HostProcess VnfMonitoring.Runs VnfMonitoring.Pqmb

section Prefix

variable {α : Type} {p : α → Bool} {l : List α}

theorem takeWhile_sublist_filter (p : α → Bool) (l : List α) :
    (l.takeWhile p).Sublist (l.filter p) := by
  have kept : (l.takeWhile p).filter p = l.takeWhile p :=
    List.filter_eq_self.mpr fun _ member => List.mem_takeWhile_imp member
  rw [← kept]
  exact (List.takeWhile_sublist p).filter p

/-- The elements before the first that fails are all that hold when none holds behind it. -/
theorem takeWhile_eq_filter :
    l.takeWhile p = l.filter p ↔ l.Pairwise fun a b => p b = true → p a = true := by
  induction l with
  | nil => simp
  | cons a l ih =>
      rw [List.pairwise_cons]
      by_cases holds : p a = true
      · rw [List.takeWhile_cons_of_pos holds, List.filter_cons_of_pos holds, List.cons_inj_right,
          ih]
        exact ⟨fun rest => ⟨fun _ _ _ => holds, rest⟩, fun both => both.2⟩
      · rw [List.takeWhile_cons_of_neg holds, List.filter_cons_of_neg holds, eq_comm,
          List.filter_eq_nil_iff]
        constructor
        · intro absent
          refine ⟨fun b member here => absurd here (absent b member), ?_⟩
          exact List.pairwise_of_forall_mem_list fun _ _ b member here =>
            absurd here (absent b member)
        · exact fun both b member here => holds (both.1 b member here)

variable [DecidableEq α]

theorem count_takeWhile :
    (∀ x, (l.takeWhile p).count x = (l.filter p).count x) ↔ l.takeWhile p = l.filter p := by
  constructor
  · intro same
    have perm := List.perm_iff_count.mpr same
    exact (takeWhile_sublist_filter p l).eq_of_length perm.length_eq
  · intro same x
    rw [same]

end Prefix

section Reported

variable {call other : ProcessCall}

/-- The entries of some slots that the loop reports while its flag is not set. -/
def reportedOf (call : ProcessCall) (slots : List Slot) : List Slot :=
  (slots.filter fun i => decide ((call.vminfo i).vmIp ≠ 0)).takeWhile fun i =>
    !inSnapshot call (call.vminfo i).vmIp

/-- The entries that the loop reports. -/
def reported (call : ProcessCall) : List Slot := reportedOf call (List.finRange maxSystemNum)

/-- No entry that the snapshot lacks stands behind one of a VM of the snapshot. -/
def InOrder (call : ProcessCall) : Prop :=
  ∀ i k, InUse call i → Unlisted call k → k < i

/-- The entries that are in use, in the order of the table. -/
def usedSlots (call : ProcessCall) : List Slot :=
  (List.finRange maxSystemNum).filter fun i => decide ((call.vminfo i).vmIp ≠ 0)

theorem mem_unlisted {i : Slot} :
    i ∈ (usedSlots call).filter (fun i => !inSnapshot call (call.vminfo i).vmIp) ↔
      Unlisted call i := by
  simp [usedSlots, Unlisted, and_comm]

theorem usedSlots_nodup (call : ProcessCall) : (usedSlots call).Nodup :=
  (List.nodup_finRange maxSystemNum).filter _

theorem usedSlots_ordered :
    ((usedSlots call).Pairwise fun i k =>
      (!inSnapshot call (call.vminfo k).vmIp) = true →
        (!inSnapshot call (call.vminfo i).vmIp) = true) ↔ InOrder call := by
  rw [usedSlots, List.pairwise_filter, ← List.ofFn_id, List.pairwise_ofFn]
  simp only [id_eq, decide_eq_true_eq, Bool.not_eq_true', InOrder, InUse, Unlisted]
  constructor
  · intro ordered i k inUse unlisted
    by_contra behind
    rcases lt_or_eq_of_le (not_lt.mp behind) with before | same
    · have free := ordered before inUse.1 unlisted.1 unlisted.2
      rw [free] at inUse
      exact absurd inUse.2 Bool.false_ne_true
    · subst same
      rw [unlisted.2] at inUse
      exact absurd inUse.2 Bool.false_ne_true
  · intro ordered i k before used alsoUsed unlisted
    by_contra known
    have inUse : inSnapshot call (call.vminfo i).vmIp = true := by simpa using known
    exact absurd (ordered i k ⟨used, inUse⟩ ⟨alsoUsed, unlisted⟩) (lt_asymm before)

/-- The loop reports every entry that it should exactly when these come first. -/
theorem reported_complete :
    (∀ i, (reported call).count i = if Unlisted call i then 1 else 0) ↔ InOrder call := by
  rw [← usedSlots_ordered, ← takeWhile_eq_filter, ← count_takeWhile]
  apply forall_congr'
  intro i
  rw [((usedSlots_nodup call).filter _).count]
  simp only [mem_unlisted]
  rfl

theorem mem_reported {i : Slot} (ordered : InOrder call) :
    i ∈ reported call ↔ Unlisted call i := by
  rw [← List.count_pos_iff, reported_complete.mpr ordered i]
  by_cases unlisted : Unlisted call i <;> simp [unlisted]

theorem reported_nodup (call : ProcessCall) : (reported call).Nodup :=
  (usedSlots_nodup call).sublist (List.takeWhile_sublist _)

/-- The same snapshot, with the entries of the table in another order. -/
structure Permuted (σ : Equiv.Perm Slot) (call other : ProcessCall) : Prop where
  vminfo : ∀ i, other.vminfo i = call.vminfo (σ i)
  vmcount : other.vmcount = call.vmcount
  vstatus : other.vstatus = call.vstatus
  baremetalMode : other.baremetalMode = call.baremetalMode

theorem Permuted.unlisted {σ : Equiv.Perm Slot} (permuted : Permuted σ call other) (i : Slot) :
    Unlisted other i ↔ Unlisted call (σ i) := by
  simp only [Unlisted, inSnapshot, permuted.vminfo, permuted.vmcount, permuted.vstatus]

/-- From a table in order, the reports of a permuted one are the permuted reports exactly when
it is in order too. -/
theorem reported_permuted {σ : Equiv.Perm Slot} (ordered : InOrder call)
    (permuted : Permuted σ call other) :
    ((reported other).map σ).Perm (reported call) ↔ InOrder other := by
  constructor
  · intro perm
    rw [← reported_complete]
    intro i
    rw [(reported_nodup other).count]
    have member : i ∈ reported other ↔ Unlisted other i := by
      rw [permuted.unlisted, ← mem_reported ordered, ← perm.mem_iff,
        List.mem_map_of_injective σ.injective]
    simp only [member]
  · intro alsoOrdered
    apply (List.perm_ext_iff_of_nodup ?_ (reported_nodup call)).mpr
    · intro k
      rw [mem_reported ordered, ← σ.apply_symm_apply k, List.mem_map_of_injective σ.injective,
        mem_reported alsoOrdered, permuted.unlisted]
    · exact (reported_nodup other).map σ.injective

end Reported

section Loop

variable {order : ByteOrder} {call : ProcessCall} {accepted : Slot → Bool} {i : Slot}
  {slots : List Slot}

theorem reportedOf_free (free : (call.vminfo i).vmIp = 0) :
    reportedOf call (i :: slots) = reportedOf call slots := by
  rw [reportedOf, List.filter_cons_of_neg (by simpa using free)]
  rfl

theorem reportedOf_inUse (inUse : InUse call i) : reportedOf call (i :: slots) = [] := by
  rw [reportedOf, List.filter_cons_of_pos (by simpa using inUse.1),
    List.takeWhile_cons_of_neg (by simpa using inUse.2)]

theorem reportedOf_unlisted (unlisted : Unlisted call i) :
    reportedOf call (i :: slots) = i :: reportedOf call slots := by
  rw [reportedOf, List.filter_cons_of_pos (by simpa using unlisted.1),
    List.takeWhile_cons_of_pos (by simpa using unlisted.2)]
  rfl

/-- What the rounds of some slots insert behind what has been inserted. -/
theorem rounds_inserts (mode : call.baremetalMode = 1) {s final : Baremetal}
    (done : run (baremetalRound order call accepted) s slots = some final) :
    final.inserts = s.inserts ++ if s.vFlag then [] else reportedOf call slots := by
  induction slots generalizing s with
  | nil =>
      cases done
      cases final.vFlag <;> simp [reportedOf]
  | cons i slots ih =>
      obtain ⟨next, stepped, remaining⟩ := run_cons_some done
      rw [ih remaining]
      obtain ⟨free, rfl⟩ | ⟨inUse, rfl⟩ | ⟨_, flag, rfl⟩ |
          ⟨unlisted, flag, _, _, _, _, _, _, rfl⟩ | ⟨_, _, off, _⟩ := baremetalRound_cases stepped
      · rw [reportedOf_free free]
      · rw [reportedOf_inUse inUse, if_pos rfl, ite_self]
      · rw [if_pos flag, if_pos flag]
      · rw [reportedOf_unlisted unlisted, flag, if_neg Bool.false_ne_true,
          if_neg Bool.false_ne_true, List.append_assoc, List.singleton_append]
      · exact absurd mode off

theorem baremetalLoop_inserts (mode : call.baremetalMode = 1) {table : VmStateTable}
    {s : Baremetal} (done : baremetalLoop order call accepted table = some s) :
    s.inserts = reported call := rounds_inserts mode done

/-- In bare-metal mode the loop inserts every entry that the snapshot lacks, once, and no other,
exactly when no such entry stands behind one of a VM of the snapshot. From a table like that,
the inserts of a permuted one are the permuted inserts exactly when it is like that too. -/
theorem baremetalLoop_complete (order : ByteOrder) (call : ProcessCall) (accepted : Slot → Bool)
    (table : VmStateTable) (mode : call.baremetalMode = 1) :
    (StringsEnd call → (baremetalLoop order call accepted table).isSome) ∧
    ∀ s, baremetalLoop order call accepted table = some s →
      ((∀ i, s.inserts.count i = if Unlisted call i then 1 else 0) ↔ InOrder call) ∧
      (InOrder call → ∀ σ other accepted' table' t, Permuted σ call other →
        baremetalLoop order other accepted' table' = some t →
          ((t.inserts.map σ).Perm s.inserts ↔ InOrder other)) := by
  refine ⟨fun strings => baremetalLoop_isSome order strings accepted table, fun s done => ?_⟩
  rw [baremetalLoop_inserts mode done]
  refine ⟨reported_complete, fun ordered σ other accepted' table' t permuted also => ?_⟩
  rw [baremetalLoop_inserts (permuted.baremetalMode.trans mode) also]
  exact reported_permuted ordered permuted

/-- Two machines that report; the first of them is a VM of the snapshot, unless that is empty. -/
def knownFirst (vmcount : Nat) : ProcessCall where
  ttime := .zero _
  vmcount := vmcount
  vstatus := fun _ => { VmcStatus.zero with vmIpaddr := 0x0A000001 }
  vminfo := fun i =>
    { VmcStateinfo.zero with
      vmIp := if i = 0 then 0x0A000001 else if i = 1 then 0x0A000002 else 0 }
  cloudMode := 0
  baremetalMode := 1
  cloudBpMode := fun _ => .off
  baremetalBpMode := fun _ => .off

theorem knownFirst_strings (vmcount : Nat) : StringsEnd (knownFirst vmcount) where
  ttime := rfl
  vmUuid := fun _ _ => ⟨[], rfl, by decide⟩
  statusName := fun _ _ => rfl
  vmHostName := fun _ _ => rfl
  vmId := fun _ => rfl
  vmName := fun _ => rfl
  manageIp := fun _ => rfl
  processName := fun _ _ => rfl

/-- The VM of the snapshot comes second. -/
def knownSecond : ProcessCall :=
  { knownFirst 1 with vminfo := fun i => (knownFirst 1).vminfo (Equiv.swap 0 1 i) }

theorem knownSecond_strings : StringsEnd knownSecond :=
  { knownFirst_strings 1 with }

theorem knownSecond_inOrder : InOrder knownSecond := by
  have used : ∀ i, InUse knownSecond i → i = 1 := by decide +kernel
  have lacking : ∀ k, Unlisted knownSecond k → k = 0 := by decide +kernel
  intro i k inUse unlisted
  rw [used i inUse, lacking k unlisted]
  decide

theorem knownSecond_permuted : Permuted (Equiv.swap 0 1) knownSecond (knownFirst 1) where
  vminfo i := by
    change _ = (knownFirst 1).vminfo (Equiv.swap 0 1 (Equiv.swap 0 1 i))
    rw [Equiv.swap_apply_self]
  vmcount := rfl
  vstatus := rfl
  baremetalMode := rfl

/-- The other machine is inserted, and is not where the two have changed places. -/
theorem baremetalLoop_complete_second :
    ∃ s t, baremetalLoop .little knownSecond (fun _ => true) [] = some s ∧
      (∀ i, s.inserts.count i = if Unlisted knownSecond i then 1 else 0) ∧
      baremetalLoop .little (knownFirst 1) (fun _ => true) [] = some t ∧
      ¬ (t.inserts.map (Equiv.swap 0 1)).Perm s.inserts := by
  obtain ⟨total, inserted⟩ := baremetalLoop_complete .little knownSecond (fun _ => true) [] rfl
  obtain ⟨s, done⟩ := Option.isSome_iff_exists.mp (total knownSecond_strings)
  obtain ⟨t, also⟩ := Option.isSome_iff_exists.mp
    (baremetalLoop_isSome .little (knownFirst_strings 1) (fun _ => true) [])
  obtain ⟨complete, permutes⟩ := inserted s done
  refine ⟨s, t, done, complete.mpr knownSecond_inOrder, also, fun same => ?_⟩
  have ordered := (permutes knownSecond_inOrder _ _ _ _ t knownSecond_permuted also).mp same
  exact absurd (ordered 0 1 (by decide) (by decide)) (by decide)

/-- Behind the VM of the snapshot the other machine is lost. -/
theorem baremetalLoop_missed :
    ¬ ∀ (order : ByteOrder) (call : ProcessCall) (accepted : Slot → Bool) (table : VmStateTable),
      call.baremetalMode = 1 → ∀ s, baremetalLoop order call accepted table = some s →
        ∀ i, s.inserts.count i = if Unlisted call i then 1 else 0 := by
  intro all
  obtain ⟨s, done⟩ := Option.isSome_iff_exists.mp
    (baremetalLoop_isSome .little (knownFirst_strings 1) (fun _ => true) [])
  have once := all .little (knownFirst 1) (fun _ => true) [] rfl s done 1
  have nothing : reported (knownFirst 1) = [] := by decide
  rw [baremetalLoop_inserts rfl done, nothing, if_pos (by decide)] at once
  cases once

end Loop

end VnfMonitoring.HostBaremetal
