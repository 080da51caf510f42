import VnfMonitoring.HostDeparture
import VnfMonitoring.ReportRoundTrip

set_option autoImplicit false

/- The table of the VMs' states: `SetVmProcessStateInfo` stores a report in it, in two
sections around its work on a copy, and `TcpRecv` clears the entry of a VM it has lost. -/
namespace VnfMonitoring.HostStateinfo

open VnfMonitoring.Memory VnfMonitoring.Bpapp VnfMonitoring.HostSock VnfMonitoring.HostReport
  VnfMonitoring.HostDeparture VnfMonitoring.ReportRoundTrip VnfMonitoring.ReportSafety
  VnfMonitoring.Runs

/-- A report in the memory of the host. -/
def reportMessage (order : ByteOrder) (msg : VmProcStateMsg) : Bytes vmProcStateMsgSize :=
  ⟨msg.image order, VmProcStateMsg.image_length order msg⟩

/-- `SetVmProcessStateInfo` when no other thread runs in between. -/
def storeReport (order : ByteOrder) (t : HostTables) (msg : VmProcStateMsg) :
    Option (Int × HostTables) :=
  (setVmProcessStateInfo order t.stateinfo (reportMessage order msg)).map fun (ret, vmstate) =>
    (ret, if ret = -1 then t else { t with stateinfo := vmstate })

inductive StateEvent where
  | report (msg : VmProcStateMsg)
  /-- The loop of `TcpRecv` for a VM that is lost. -/
  | clear (vmIp : UInt32)

def step (order : ByteOrder) (t : HostTables) : StateEvent → Option HostTables
  | .report msg => (storeReport order t msg).map Prod.snd
  | .clear vmIp => some (clearStateinfo t vmIp)

/-- A report that finds no place changes nothing. Any other changes the one entry it
belongs in, and returns its index. -/
structure ReportStored (order : ByteOrder) (msg : VmProcStateMsg)
    (before after : Slot → VmcStateinfo) (ret : Int) : Prop where
  full : ret = -1 ↔ ∀ k,
    (before k).vmIp ≠ order.ntohl msg.vmIpaddress ∧ (before k).vmIp ≠ 0
  kept : ret = -1 → after = before
  stored : ret ≠ -1 → ∃ i : Slot, ret = i.val ∧
    EntryFor before (order.ntohl msg.vmIpaddress) i ∧ Stored order msg (after i) ∧
      ∀ k, k ≠ i → after k = before k

/-- The entry of the address is gone, and no other that is in use has changed. -/
def Cleared (vmIp : UInt32) (before after : Slot → VmcStateinfo) : Prop :=
  (∀ k, (after k).vmIp ≠ vmIp) ∧
    ∀ k, (before k).vmIp ≠ 0 → (before k).vmIp ≠ vmIp → after k = before k

section Table

variable {order : ByteOrder} {t next : HostTables} {msg : VmProcStateMsg}

/-- The searches of a table without a place for the address. -/
theorem storeEntry_full {vmstate : Slot → VmcStateinfo} {vmIp : UInt32}
    (full : ¬ HasEntry vmstate vmIp) (fill : VmcStateinfo → Option VmcStateinfo) :
    storeEntry vmstate vmIp fill = some (-1, vmstate) := by
  unfold storeEntry
  split
  · rename_i i found
    exact absurd ⟨i, Or.inl (by simpa using (Fin.find?_eq_some_iff.mp found).1)⟩ full
  · split
    · rename_i i found
      exact absurd ⟨i, Or.inr (by simpa using (Fin.find?_eq_some_iff.mp found).1)⟩ full
    · rfl

theorem hostWord_report (order : ByteOrder) (msg : VmProcStateMsg) :
    hostWord order (reportMessage order msg) vmIpaddressAt = order.ntohl msg.vmIpaddress := by
  have image : (reportMessage order msg).toList = msg.image order := rfl
  exact (ntohl_of_load32 order (reportMessage order msg) (load_vmIpaddress image)).symm

theorem stringsFit_report (order : ByteOrder) (msg : VmProcStateMsg) :
    StringsFit (reportMessage order msg) ↔ Copyable msg := by
  obtain ⟨⟨behindId, vmId⟩, ⟨behindName, vmName⟩, ⟨behindIp, manageIp⟩⟩ :=
    drop_identifiers msg order
  -- the bytes that `strcpy` may copy to a field of the entry are those of the message's field
  have ends {size offset : Nat} (field : Bytes size) {behind : List UInt8}
      (place : (msg.image order).drop offset = field.toList ++ behind) :
      (0 : UInt8) ∈ ((reportMessage order msg).toList.drop offset).take size ↔
        (str field).isSome := by
    rw [show (reportMessage order msg).toList = msg.image order from rfl, place,
      List.take_left' field.length_toList, str, cstr_isSome]
  constructor
  · rintro ⟨idFits, nameFits, ipFits⟩
    exact ⟨(ends msg.vmId vmId).mp idFits, (ends msg.vmName vmName).mp nameFits,
      (ends msg.manageIp manageIp).mp ipFits⟩
  · rintro ⟨idEnds, nameEnds, ipEnds⟩
    exact ⟨(ends msg.vmId vmId).mpr idEnds, (ends msg.vmName vmName).mpr nameEnds,
      (ends msg.manageIp manageIp).mpr ipEnds⟩

/-- The store goes through unless it has a place for the report and a string of it does
not end inside its field. -/
theorem setVmProcessStateInfo_report (order : ByteOrder) (msg : VmProcStateMsg)
    (vmstate : Slot → VmcStateinfo) :
    (setVmProcessStateInfo order vmstate (reportMessage order msg)).isSome ↔
      (HasEntry vmstate (order.ntohl msg.vmIpaddress) → Copyable msg) := by
  rw [setVmProcessStateInfo_isSome, hostWord_report, stringsFit_report,
    and_iff_right (Nat.le_refl _)]

/-- The copy with a report in it. -/
theorem setVmProcessStateInfo_stored {vmstate changed : Slot → VmcStateinfo} {ret : Int}
    (done : setVmProcessStateInfo order vmstate (reportMessage order msg) =
      some (ret, changed)) :
    ReportStored order msg vmstate changed ret ∧
      StoredAs (order.ntohl msg.vmIpaddress) vmstate changed := by
  have image : (reportMessage order msg).toList = msg.image order := rfl
  obtain ⟨fill, searched, fills⟩ := setVmProcessStateInfo_fills image vmstate
  refine ⟨?_, hostWord_report order msg ▸ setVmProcessStateInfo_storedAs done⟩
  by_cases room : HasEntry vmstate (order.ntohl msg.vmIpaddress)
  · have copyable : Copyable msg :=
      (setVmProcessStateInfo_report order msg vmstate).mp (by rw [done]; rfl) room
    obtain ⟨i, filled, found, place, holds⟩ := storeEntry_stored (fills copyable) room
    cases done.symm.trans (searched.trans found)
    refine ⟨⟨fun same => ?_, fun full => ?_⟩, fun same => ?_, fun _ => ?_⟩
    · omega
    · exact absurd place fun place => place.elim (full i).1 fun free => (full i).2 free.2.1
    · omega
    · refine ⟨i, rfl, place, by rwa [Function.update_self], fun k other => ?_⟩
      exact Function.update_of_ne other ..
  · cases done.symm.trans (searched.trans (storeEntry_full room fill))
    exact ⟨⟨fun _ k => ⟨fun owned => room ⟨k, Or.inl owned⟩, fun free => room ⟨k, Or.inr free⟩⟩,
      fun _ => rfl⟩, fun _ => rfl, fun same => absurd rfl same⟩

theorem storeReport_isSome (order : ByteOrder) (t : HostTables) (msg : VmProcStateMsg) :
    (storeReport order t msg).isSome ↔
      (HasEntry t.stateinfo (order.ntohl msg.vmIpaddress) → Copyable msg) := by
  rw [storeReport, Option.isSome_map, setVmProcessStateInfo_report]

theorem storeReport_of_copy {ret : Int} {vmstate : Slot → VmcStateinfo}
    (copied : setVmProcessStateInfo order t.stateinfo (reportMessage order msg) =
      some (ret, vmstate)) :
    storeReport order t msg =
      some (ret, if ret = -1 then t else { t with stateinfo := vmstate }) :=
  Option.map_eq_some_iff.mpr ⟨_, copied, rfl⟩

theorem storeReport_stored {ret : Int} (stored : storeReport order t msg = some (ret, next)) :
    ReportStored order msg t.stateinfo next.stateinfo ret ∧
      (Distinct t.stateinfo → Distinct next.stateinfo) := by
  obtain ⟨⟨_, vmstate⟩, done, pair⟩ := Option.map_eq_some_iff.mp stored
  cases pair
  obtain ⟨holds, storedAs⟩ := setVmProcessStateInfo_stored done
  by_cases full : ret = -1
  · rw [if_pos full]
    have same := holds.kept full
    rw [same] at holds
    exact ⟨holds, id⟩
  · rw [if_neg full]
    exact ⟨holds, storedAs.distinct⟩

theorem clearStateinfo_cleared (distinct : Distinct t.stateinfo) {vmIp : UInt32}
    (present : vmIp ≠ 0) : Cleared vmIp t.stateinfo (clearStateinfo t vmIp).stateinfo := by
  refine ⟨fun k same => ?_, fun k used other => ?_⟩
  · obtain ⟨kept, gone⟩ :=
      clearStateinfo_vmIp distinct vmIp k fun zero => present (same.symm.trans zero)
    exact gone (kept.symm.trans same)
  · unfold clearStateinfo
    split
    · rename_i i found
      have owned : (t.stateinfo i).vmIp = vmIp := by
        simpa using (Fin.find?_eq_some_iff.mp found).1
      refine Function.update_of_ne ?_ ..
      rintro rfl
      exact other owned
    · rfl

theorem step_distinct {event : StateEvent} (distinct : Distinct t.stateinfo)
    (stepped : step order t event = some next) : Distinct next.stateinfo := by
  cases event with
  | report msg =>
      obtain ⟨⟨ret, _⟩, stored, rfl⟩ := Option.map_eq_some_iff.mp stepped
      exact (storeReport_stored stored).2 distinct
  | clear vmIp =>
      obtain rfl : clearStateinfo t vmIp = next := Option.some.inj stepped
      exact clearStateinfo_distinct distinct vmIp

end Table

/-- From the initial table, whatever reports are stored and entries cleared: no address
has two entries, a report whose strings end inside their fields can be stored, a report
that is stored goes where it belongs or leaves no trace, and a clear removes the one
entry. -/
theorem run_stateinfo {order : ByteOrder} {events : List StateEvent} {t : HostTables}
    (reached : run (step order) HostTables.init events = some t) :
    Distinct t.stateinfo ∧
    (∀ msg, Copyable msg → ∃ ret next, storeReport order t msg = some (ret, next)) ∧
    (∀ msg ret next, storeReport order t msg = some (ret, next) →
      ReportStored order msg t.stateinfo next.stateinfo ret) ∧
    ∀ vmIp, vmIp ≠ 0 → Cleared vmIp t.stateinfo (clearStateinfo t vmIp).stateinfo := by
  have distinct : Distinct t.stateinfo :=
    run_invariant (fun t : HostTables => Distinct t.stateinfo)
      (fun _ _ _ distinct stepped => step_distinct distinct stepped)
      (fun _ _ present => absurd rfl present) reached
  refine ⟨distinct, fun msg copyable => ?_, fun msg ret next stored => ?_, fun vmIp present => ?_⟩
  · obtain ⟨⟨ret, next⟩, stored⟩ :=
      Option.isSome_iff_exists.mp ((storeReport_isSome order t msg).mpr fun _ => copyable)
    exact ⟨ret, next, stored⟩
  · exact (storeReport_stored stored).1
  · exact clearStateinfo_cleared distinct present

/-- A report of the VM 10.0.0.1 with empty strings. -/
def reportOf (vmType : UInt32) : VmProcStateMsg where
  vmIpaddress := ByteOrder.little.htonl 0x0A000001
  vmType := ByteOrder.little.htonl vmType
  pcount := 0
  vmId := .zero _
  vmName := .zero _
  manageIp := .zero _
  pstate := fun _ => .zero

theorem reportOf_vmIp (vmType : UInt32) :
    ByteOrder.little.ntohl (reportOf vmType).vmIpaddress = 0x0A000001 := by
  rw [reportOf, ByteOrder.ntohl_htonl]

theorem reportOf_copyable (vmType : UInt32) : Copyable (reportOf vmType) :=
  have empty (n : Nat) : (str (Bytes.zero (n + 1))).isSome := rfl
  ⟨empty 63, empty 31, empty 15⟩

theorem reportOf_copied (vmType : UInt32) (vmstate : Slot → VmcStateinfo) :
    ∃ ret changed, setVmProcessStateInfo .little vmstate
      (reportMessage .little (reportOf vmType)) = some (ret, changed) := by
  obtain ⟨⟨ret, changed⟩, copied⟩ := Option.isSome_iff_exists.mp
    ((setVmProcessStateInfo_report _ _ vmstate).mpr fun _ => reportOf_copyable vmType)
  exact ⟨ret, changed, copied⟩

/-- A report of the VM 10.0.0.2. -/
def secondReport : VmProcStateMsg :=
  { reportOf 3 with vmIpaddress := ByteOrder.little.htonl 0x0A000002 }

/-- Two VMs report, the first of them twice, and then it is lost. -/
def twoVms : List StateEvent :=
  [.report (reportOf 3), .report secondReport, .report (reportOf 4), .clear 0x0A000001]

set_option maxRecDepth 4096 in
theorem twoVms_reached :
    ∃ t, run (step .little) HostTables.init twoVms = some t ∧
      (t.stateinfo 0).vmIp = 0 ∧ (t.stateinfo 1).vmIp = 0x0A000002 ∧ (t.stateinfo 2).vmIp = 0 :=
  exists_of_any (by decide +kernel)

theorem run_stateinfo_two :
    ∃ t, run (step .little) HostTables.init twoVms = some t ∧
      ((t.stateinfo 0).vmIp = 0 ∧ (t.stateinfo 1).vmIp = 0x0A000002 ∧ (t.stateinfo 2).vmIp = 0) ∧
      Distinct t.stateinfo ∧
      (∃ ret next, storeReport .little t secondReport = some (ret, next) ∧
        ReportStored .little secondReport t.stateinfo next.stateinfo ret) ∧
      Cleared 0x0A000002 t.stateinfo (clearStateinfo t 0x0A000002).stateinfo := by
  obtain ⟨t, reached, entries⟩ := twoVms_reached
  obtain ⟨distinct, total, stores, cleared⟩ := run_stateinfo reached
  obtain ⟨ret, next, stored⟩ := total secondReport { reportOf_copyable 3 with }
  exact ⟨t, reached, entries, distinct, ⟨ret, next, stored, stores _ _ _ stored⟩,
    cleared 0x0A000002 (by decide)⟩

/-- The entry keeps 16 bits of the 32 that a report has for the type of its VM. -/
theorem storeReport_wideType :
    ¬ ∀ (order : ByteOrder) (events : List StateEvent) (t next : HostTables)
        (msg : VmProcStateMsg) (ret : Int),
      run (step order) HostTables.init events = some t → order.ntohl msg.vmIpaddress ≠ 0 →
        storeReport order t msg = some (ret, next) → ret ≠ -1 →
          ∃ i : Slot, ret = i.val ∧
            (next.stateinfo i).vmType.toNat = (order.ntohl msg.vmType).toNat := by
  intro all
  obtain ⟨ret, changed, copied⟩ := reportOf_copied 65536 HostTables.init.stateinfo
  have stored := storeReport_of_copy copied
  have holds := (storeReport_stored stored).1
  have room : ret ≠ -1 := fun full => (holds.full.mp full 0).2 rfl
  obtain ⟨i, index, type⟩ := all .little [] HostTables.init _ (reportOf 65536) ret rfl
    (by rw [reportOf_vmIp]; decide) stored room
  obtain ⟨j, also, _, entry, _⟩ := holds.stored room
  obtain rfl : i = j := Fin.ext (by omega)
  rw [entry.vmType] at type
  exact absurd type (by decide)

section Race

/-- Where `SetVmProcessStateInfo` stands: before its first section, with its copy, or
behind its second section. -/
inductive Setter where
  | start
  | copied (ret : Int) (vmstate : Slot → VmcStateinfo)
  | done

/-- Where the loop of `TcpRecv` stands: before the search, at the entry it has found, or
behind its section. -/
inductive Clearer where
  | start
  | found (i : Option Slot)
  | done

structure Race where
  tables : HostTables
  setter : Setter
  clearer : Clearer

def Race.start (t : HostTables) : Race := ⟨t, .start, .start⟩

inductive RaceEvent where
  | copy
  | writeBack
  | search
  | clear
  deriving DecidableEq, Repr

/-- The search of `TcpRecv`, which is outside its section. -/
@[irreducible] def findEntry (stateinfo : Slot → VmcStateinfo) (vmIp : UInt32) : Option Slot :=
  Fin.find? fun i : Slot => decide ((stateinfo i).vmIp = vmIp)

/-- The section of `TcpRecv`, for the entry found. -/
def clearFound (t : HostTables) : Option Slot → HostTables
  | some i => { t with stateinfo := Function.update t.stateinfo i baseStateinfo }
  | none => t

variable (order : ByteOrder) (msg : VmProcStateMsg) (lost : UInt32)

def raceStep (s : Race) : RaceEvent → Option Race
  | .copy =>
      match s.setter with
      | .start =>
          (setVmProcessStateInfo order s.tables.stateinfo (reportMessage order msg)).map
            fun (ret, vmstate) => { s with setter := .copied ret vmstate }
      | _ => none
  | .writeBack =>
      match s.setter with
      | .copied ret vmstate =>
          some { s with
            tables := if ret = -1 then s.tables else { s.tables with stateinfo := vmstate }
            setter := .done }
      | _ => none
  | .search =>
      match s.clearer with
      | .start => some { s with clearer := .found (findEntry s.tables.stateinfo lost) }
      | _ => none
  | .clear =>
      match s.clearer with
      | .found i => some { s with tables := clearFound s.tables i, clearer := .done }
      | _ => none

/-- An entry is not cleared while a copy of the table waits to be written back. -/
def ClearOk (s : Race) : RaceEvent → Prop
  | .clear => ∀ ret vmstate i, s.setter = .copied ret vmstate → s.clearer = .found (some i) →
      ret = -1
  | _ => True

variable (t : HostTables)

/-- The report and the clear one after the other, in either order. -/
def Sequential (final : HostTables) : Prop :=
  (∃ ret next, storeReport order t msg = some (ret, next) ∧ final = clearStateinfo next lost) ∨
    ∃ ret, storeReport order (clearStateinfo t lost) msg = some (ret, final)

/-- The copy that is waiting, and the table, when the entry was cleared first. -/
def RaceInv (s : Race) : Prop :=
  match s.setter, s.clearer with
  | .start, .start => s.tables = t
  | .start, .found i => s.tables = t ∧ i = findEntry t.stateinfo lost
  | .start, .done => s.tables = clearStateinfo t lost
  | .copied ret vmstate, .start => s.tables = t ∧
      setVmProcessStateInfo order t.stateinfo (reportMessage order msg) = some (ret, vmstate)
  | .copied ret vmstate, .found i => s.tables = t ∧ i = findEntry t.stateinfo lost ∧
      setVmProcessStateInfo order t.stateinfo (reportMessage order msg) = some (ret, vmstate)
  | .copied ret vmstate, .done => s.tables = clearStateinfo t lost ∧
      (setVmProcessStateInfo order (clearStateinfo t lost).stateinfo (reportMessage order msg) =
          some (ret, vmstate) ∨
        setVmProcessStateInfo order t.stateinfo (reportMessage order msg) = some (ret, vmstate) ∧
          (ret = -1 ∨ findEntry t.stateinfo lost = none))
  | .done, .start => ∃ ret, storeReport order t msg = some (ret, s.tables)
  | .done, .found i => i = findEntry t.stateinfo lost ∧
      ∃ ret, storeReport order t msg = some (ret, s.tables)
  | .done, .done => Sequential order msg lost t s.tables

/-- The copy that is waiting was made before the entry was cleared, and has it. -/
def RaceLost (s : Race) : Prop :=
  match s.setter, s.clearer with
  | .copied ret vmstate, .done =>
      setVmProcessStateInfo order t.stateinfo (reportMessage order msg) = some (ret, vmstate) ∧
        ret ≠ -1 ∧ findEntry t.stateinfo lost ≠ none ∧ s.tables = clearStateinfo t lost
  | .done, .done => ¬ Sequential order msg lost t s.tables
  | _, _ => False

variable {order msg lost t}

theorem clearStateinfo_eq (t : HostTables) (vmIp : UInt32) :
    clearStateinfo t vmIp = clearFound t (findEntry t.stateinfo vmIp) := by
  unfold clearStateinfo findEntry
  split <;> rename_i found <;> rw [found] <;> rfl

theorem clearStateinfo_writeBack (t : HostTables) (vmIp : UInt32)
    (stateinfo : Slot → VmcStateinfo) :
    { clearStateinfo t vmIp with stateinfo } = { t with stateinfo } := by
  rw [clearStateinfo_eq]
  cases findEntry t.stateinfo vmIp <;> rfl

theorem findEntry_eq_some {stateinfo : Slot → VmcStateinfo} {vmIp : UInt32} {i : Slot}
    (found : findEntry stateinfo vmIp = some i) : (stateinfo i).vmIp = vmIp := by
  unfold findEntry at found
  simpa using (Fin.find?_eq_some_iff.mp found).1

/-- A report of another VM leaves every entry of an address where it is. -/
theorem findEntry_stored {before after : Slot → VmcStateinfo} {ret : Int}
    (stored : ReportStored order msg before after ret) (used : lost ≠ 0)
    (other : lost ≠ order.ntohl msg.vmIpaddress) :
    findEntry after lost = findEntry before lost := by
  have same (k : Slot) : (after k).vmIp = lost ↔ (before k).vmIp = lost := by
    by_cases full : ret = -1
    · rw [stored.kept full]
    · obtain ⟨i, _, place, entry, kept⟩ := stored.stored full
      by_cases here : k = i
      · subst here
        rw [entry.vmIp]
        refine ⟨fun same => absurd same.symm other, fun same => ?_⟩
        rcases place with owned | ⟨_, free, _⟩
        · exact absurd (same.symm.trans owned) other
        · exact absurd (same.symm.trans free) used
      · rw [kept k here]
  unfold findEntry
  simp only [same]

/-- The report stored first: the entry of the other VM is found where it was. -/
theorem sequential_of_stored (used : lost ≠ 0)
    (other : lost ≠ order.ntohl msg.vmIpaddress) {ret : Int} {next : HostTables}
    (stored : storeReport order t msg = some (ret, next)) :
    Sequential order msg lost t (clearFound next (findEntry t.stateinfo lost)) := by
  have holds := (storeReport_stored stored).1
  rw [← findEntry_stored holds used other, ← clearStateinfo_eq]
  exact Or.inl ⟨ret, next, stored, rfl⟩

theorem clearFound_some (t : HostTables) (i : Slot) :
    (clearFound t (some i)).stateinfo = Function.update t.stateinfo i baseStateinfo := rfl

theorem clearStateinfo_found {i : Slot} (found : findEntry t.stateinfo lost = some i) :
    ((clearStateinfo t lost).stateinfo i).vmIp = 0 := by
  rw [clearStateinfo_eq, found, clearFound_some, Function.update_self]
  rfl

/-- Writing back a copy that has the entry restores it: no order of the two does that. -/
theorem not_sequential_of_lost (used : lost ≠ 0)
    (other : lost ≠ order.ntohl msg.vmIpaddress) {ret : Int} {next : HostTables}
    (stored : storeReport order t msg = some (ret, next))
    (present : findEntry t.stateinfo lost ≠ none) : ¬ Sequential order msg lost t next := by
  obtain ⟨i, found⟩ := Option.ne_none_iff_exists'.mp present
  have again := (findEntry_stored (storeReport_stored stored).1 used other).trans found
  have owned := findEntry_eq_some again
  rintro (⟨_, before, first, final⟩ | ⟨last, second⟩)
  · obtain rfl : next = before := congrArg Prod.snd (Option.some.inj (stored.symm.trans first))
    have cleared := clearStateinfo_found again
    rw [← final, owned] at cleared
    exact used cleared
  · have after := (storeReport_stored second).1
    have cleared := clearStateinfo_found found
    by_cases full : last = -1
    · rw [← after.kept full, owned] at cleared
      exact used cleared
    · obtain ⟨j, _, _, entry, kept⟩ := after.stored full
      by_cases here : i = j
      · rw [← here] at entry
        exact other (owned.symm.trans entry.vmIp)
      · rw [← kept i here, owned] at cleared
        exact used cleared

/-- The section that copies the table. -/
theorem copy_kept {s next : Race} (inv : RaceInv order msg lost t s)
    (stepped : raceStep order msg lost s .copy = some next) : RaceInv order msg lost t next := by
  obtain ⟨tables, setter, clearer⟩ := s
  cases setter with
  | start =>
      obtain ⟨⟨ret, vmstate⟩, copied, same⟩ := Option.map_eq_some_iff.mp stepped
      cases same
      cases clearer with
      | start =>
          obtain rfl : tables = t := inv
          exact ⟨rfl, copied⟩
      | found i =>
          obtain ⟨same, found⟩ : tables = t ∧ i = findEntry t.stateinfo lost := inv
          subst same
          exact ⟨rfl, found, copied⟩
      | done =>
          have same : tables = clearStateinfo t lost := inv
          rw [same] at copied
          exact ⟨same, Or.inl copied⟩
  | copied ret vmstate => cases stepped
  | done => cases stepped

/-- The section that writes the copy back. -/
theorem writeBack_kept (used : lost ≠ 0) (other : lost ≠ order.ntohl msg.vmIpaddress)
    {s next : Race} (inv : RaceInv order msg lost t s)
    (stepped : raceStep order msg lost s .writeBack = some next) :
    RaceInv order msg lost t next := by
  obtain ⟨tables, setter, clearer⟩ := s
  cases setter with
  | start => cases stepped
  | copied ret vmstate =>
      cases stepped
      cases clearer with
      | start =>
          obtain ⟨same, copied⟩ : tables = t ∧ _ := inv
          subst same
          exact ⟨ret, storeReport_of_copy copied⟩
      | found i =>
          obtain ⟨same, found, copied⟩ : tables = t ∧ _ ∧ _ := inv
          subst same
          exact ⟨found, ret, storeReport_of_copy copied⟩
      | done =>
          obtain ⟨same, waiting⟩ : tables = clearStateinfo t lost ∧ (_ ∨ _) := inv
          change Sequential order msg lost t
            (if ret = -1 then tables else { tables with stateinfo := vmstate })
          rw [same]
          rcases waiting with first | ⟨copied, full | absent⟩
          · exact Or.inr ⟨ret, storeReport_of_copy first⟩
          · have final := sequential_of_stored used other (storeReport_of_copy copied)
            rw [if_pos full, ← clearStateinfo_eq] at final
            rwa [if_pos full]
          · have final := sequential_of_stored used other (storeReport_of_copy copied)
            rw [absent] at final
            rw [clearStateinfo_eq, absent]
            exact final
  | done => cases stepped

/-- The search for the lost VM, outside the sections. -/
theorem search_kept (used : lost ≠ 0) (other : lost ≠ order.ntohl msg.vmIpaddress)
    {s next : Race} (inv : RaceInv order msg lost t s)
    (stepped : raceStep order msg lost s .search = some next) : RaceInv order msg lost t next := by
  obtain ⟨tables, setter, clearer⟩ := s
  cases clearer with
  | start =>
      cases stepped
      cases setter with
      | start =>
          obtain rfl : tables = t := inv
          exact ⟨rfl, rfl⟩
      | copied ret vmstate =>
          obtain ⟨same, copied⟩ : tables = t ∧ _ := inv
          subst same
          exact ⟨rfl, rfl, copied⟩
      | done =>
          obtain ⟨ret, stored⟩ : ∃ ret, storeReport order t msg = some (ret, tables) := inv
          exact ⟨findEntry_stored (storeReport_stored stored).1 used other, ret, stored⟩
  | found i => cases stepped
  | done => cases stepped

/-- The section that clears the entry found. -/
theorem clear_kept (used : lost ≠ 0) (other : lost ≠ order.ntohl msg.vmIpaddress)
    {s next : Race} (inv : RaceInv order msg lost t s) (allowed : ClearOk s .clear)
    (stepped : raceStep order msg lost s .clear = some next) : RaceInv order msg lost t next := by
  obtain ⟨tables, setter, clearer⟩ := s
  cases clearer with
  | start => cases stepped
  | found i =>
      cases stepped
      cases setter with
      | start =>
          obtain ⟨same, found⟩ : tables = t ∧ i = findEntry t.stateinfo lost := inv
          subst same found
          exact (clearStateinfo_eq tables lost).symm
      | copied ret vmstate =>
          obtain ⟨same, found, copied⟩ : tables = t ∧ i = findEntry t.stateinfo lost ∧ _ := inv
          subst same
          refine ⟨by rw [found, ← clearStateinfo_eq], Or.inr ⟨copied, ?_⟩⟩
          cases i with
          | none => exact Or.inr found.symm
          | some i => exact Or.inl (allowed ret vmstate i rfl rfl)
      | done =>
          obtain ⟨found, ret, stored⟩ : i = findEntry t.stateinfo lost ∧
            ∃ ret, storeReport order t msg = some (ret, tables) := inv
          subst found
          exact sequential_of_stored used other stored
  | done => cases stepped

theorem raceStep_kept (used : lost ≠ 0)
    (other : lost ≠ order.ntohl msg.vmIpaddress) {s next : Race} {event : RaceEvent}
    (inv : RaceInv order msg lost t s) (allowed : ClearOk s event)
    (stepped : raceStep order msg lost s event = some next) : RaceInv order msg lost t next := by
  cases event with
  | copy => exact copy_kept inv stepped
  | writeBack => exact writeBack_kept used other inv stepped
  | search => exact search_kept used other inv stepped
  | clear => exact clear_kept used other inv allowed stepped

theorem raceStep_lost {s next : Race} {event : RaceEvent} (inv : RaceInv order msg lost t s)
    (refused : ¬ ClearOk s event) (stepped : raceStep order msg lost s event = some next) :
    RaceLost order msg lost t next := by
  obtain ⟨tables, setter, clearer⟩ := s
  cases event with
  | copy => exact absurd trivial refused
  | writeBack => exact absurd trivial refused
  | search => exact absurd trivial refused
  | clear =>
      simp only [ClearOk, not_forall] at refused
      obtain ⟨ret, vmstate, i, rfl, rfl, nonempty⟩ := refused
      cases stepped
      obtain ⟨same, found, copied⟩ :
        tables = t ∧ some i = findEntry t.stateinfo lost ∧ _ := inv
      subst same
      refine ⟨copied, nonempty, ?_, by rw [found, ← clearStateinfo_eq]⟩
      rw [← found]
      exact Option.some_ne_none i

theorem raceStep_stuck (used : lost ≠ 0)
    (other : lost ≠ order.ntohl msg.vmIpaddress) {s next : Race} {event : RaceEvent}
    (inv : RaceLost order msg lost t s)
    (stepped : raceStep order msg lost s event = some next) : RaceLost order msg lost t next := by
  obtain ⟨tables, setter, clearer⟩ := s
  cases setter with
  | start => exact inv.elim
  | copied ret vmstate =>
      cases clearer with
      | start => exact inv.elim
      | found i => exact inv.elim
      | done =>
          obtain ⟨copied, nonempty, present, same⟩ :
            _ ∧ ret ≠ -1 ∧ _ ∧ tables = clearStateinfo t lost := inv
          cases event with
          | copy => cases stepped
          | writeBack =>
              cases stepped
              have never := not_sequential_of_lost used other (storeReport_of_copy copied) present
              rw [if_neg nonempty] at never
              change ¬ Sequential order msg lost t
                (if ret = -1 then tables else { tables with stateinfo := vmstate })
              rwa [if_neg nonempty, same, clearStateinfo_writeBack]
          | search => cases stepped
          | clear => cases stepped
  | done =>
      cases clearer with
      | start => exact inv.elim
      | found i => exact inv.elim
      | done => cases event <;> cases stepped

/-- Stored and cleared one after the other, the table has the report, and not the VM
that is lost. -/
theorem Sequential.contains (present : order.ntohl msg.vmIpaddress ≠ 0) (used : lost ≠ 0)
    (other : lost ≠ order.ntohl msg.vmIpaddress) (distinct : Distinct t.stateinfo)
    (room : HasEntry t.stateinfo (order.ntohl msg.vmIpaddress)) {final : HostTables}
    (sequential : Sequential order msg lost t final) :
    (∃ i, Stored order msg (final.stateinfo i)) ∧ ∀ k, (final.stateinfo k).vmIp ≠ lost := by
  have placed {before : Slot → VmcStateinfo} {after : Slot → VmcStateinfo} {ret : Int}
      (stored : ReportStored order msg before after ret)
      (room : HasEntry before (order.ntohl msg.vmIpaddress)) : ret ≠ -1 := by
    intro full
    obtain ⟨i, place⟩ := room
    obtain ⟨absent, taken⟩ := stored.full.mp full i
    exact place.elim absent taken
  rcases sequential with ⟨_, next, stored, last⟩ | ⟨_, stored⟩
  · obtain ⟨holds, kept⟩ := storeReport_stored stored
    rw [last]
    obtain ⟨absent, others⟩ := clearStateinfo_cleared (kept distinct) used
    obtain ⟨i, _, _, entry, _⟩ := holds.stored (placed holds room)
    refine ⟨⟨i, ?_⟩, absent⟩
    rwa [others i (by rw [entry.vmIp]; exact present) (by rw [entry.vmIp]; exact other.symm)]
  · have holds := (storeReport_stored stored).1
    obtain ⟨absent, others⟩ := clearStateinfo_cleared distinct used
    have roomStill : HasEntry (clearStateinfo t lost).stateinfo (order.ntohl msg.vmIpaddress) := by
      obtain ⟨i, place⟩ := room
      rw [clearStateinfo_eq]
      cases findEntry t.stateinfo lost with
      | none => exact ⟨i, place⟩
      | some j =>
          refine ⟨i, ?_⟩
          rw [clearFound_some]
          by_cases here : i = j
          · rw [here, Function.update_self]
            exact Or.inr rfl
          · rwa [Function.update_of_ne here]
    obtain ⟨i, _, _, entry, unchanged⟩ := holds.stored (placed holds roomStill)
    refine ⟨⟨i, entry⟩, fun k => ?_⟩
    by_cases here : k = i
    · rw [here, entry.vmIp]
      exact other.symm
    · rw [unchanged k here]
      exact absent k

end Race

/-- Whatever the order of the sections, the report and the clear come out as one after
the other exactly when no entry is cleared while a copy waits to be written back, and
then the table has the report, and no entry of the lost VM. -/
theorem race_sequential {order : ByteOrder} {msg : VmProcStateMsg}
    (present : order.ntohl msg.vmIpaddress ≠ 0) {lost : UInt32} (used : lost ≠ 0)
    (other : lost ≠ order.ntohl msg.vmIpaddress)
    {t : HostTables} {events : List RaceEvent} {s : Race}
    (reached : run (raceStep order msg lost) (Race.start t) events = some s)
    (stored : s.setter = .done) (cleared : s.clearer = .done) :
    (Sequential order msg lost t s.tables ↔
      AllSteps (raceStep order msg lost) ClearOk (Race.start t) events) ∧
    (AllSteps (raceStep order msg lost) ClearOk (Race.start t) events →
      Distinct t.stateinfo → HasEntry t.stateinfo (order.ntohl msg.vmIpaddress) →
        (∃ i, Stored order msg (s.tables.stateinfo i)) ∧
          ∀ k, (s.tables.stateinfo k).vmIp ≠ lost) := by
  obtain ⟨tables, setter, clearer⟩ := s
  obtain rfl : setter = .done := stored
  obtain rfl : clearer = .done := cleared
  obtain ⟨allowed, sequential⟩ | ⟨refused, never⟩ :=
    run_split (RaceInv order msg lost t) (RaceLost order msg lost t)
      (fun _ _ _ inv allowed stepped => raceStep_kept used other inv allowed stepped)
      (fun _ _ _ inv refused stepped => raceStep_lost inv refused stepped)
      (fun _ _ _ inv stepped => raceStep_stuck used other inv stepped)
      (show RaceInv order msg lost t (Race.start t) from rfl) reached
  · have sequential : Sequential order msg lost t tables := sequential
    exact ⟨iff_of_true sequential allowed, fun _ distinct room =>
      sequential.contains present used other distinct room⟩
  · have never : ¬ Sequential order msg lost t tables := never
    exact ⟨iff_of_false never refused, fun allowed => absurd allowed refused⟩

/-- The VM 10.0.0.2 has the first entry, and the others are free. -/
def otherVm : HostTables :=
  { HostTables.init with
    stateinfo := Function.update (fun _ => baseStateinfo) 0
      { baseStateinfo with vmIp := 0x0A000002 } }

section Run

variable {order : ByteOrder} {msg : VmProcStateMsg} {lost : UInt32} {t : HostTables}
  {setter : Setter} {clearer : Clearer} {ret : Int} {vmstate : Slot → VmcStateinfo}

theorem raceStep_copy
    (copied : setVmProcessStateInfo order t.stateinfo (reportMessage order msg) =
      some (ret, vmstate)) :
    raceStep order msg lost ⟨t, .start, clearer⟩ .copy = some ⟨t, .copied ret vmstate, clearer⟩ :=
  Option.map_eq_some_iff.mpr ⟨_, copied, rfl⟩

theorem raceStep_writeBack :
    raceStep order msg lost ⟨t, .copied ret vmstate, clearer⟩ .writeBack =
      some ⟨if ret = -1 then t else { t with stateinfo := vmstate }, .done, clearer⟩ := rfl

theorem raceStep_search :
    raceStep order msg lost ⟨t, setter, .start⟩ .search =
      some ⟨t, setter, .found (findEntry t.stateinfo lost)⟩ := rfl

theorem raceStep_clear {i : Option Slot} :
    raceStep order msg lost ⟨t, setter, .found i⟩ .clear =
      some ⟨clearFound t i, setter, .done⟩ := rfl

end Run

theorem race_sequential_clearFirst :
    ∃ s, run (raceStep .little (reportOf 3) 0x0A000002) (Race.start otherVm)
        [.search, .clear, .copy, .writeBack] = some s ∧
      (∃ i, Stored .little (reportOf 3) (s.tables.stateinfo i)) ∧
        ∀ k, (s.tables.stateinfo k).vmIp ≠ 0x0A000002 := by
  let cleared := clearFound otherVm (findEntry otherVm.stateinfo 0x0A000002)
  obtain ⟨ret, vmstate, copied⟩ := reportOf_copied 3 cleared.stateinfo
  have reached : run (raceStep .little (reportOf 3) 0x0A000002) (Race.start otherVm)
      [.search, .clear, .copy, .writeBack] =
        some ⟨if ret = -1 then cleared else { cleared with stateinfo := vmstate }, .done, .done⟩ := by
    rw [run_cons, Race.start, raceStep_search, Option.bind_some, run_cons, raceStep_clear,
      Option.bind_some, run_cons, raceStep_copy copied, Option.bind_some, run_cons,
      raceStep_writeBack, Option.bind_some, run_nil]
  have allowed : AllSteps (raceStep .little (reportOf 3) 0x0A000002) ClearOk (Race.start otherVm)
      [.search, .clear, .copy, .writeBack] := by
    intro found search
    refine ⟨trivial, fun _ _ => ⟨?_, fun _ _ => ⟨trivial, fun _ _ => ⟨trivial, trivial⟩⟩⟩⟩
    have start : found.setter = .start := by rw [← Option.some.inj search]; rfl
    intro _ _ _ waiting
    rw [start] at waiting
    cases waiting
  have distinct : Distinct otherVm.stateinfo := by
    have free (k : Slot) (present : (otherVm.stateinfo k).vmIp ≠ 0) : k = 0 := by
      by_contra later
      simp only [otherVm, ne_eq, later, not_false_eq_true, Function.update_of_ne] at present
      exact present rfl
    intro i j present same
    rw [free i present, free j (same ▸ present)]
  exact ⟨_, reached, (race_sequential (by decide) (by decide) (by decide) reached rfl rfl).2 allowed
    distinct ⟨1, Or.inr rfl⟩⟩

/-- The copy is made while the lost VM still has its entry, and written back after it is
cleared. -/
theorem race_entryRestored :
    ¬ ∀ (order : ByteOrder) (msg : VmProcStateMsg) (lost : UInt32) (t : HostTables)
        (events : List RaceEvent) (s : Race), order.ntohl msg.vmIpaddress ≠ 0 → lost ≠ 0 →
      lost ≠ order.ntohl msg.vmIpaddress →
      run (raceStep order msg lost) (Race.start t) events = some s →
      s.setter = .done → s.clearer = .done → Sequential order msg lost t s.tables := by
  intro all
  obtain ⟨ret, vmstate, copied⟩ := reportOf_copied 3 otherVm.stateinfo
  have holds := (setVmProcessStateInfo_stored copied).1
  have room : ret ≠ -1 := fun full => (holds.full.mp full 1).2 rfl
  let cleared := clearFound otherVm (findEntry otherVm.stateinfo 0x0A000002)
  have reached : run (raceStep .little (reportOf 3) 0x0A000002) (Race.start otherVm)
      [.copy, .search, .clear, .writeBack] =
        some ⟨if ret = -1 then cleared else { cleared with stateinfo := vmstate }, .done, .done⟩ := by
    rw [run_cons, Race.start, raceStep_copy copied, Option.bind_some, run_cons, raceStep_search,
      Option.bind_some, run_cons, raceStep_clear, Option.bind_some, run_cons, raceStep_writeBack,
      Option.bind_some, run_nil]
  have sequential := all _ _ _ _ _ _ (by decide) (by decide) (by decide) reached rfl rfl
  have present : findEntry otherVm.stateinfo 0x0A000002 ≠ none := by decide +kernel
  have never := not_sequential_of_lost (by decide) (by decide) (storeReport_of_copy copied) present
  rw [if_neg room] at never
  rw [show cleared = clearStateinfo otherVm 0x0A000002 from (clearStateinfo_eq ..).symm,
    if_neg room, clearStateinfo_writeBack] at sequential
  exact never sequential

end VnfMonitoring.HostStateinfo
