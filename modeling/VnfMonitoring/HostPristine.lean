import VnfMonitoring.HostStateinfo

set_option autoImplicit false

/- The free entries of the table of the VMs' states, which the search of
`ProcessVmProcStateInfo` for a VM without an address finds. -/
namespace VnfMonitoring.HostPristine

open VnfMonitoring.Memory VnfMonitoring.Runs VnfMonitoring.Bpapp VnfMonitoring.HostSock
  VnfMonitoring.HostReport VnfMonitoring.ReportRoundTrip VnfMonitoring.HostStateinfo

/-- An entry that says nothing but the base state of the processes. -/
structure Pristine (entry : VmcStateinfo) : Prop where
  vmType : entry.vmType = 0
  pcount : entry.pcount = 0
  vmId : str entry.vmId = some []
  vmName : str entry.vmName = some []
  manageIp : str entry.manageIp = some []
  pstate : entry.pstate = basePState

def FreePristine (t : HostTables) : Prop :=
  ∀ k, (t.stateinfo k).vmIp = 0 → Pristine (t.stateinfo k)

/-- A report that would leave an entry pristine. -/
structure Blank (order : ByteOrder) (msg : VmProcStateMsg) : Prop where
  vmType : (order.ntohl msg.vmType).toUInt16 = 0
  pcount : (order.ntohl msg.pcount).toUInt16 = 0
  vmId : str msg.vmId = some []
  vmName : str msg.vmName = some []
  manageIp : str msg.manageIp = some []
  pstate : (fun k => ntohState order (msg.pstate k)) = basePState

/-- A report of the address 0 needs a table without a free entry, or nothing to say. -/
def EventOk (order : ByteOrder) (t : HostTables) : StateEvent → Prop
  | .report msg => order.ntohl msg.vmIpaddress ≠ 0 ∨ (∀ k, (t.stateinfo k).vmIp ≠ 0) ∨
      Blank order msg
  | .clear _ => True

theorem baseStateinfo_pristine : Pristine baseStateinfo := ⟨rfl, rfl, rfl, rfl, rfl, rfl⟩

theorem init_pristine : FreePristine HostTables.init := fun _ _ => baseStateinfo_pristine

section Step

variable {order : ByteOrder} {t next : HostTables} {msg : VmProcStateMsg}

/-- What a stored report says of its entry. -/
theorem pristine_iff_blank {entry : VmcStateinfo} (stored : Stored order msg entry) :
    Pristine entry ↔ Blank order msg := by
  have pstate : entry.pstate = fun k => ntohState order (msg.pstate k) := funext stored.pstate
  constructor
  · intro pristine
    exact ⟨stored.vmType ▸ pristine.vmType, stored.pcount ▸ pristine.pcount,
      stored.vmId ▸ pristine.vmId, stored.vmName ▸ pristine.vmName,
      stored.manageIp ▸ pristine.manageIp, pstate ▸ pristine.pstate⟩
  · intro blank
    exact ⟨stored.vmType.trans blank.vmType, stored.pcount.trans blank.pcount,
      stored.vmId.trans blank.vmId, stored.vmName.trans blank.vmName,
      stored.manageIp.trans blank.manageIp, pstate.trans blank.pstate⟩

theorem report_pristine {ret : Int} (pristine : FreePristine t)
    (ok : EventOk order t (.report msg)) (stored : storeReport order t msg = some (ret, next)) :
    FreePristine next := by
  have holds := (storeReport_stored stored).1
  by_cases full : ret = -1
  · intro k
    rw [holds.kept full]
    exact pristine k
  · obtain ⟨i, _, place, entry, others⟩ := holds.stored full
    intro k free
    by_cases here : k = i
    · subst here
      have zero : order.ntohl msg.vmIpaddress = 0 := entry.vmIp.symm.trans free
      rcases ok with used | none_ | blank
      · exact absurd zero used
      · rcases place with owned | ⟨_, empty, _⟩
        · exact absurd (owned.trans zero) (none_ k)
        · exact absurd empty (none_ k)
      · exact (pristine_iff_blank entry).mpr blank
    · rw [others k here] at free ⊢
      exact pristine k free

/-- A report of the address 0 lands in a free entry and leaves it free. -/
theorem report_spoils {ret : Int} (bad : ¬ EventOk order t (.report msg))
    (stored : storeReport order t msg = some (ret, next)) : ¬ FreePristine next := by
  intro pristine
  rw [EventOk, not_or, not_or, not_not] at bad
  obtain ⟨zero, room, said⟩ := bad
  have holds := (storeReport_stored stored).1
  have place : ret ≠ -1 := fun full => room fun k => (holds.full.mp full k).2
  obtain ⟨i, _, _, entry, _⟩ := holds.stored place
  exact said ((pristine_iff_blank entry).mp (pristine i (entry.vmIp.trans zero)))

theorem clear_pristine (pristine : FreePristine t) (vmIp : UInt32) :
    FreePristine (clearStateinfo t vmIp) := by
  rw [clearStateinfo_eq]
  cases findEntry t.stateinfo vmIp with
  | none => exact pristine
  | some i =>
      intro k free
      rw [clearFound_some] at free ⊢
      by_cases here : k = i
      · rw [here, Function.update_self]
        exact baseStateinfo_pristine
      · rw [Function.update_of_ne here] at free ⊢
        exact pristine k free

theorem step_pristine {event : StateEvent} (pristine : FreePristine t)
    (ok : EventOk order t event) (stepped : step order t event = some next) :
    FreePristine next := by
  cases event with
  | report msg =>
      obtain ⟨⟨ret, _⟩, stored, rfl⟩ := Option.map_eq_some_iff.mp stepped
      exact report_pristine pristine ok stored
  | clear vmIp =>
      obtain rfl : clearStateinfo t vmIp = next := Option.some.inj stepped
      exact clear_pristine pristine vmIp

theorem step_spoils {event : StateEvent} (bad : ¬ EventOk order t event)
    (stepped : step order t event = some next) : ¬ FreePristine next := by
  cases event with
  | report msg =>
      obtain ⟨⟨ret, _⟩, stored, rfl⟩ := Option.map_eq_some_iff.mp stepped
      exact report_spoils bad stored
  | clear vmIp => exact absurd trivial bad

end Step

/-- The free entries are pristine all along a run exactly when no report of the address 0 that
says anything comes while an entry is free. -/
theorem run_pristine (order : ByteOrder) (events : List StateEvent) :
    (∀ taken, taken <+: events → ∀ t, run (step order) HostTables.init taken = some t →
      FreePristine t) ↔ AllSteps (step order) (EventOk order) HostTables.init events :=
  run_exact FreePristine FreePristine (fun _ pristine => pristine)
    (fun _ _ _ pristine ok stepped => step_pristine pristine ok stepped)
    (fun _ _ _ _ bad stepped => step_spoils bad stepped) init_pristine events

/-- A report of the address 0. -/
def reportNowhere : VmProcStateMsg := { reportOf 3 with vmIpaddress := 0 }

theorem run_spoils : ∃ t, run (step .little) HostTables.init [.report reportNowhere] = some t ∧
    ¬ FreePristine t := by
  obtain ⟨⟨ret, t⟩, stored⟩ := Option.isSome_iff_exists.mp
    ((storeReport_isSome .little HostTables.init reportNowhere).mpr fun _ =>
      { reportOf_copyable 3 with })
  refine ⟨t, ?_, report_spoils ?_ stored⟩
  · rw [run_singleton, step, stored]
    rfl
  · rintro (used | none_ | blank)
    · exact used (by decide)
    · exact none_ 0 rfl
    · exact absurd blank.vmType (by decide)

end VnfMonitoring.HostPristine
