import VnfMonitoring.HostRows
import VnfMonitoring.Network
import VnfMonitoring.PqmbQuery

set_option autoImplicit false

/- Where the host's data comes from: every entry of its table, every copy of it and every
row that is written of a copy holds one report of one agent, or none. -/
namespace VnfMonitoring.NetworkEntries

open VnfMonitoring.Memory VnfMonitoring.Socket VnfMonitoring.TcpFrame VnfMonitoring.Bpapp
  VnfMonitoring.HostSock VnfMonitoring.HostReport VnfMonitoring.HostSystem VnfMonitoring.HostTable
  VnfMonitoring.HostConnection VnfMonitoring.HostStateinfo VnfMonitoring.HostTcpStatus
  VnfMonitoring.HostProcess VnfMonitoring.Pqmb VnfMonitoring.VmctReport
  VnfMonitoring.ReportRoundTrip VnfMonitoring.Pipes
  VnfMonitoring.Runs VnfMonitoring.Network

section Entries

variable {order : ByteOrder} {traced : Bool} {Sent : VmProcStateMsg → Prop}

/-- An entry that no report has filled since it was reset, or that one has. -/
def EntryFrom (order : ByteOrder) (Sent : VmProcStateMsg → Prop) (entry : VmcStateinfo) : Prop :=
  entry = baseStateinfo ∨ ∃ msg, Sent msg ∧ Stored order msg entry

def TableFrom (order : ByteOrder) (Sent : VmProcStateMsg → Prop)
    (stateinfo : Slot → VmcStateinfo) : Prop :=
  ∀ i, EntryFrom order Sent (stateinfo i)

/-- The copy that waits to be written back. -/
def HeldFrom (order : ByteOrder) (Sent : VmProcStateMsg → Prop) : Handler → Prop
  | .stored _ _ vmstate => TableFrom order Sent vmstate
  | _ => True

theorem EntryFrom.mono {More : VmProcStateMsg → Prop} (more : ∀ msg, Sent msg → More msg)
    {entry : VmcStateinfo} (entryFrom : EntryFrom order Sent entry) :
    EntryFrom order More entry := by
  rcases entryFrom with base | ⟨msg, sent, stored⟩
  · exact Or.inl base
  · exact Or.inr ⟨msg, more msg sent, stored⟩

theorem TableFrom.reset {stateinfo : Slot → VmcStateinfo}
    (tableFrom : TableFrom order Sent stateinfo) {after : Slot → VmcStateinfo}
    (resets : ∀ j, after j = stateinfo j ∨ after j = baseStateinfo) :
    TableFrom order Sent after := by
  intro j
  rcases resets j with same | base
  · rw [same]
    exact tableFrom j
  · exact Or.inl base

end Entries

section Rows

variable {order : ByteOrder} {call : ProcessCall}

/-- A row that a call writes: that of a VM of the snapshot with the processes found for its
address, or that of a machine which the snapshot lacks. -/
inductive RowIn (order : ByteOrder) (call : ProcessCall) (row : VmStateRow) : Prop where
  | cloud (i : Slot) (listed : ListedAs call row.vmId i)
      (carries : Carries order row (processData call i).1 (processData call i).2)
  | baremetal (j : Slot) (unlisted : Unlisted call j)
      (named : str (call.vminfo j).vmId = some row.vmId)
      (carries : Carries order row (call.vminfo j).pcount (call.vminfo j).pstate)

/-- The rows of a call have its time. -/
structure WrittenBy (order : ByteOrder) (call : ProcessCall) (row : VmStateRow) : Prop where
  time : str call.ttime = some row.createTime
  origin : RowIn order call row

end Rows

section Runs

variable {order : ByteOrder} {traced : Bool} {s next : System}

/-- The reports that agents have sent. -/
def Reported (s : System) (msg : VmProcStateMsg) : Prop := ∃ c, msg ∈ (s.pipes c).sent

/-- Entries, the copy that waits to be written back and the copies that rows were written of
hold reports that were sent, and rows what a call writes. -/
structure EntriesInv (order : ByteOrder) (s : System) : Prop where
  wire : WireInv order s
  entries : TableFrom order (Reported s) s.host.tables.stateinfo
  copied : HeldFrom order (Reported s) s.host.handler
  calls : ∀ call ∈ s.calls, TableFrom order (Reported s) call.vminfo
  rows : ∀ row ∈ s.table, ∃ call ∈ s.calls, WrittenBy order call row

theorem HeldFrom.mono {Sent More : VmProcStateMsg → Prop} (more : ∀ msg, Sent msg → More msg)
    {handler : Handler} (held : HeldFrom order Sent handler) : HeldFrom order More handler := by
  cases handler with
  | stored request ret vmstate => exact fun i => (held i).mono more
  | _ => trivial

/-- A message that is the report of a call of `SendProcStateReq`, sent on some connection. -/
def SentFor (order : ByteOrder) (s : System) (call : ReportCall) (msg : VmProcStateMsg) : Prop :=
  ReportOf order call.conf call.up msg ∧ Reported s msg

/-- A row that shows no process. -/
def NoneShown (row : VmStateRow) : Prop :=
  row.processCount = 0 ∧ ∀ k, row.vmProcess k = ([45], 0)

/-- A row that shows the configured processes of an agent as it has checked them. -/
structure Shown (row : VmStateRow) (call : ReportCall) : Prop where
  count : row.processCount.toNat = call.conf.vmctProc.pcount.toNat
  configured : ∀ k : Fin maxVmProcNum, k.val < call.conf.vmctProc.pcount.toNat →
    str (call.conf.vmctProc.pstate k).processName = some (row.vmProcess k).1 ∧
      (row.vmProcess k).2 = (checkedState call.up k).toUInt16
  others : ∀ k : Fin maxVmProcNum, call.conf.vmctProc.pcount.toNat ≤ k.val →
    row.vmProcess k = ([45], 0)

theorem EntryFrom.report (inv : WireInv order s) {entry : VmcStateinfo}
    (entryFrom : EntryFrom order (Reported s) entry) :
    entry = baseStateinfo ∨ ∃ call msg, SentFor order s call msg ∧ Stored order msg entry ∧
      EntryOf call.conf call.up msg entry := by
  rcases entryFrom with base | ⟨msg, ⟨c, sent⟩, stored⟩
  · exact Or.inl base
  · obtain ⟨call, report⟩ := inv.formed c msg sent
    exact Or.inr ⟨call, msg, ⟨report, c, sent⟩, stored, stored.entryOf call.reportable report⟩

theorem process_unused {row : VmStateRow} {pcount : UInt16}
    {pstate : Fin maxVmProcNum → ProcessState} (carries : Carries order row pcount pstate)
    {k : Fin maxVmProcNum} (unused : pstate k = ⟨dash 63, 0⟩) : row.vmProcess k = ([45], 0) := by
  have read : str (pstate k).processName = some [45] := by
    rw [unused]
    decide
  have name := carries.name k
  rw [PqmbQuery.processName_of_str read] at name
  apply Prod.ext
  · exact (Option.some_inj.mp name).symm
  · rw [carries.state, unused]
    rfl

theorem noneShown_base {row : VmStateRow} (carries : Carries order row 0 basePState) :
    NoneShown row :=
  ⟨carries.count, fun _ => process_unused carries rfl⟩

theorem shown_of_carries {row : VmStateRow} {entry : VmcStateinfo} {call : ReportCall}
    {msg : VmProcStateMsg} (carries : Carries order row entry.pcount entry.pstate)
    (entryOf : EntryOf call.conf call.up msg entry) : Shown row call where
  count := by rw [carries.count, entryOf.pcount]
  configured := by
    intro k inside
    obtain ⟨name, state⟩ := entryOf.configured k inside
    obtain ⟨chars, read⟩ := Option.isSome_iff_exists.mp (call.reportable.names k inside)
    have printed := carries.name k
    rw [PqmbQuery.processName_of_str (name.trans read)] at printed
    exact ⟨read.trans printed, by rw [carries.state, state]⟩
  others := fun k outside => process_unused carries (entryOf.others k outside)

/-- A row in terms of the reports. -/
theorem EntriesInv.row {s : System} (inv : EntriesInv order s) {row : VmStateRow}
    (member : row ∈ s.table) :
    ∃ call ∈ s.calls, str call.ttime = some row.createTime ∧
      ((∃ i, ListedAs call row.vmId i ∧ (NoneShown row ∨ ∃ report msg,
          SentFor order s report msg ∧ report.conf.vmctIp = (call.vstatus i).vmIpaddr ∧
            Shown row report)) ∨
        ∃ report msg, SentFor order s report msg ∧
          inSnapshot call report.conf.vmctIp = false ∧ str msg.vmId = some row.vmId ∧
            Shown row report) := by
  obtain ⟨call, called, time, origin⟩ := inv.rows row member
  refine ⟨call, called, time, ?_⟩
  have entry (j : Slot) := (inv.calls call called j).report inv.wire
  cases origin with
  | cloud i listed carries =>
      refine Or.inl ⟨i, listed, ?_⟩
      unfold processData at carries
      cases found : findEntry call.vminfo (call.vstatus i).vmIpaddr with
      | none =>
          rw [found] at carries
          exact Or.inl (noneShown_base carries)
      | some j =>
          rw [found] at carries
          rcases entry j with base | ⟨report, msg, sent, _, entryOf⟩
          · simp only [base] at carries
            exact Or.inl (noneShown_base carries)
          · refine Or.inr ⟨report, msg, sent, ?_, shown_of_carries carries entryOf⟩
            rw [← entryOf.vmIp, findEntry_eq_some found]
  | baremetal j unlisted named carries =>
      rcases entry j with base | ⟨report, msg, sent, stored, entryOf⟩
      · have blank : (call.vminfo j).vmIp = 0 := by
          rw [base]
          rfl
        exact absurd blank unlisted.1
      · refine Or.inr ⟨report, msg, sent, ?_, ?_, shown_of_carries carries entryOf⟩
        · rw [← entryOf.vmIp]
          exact unlisted.2
        · rw [← stored.vmId, named]

end Runs

end VnfMonitoring.NetworkEntries
