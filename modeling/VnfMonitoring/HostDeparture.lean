import VnfMonitoring.HostReply
import VnfMonitoring.ReportSafety

set_option autoImplicit false

/- What remains of a VM whose connection is lost: `TcpRecv` clears its entry, but a
report of it that is still queued, or in the copy that `SetVmProcessStateInfo` works on,
brings the entry back. -/
namespace VnfMonitoring.HostDeparture

open VnfMonitoring.Memory VnfMonitoring.Socket VnfMonitoring.TcpFrame VnfMonitoring.Bpapp
  VnfMonitoring.HostSock VnfMonitoring.HostReport VnfMonitoring.HostSystem VnfMonitoring.HostTable
  VnfMonitoring.HostRegistration VnfMonitoring.ReportSafety VnfMonitoring.Runs

section Store

/-- No address has two entries. -/
def Distinct (vmstate : Slot → VmcStateinfo) : Prop :=
  ∀ i j, (vmstate i).vmIp ≠ 0 → (vmstate i).vmIp = (vmstate j).vmIp → i = j

/-- A report either finds the entry of its address or takes a free one, or changes no
address. -/
def StoredAs (vmIp : UInt32) (vmstate next : Slot → VmcStateinfo) : Prop :=
  (∀ k, (next k).vmIp = (vmstate k).vmIp) ∨
    (∀ k, (vmstate k).vmIp ≠ vmIp) ∧
      ∃ i, (next i).vmIp = vmIp ∧ ∀ k, k ≠ i → (next k).vmIp = (vmstate k).vmIp

variable {vmstate next : Slot → VmcStateinfo} {vmIp : UInt32}

theorem StoredAs.addr (stored : StoredAs vmIp vmstate next) (k : Slot) :
    (next k).vmIp = vmIp ∨ (next k).vmIp = (vmstate k).vmIp := by
  rcases stored with same | ⟨_, i, fresh, same⟩
  · exact Or.inr (same k)
  · by_cases here : k = i
    · subst here
      exact Or.inl fresh
    · exact Or.inr (same k here)

theorem StoredAs.distinct (stored : StoredAs vmIp vmstate next) (distinct : Distinct vmstate) :
    Distinct next := by
  intro i j present equal
  rcases stored with same | ⟨absent, k, fresh, same⟩
  · rw [same] at present
    rw [same, same] at equal
    exact distinct i j present equal
  · by_cases first : i = k <;> by_cases second : j = k
    · rw [first, second]
    · rw [first, fresh, same j second] at equal
      exact absurd equal.symm (absent j)
    · rw [second, fresh, same i first] at equal
      exact absurd equal (absent i)
    · rw [same i first] at present
      rw [same i first, same j second] at equal
      exact distinct i j present equal

theorem storeEntry_storedAs {fill : VmcStateinfo → Option VmcStateinfo} {ret : Int}
    (keeps : ∀ entry filled, fill entry = some filled → filled.vmIp = entry.vmIp)
    (stored : storeEntry vmstate vmIp fill = some (ret, next)) : StoredAs vmIp vmstate next := by
  unfold storeEntry at stored
  split at stored
  · rename_i i found
    obtain ⟨entry, filled, pair⟩ := Option.map_eq_some_iff.mp stored
    cases pair
    refine Or.inl fun k => ?_
    by_cases here : k = i
    · subst here
      rw [Function.update_self, keeps _ _ filled]
    · rw [Function.update_of_ne here]
  · rename_i absent
    split at stored
    · rename_i i found
      obtain ⟨entry, filled, pair⟩ := Option.map_eq_some_iff.mp stored
      cases pair
      refine Or.inr ⟨fun k => by simpa using Fin.find?_eq_none_iff.mp absent k, i, ?_, ?_⟩
      · rw [Function.update_self, keeps _ _ filled]
      · intro k other
        rw [Function.update_of_ne other]
    · cases stored
      exact Or.inl fun _ => rfl

theorem fillEntry_vmIp {order : ByteOrder} {n : Nat} {message : Bytes n} {vmType pcount : UInt32}
    {entry filled : VmcStateinfo}
    (done : fillEntry order message vmType pcount entry = some filled) :
    filled.vmIp = entry.vmIp := by
  obtain ⟨_, _, rest⟩ := Option.bind_eq_some_iff.mp done
  obtain ⟨_, _, rest⟩ := Option.bind_eq_some_iff.mp rest
  obtain ⟨_, _, rest⟩ := Option.bind_eq_some_iff.mp rest
  obtain ⟨_, _, rfl⟩ := Option.map_eq_some_iff.mp rest
  rfl

theorem setVmProcessStateInfo_storedAs {order : ByteOrder} {n : Nat} {message : Bytes n} {ret : Int}
    (done : setVmProcessStateInfo order vmstate message = some (ret, next)) :
    StoredAs (hostWord order message vmIpaddressAt) vmstate next := by
  obtain ⟨vmIpaddress, loaded, rest⟩ := Option.bind_eq_some_iff.mp done
  obtain ⟨_, _, rest⟩ := Option.bind_eq_some_iff.mp rest
  obtain ⟨_, _, rest⟩ := Option.bind_eq_some_iff.mp rest
  obtain ⟨_, _, stored⟩ := Option.bind_eq_some_iff.mp rest
  rw [ntohl_of_load32 order message loaded] at stored
  exact storeEntry_storedAs (fun _ _ => fillEntry_vmIp) stored

/-- The loop of `TcpRecv` leaves no entry of the address. -/
theorem clearStateinfo_vmIp {t : HostTables} (distinct : Distinct t.stateinfo) (vmIp : UInt32) (k : Slot)
    (present : ((clearStateinfo t vmIp).stateinfo k).vmIp ≠ 0) :
    ((clearStateinfo t vmIp).stateinfo k).vmIp = (t.stateinfo k).vmIp ∧
      (t.stateinfo k).vmIp ≠ vmIp := by
  unfold clearStateinfo at present ⊢
  split at present
  · rename_i i found
    have owned : (t.stateinfo i).vmIp = vmIp := by
      simpa using (Fin.find?_eq_some_iff.mp found).1
    by_cases here : k = i
    · subst here
      exact absurd (by simp [baseStateinfo, VmcStateinfo.zero]) present
    · simp only [ne_eq, here, not_false_eq_true, Function.update_of_ne] at present ⊢
      exact ⟨trivial, fun same => here (distinct k i present (same.trans owned.symm))⟩
  · rename_i absent
    exact ⟨rfl, by simpa using Fin.find?_eq_none_iff.mp absent k⟩

theorem clearStateinfo_distinct {t : HostTables} (distinct : Distinct t.stateinfo) (vmIp : UInt32) :
    Distinct (clearStateinfo t vmIp).stateinfo := by
  intro i j present equal
  have first := clearStateinfo_vmIp distinct vmIp i present
  have second := clearStateinfo_vmIp distinct vmIp j (equal ▸ present)
  rw [first.1] at present
  rw [first.1, second.1] at equal
  exact distinct i j present equal

end Store

section Live

/-- A slot is live under the address. -/
def Live (t : HostTables) (vmIp : UInt32) : Prop :=
  ∃ i, 0 < (t.alist i).acceptFd ∧ (t.vmcSystem i).systemaddr = vmIp

/-- Another slot than `i` is live under its address. -/
def Shared (t : HostTables) (i : Slot) : Prop :=
  ∃ j, j ≠ i ∧ 0 < (t.alist j).acceptFd ∧ (t.vmcSystem j).systemaddr = (t.vmcSystem i).systemaddr

variable {t : HostTables} {vmIp : UInt32}

theorem Live.congr (live : Live t vmIp) {next : HostTables}
    (fds : ∀ i, (next.alist i).acceptFd = (t.alist i).acceptFd)
    (systems : ∀ i, (next.vmcSystem i).systemaddr = (t.vmcSystem i).systemaddr) :
    Live next vmIp := by
  obtain ⟨i, lives, addr⟩ := live
  exact ⟨i, by rwa [fds], by rwa [systems]⟩

theorem Live.takeSlot (live : Live t vmIp) {accepting : Option Slot} (inv : TableInv t accepting)
    {i : Slot} (free : (t.alist i).sysinfo.port = 0) (fd : Int) (port : UInt16)
    (openFds : Finset Int) : Live (takeSlot { t with openFds } i fd port) vmIp := by
  obtain ⟨j, lives, addr⟩ := live
  have other : j ≠ i := by
    rintro rfl
    exact (inv.live j).mpr lives free
  exact ⟨j, by simpa [HostSock.takeSlot, other] using lives,
    by simpa [HostSock.takeSlot, other] using addr⟩

theorem Live.register (live : Live t vmIp) (present : vmIp ≠ 0) {conn : Slot → Connection}
    (registered : Registered t conn) {order : ByteOrder} {size : Nat} {buf : Bytes size} {i : Slot}
    {next : HostTables} (done : register order t i buf = some next) : Live next vmIp := by
  rcases register_cases done with ⟨_, rfl⟩ | ⟨unknown, vmIpaddress, _, rfl⟩
  · exact live
  · obtain ⟨j, lives, addr⟩ := live
    have other : j ≠ i := by
      rintro rfl
      rw [registered.unknown j unknown] at addr
      exact present addr.symm
    exact ⟨j, by simpa [registerAs, other] using lives, by simpa [registerAs, other] using addr⟩

/-- A teardown leaves an address live unless its slot was the only one of it. -/
theorem Live.teardown (live : Live t vmIp) {i : Slot}
    (shared : (t.vmcSystem i).systemaddr = vmIp → Shared t i) : Live (teardown t i) vmIp := by
  have keep (j : Slot) (other : j ≠ i) (lives : 0 < (t.alist j).acceptFd)
      (addr : (t.vmcSystem j).systemaddr = vmIp) : Live (HostSock.teardown t i) vmIp :=
    ⟨j, by simpa [HostSock.teardown, clearSystem, closeSlot, other] using lives,
      by simpa [HostSock.teardown, clearSystem, closeSlot, other] using addr⟩
  obtain ⟨j, lives, addr⟩ := live
  by_cases here : j = i
  · subst here
    obtain ⟨k, other, alive, same⟩ := shared addr
    exact keep k other alive (same.trans addr)
  · exact keep j here lives addr

end Live

section Reports

def isReport (request : Request) : Bool := request.block.msgtype = vmProcStateReq

/-- The report that `fifo_getTask` has taken and not stored. -/
def unstored : Handler → List Request
  | .got request => [request].filter isReport
  | .found request | .answered request => [request]
  | _ => []

/-- The request whose response `SendVmProcStateRsp` is about to send. -/
def responding : Handler → Option Request
  | .found request => some request
  | _ => none

/-- The copy that `SetVmProcessStateInfo` will write back. -/
def copied : Handler → Option (Slot → VmcStateinfo)
  | .stored _ ret vmstate => if ret = -1 then none else some vmstate
  | _ => none

theorem copied_none {handler : Handler} (none_ : copied handler = none)
    {P : (Slot → VmcStateinfo) → Prop} : ∀ vmstate ∈ copied handler, P vmstate := by
  rw [none_]
  exact fun _ member => absurd member (Option.not_mem_none _)

/-- The reports queued or not yet stored. -/
def waiting (s : Host) : List Request := s.fifo.filter isReport ++ unstored s.handler

variable (order : ByteOrder) (s : Host) (vmIp : UInt32)

/-- The handling of what the host has received may still store the address. -/
def Awaited : Prop :=
  (∃ request ∈ waiting s, hostWord order request.block.message vmIpaddressAt = vmIp) ∨
    ∃ vmstate ∈ copied s.handler, ∃ k, (vmstate k).vmIp = vmIp

/-- The address is in the table, or may still come to it. -/
def Kept : Prop := (∃ k, (s.tables.stateinfo k).vmIp = vmIp) ∨ Awaited order s vmIp

instance : Decidable (Awaited order s vmIp) := inferInstanceAs (Decidable (_ ∨ _))

instance : Decidable (Kept order s vmIp) := inferInstanceAs (Decidable (_ ∨ _))

instance (t : HostTables) (i : Slot) : Decidable (Shared t i) :=
  inferInstanceAs (Decidable (∃ j, j ≠ i ∧ _ ∧ _))

/-- Every report carries the address of its VM, and a connection is lost only when no
report with the address of its slot waits, and by `TcpSend` only when the table has no
entry of that address either, unless another slot is live under it. -/
def DepartOk (event : HostEvent) : Prop :=
  RegisterOk order s event ∧
    match event with
    | .receive i events => ∀ result ∈ recvFrame order s.buf events,
        (0 < result.nRecv → ∀ queued ∈ tcpdSockEvent order i result.rBuf,
          queued.2.msgtype = vmProcStateReq →
            hostWord order queued.2.message vmIpaddressAt = (s.conn i).vm) ∧
        (result.disconnect = true → (s.tables.vmcSystem i).systemaddr ≠ 0 →
          Awaited order s (s.tables.vmcSystem i).systemaddr → Shared s.tables i)
    | .send env => ∀ request ∈ responding s.handler,
        ∀ sent ∈ sendRsp order s.tables request.block.alistIdx request.block.systemid env,
          (sent.1.alist request.block.alistIdx).acceptFd ≤ 0 →
          (s.tables.vmcSystem request.block.alistIdx).systemaddr ≠ 0 →
            Kept order s (s.tables.vmcSystem request.block.alistIdx).systemaddr →
              Shared s.tables request.block.alistIdx
    | _ => True

instance (event : HostEvent) : Decidable (DepartOk order s event) :=
  match event with
  | .accept _ _ _ | .acceptSet | .receive _ _ | .get | .reset | .send _ | .copy | .writeBack =>
      inferInstanceAs (Decidable (_ ∧ _))

end Reports

/-- Every address that the table has, or may still get, is that of a live slot. -/
structure DepartInv (order : ByteOrder) (s : Host) : Prop where
  table : TableInv s.tables s.accepting
  registered : Registered s.tables s.conn
  distinct : Distinct s.tables.stateinfo
  copies : ∀ vmstate ∈ copied s.handler, Distinct vmstate
  live : ∀ vmIp, vmIp ≠ 0 → Kept order s vmIp → Live s.tables vmIp

theorem init_departInv (order : ByteOrder) {listenFd : Int} (listening : 0 < listenFd) :
    DepartInv order (Host.init listenFd) where
  table := init_tableInv listening
  registered := init_registered listenFd
  distinct := fun _ _ present => absurd rfl present
  copies := copied_none rfl
  live := by
    rintro vmIp present (⟨k, same⟩ | ⟨request, member, _⟩ | ⟨vmstate, member, _⟩)
    · exact absurd same.symm present
    · exact absurd member List.not_mem_nil
    · cases member

section Step

variable {order : ByteOrder} {traced : Bool} {s : Host} {vmIp : UInt32}

/-- A handler that holds no report leaves only the queued ones. -/
theorem waiting_of_stored {handler : Handler} (done : unstored handler = [])
    {tables : HostTables} {request : Request}
    (member : request ∈ waiting { s with tables, handler }) : request ∈ waiting s := by
  simp only [waiting, done, List.append_nil] at member
  exact List.mem_append_left _ member

theorem Kept.mono (kept : Kept order s vmIp) {before : Host}
    (stateinfo : s.tables.stateinfo = before.tables.stateinfo)
    (reports : ∀ request ∈ waiting s, request ∈ waiting before)
    (copies : ∀ vmstate ∈ copied s.handler, vmstate ∈ copied before.handler) :
    Kept order before vmIp := by
  rcases kept with stored | ⟨request, member, addr⟩ | ⟨vmstate, member, addr⟩
  · exact Or.inl (stateinfo ▸ stored)
  · exact Or.inr (Or.inl ⟨request, reports request member, addr⟩)
  · exact Or.inr (Or.inr ⟨vmstate, copies vmstate member, addr⟩)

/-- A queued request adds no address but that of its own report. -/
theorem Kept.queued {tables : HostTables} {buf : Bytes _} {request : Request}
    (kept : Kept order { s with tables, buf, fifo := s.fifo ++ [request] } vmIp)
    (stateinfo : tables.stateinfo = s.tables.stateinfo) :
    Kept order s vmIp ∨
      isReport request = true ∧ hostWord order request.block.message vmIpaddressAt = vmIp := by
  rcases kept with ⟨k, addr⟩ | ⟨other, member, addr⟩ | copy
  · exact Or.inl (Or.inl ⟨k, stateinfo ▸ addr⟩)
  · simp only [waiting, List.filter_append, List.append_assoc, List.mem_append] at member
    rcases member with first | new | taken
    · exact Or.inl (Or.inr (Or.inl ⟨other, List.mem_append_left _ first, addr⟩))
    · obtain ⟨rfl, report⟩ : other = request ∧ isReport other = true := by
        simpa [List.mem_filter] using new
      exact Or.inr ⟨report, addr⟩
    · exact Or.inl (Or.inr (Or.inl ⟨other, List.mem_append_right _ taken, addr⟩))
  · exact Or.inl (Or.inr (Or.inr copy))

/-- The copy of the table holds what the table holds, and the address of the report that
is being stored. -/
theorem Kept.copy {request : Request} {ret : Int} {vmstate : Slot → VmcStateinfo}
    (kept : Kept order { s with handler := .stored request ret vmstate } vmIp)
    (answered : s.handler = .answered request)
    (stored : StoredAs (hostWord order request.block.message vmIpaddressAt) s.tables.stateinfo
      vmstate) : Kept order s vmIp := by
  have own : request ∈ waiting s := by simp [waiting, unstored, answered]
  rcases kept with table | ⟨other, member, addr⟩ | ⟨copy, member, k, addr⟩
  · exact Or.inl table
  · exact Or.inr (Or.inl ⟨other, waiting_of_stored rfl member, addr⟩)
  · simp only [copied] at member
    split at member <;> cases member
    rcases stored.addr k with fresh | same
    · exact Or.inr (Or.inl ⟨request, own, fresh.symm.trans addr⟩)
    · exact Or.inl ⟨k, same.symm.trans addr⟩

/-- Writing the copy back brings no address that was not kept. -/
theorem Kept.writeBack {vmstate : Slot → VmcStateinfo}
    (kept : Kept order { s with tables.stateinfo := vmstate, handler := .idle } vmIp)
    (copy : vmstate ∈ copied s.handler) : Kept order s vmIp := by
  rcases kept with ⟨k, addr⟩ | ⟨other, member, addr⟩ | ⟨_, member, _⟩
  · exact Or.inr (Or.inr ⟨vmstate, copy, k, addr⟩)
  · exact Or.inr (Or.inl ⟨other, waiting_of_stored rfl member, addr⟩)
  · cases member

/-- The disconnection branch of `TcpRecv`, when no other report or copy holds the
address. -/
theorem recvDisconnect_departInv (inv : DepartInv order s) {i : Slot} (buf : Bytes _)
    (ok : (s.tables.vmcSystem i).systemaddr ≠ 0 →
      Awaited order s (s.tables.vmcSystem i).systemaddr → Shared s.tables i) :
    Distinct (recvDisconnect s.tables i).stateinfo ∧
      ∀ vmIp, vmIp ≠ 0 → Kept order { s with tables := recvDisconnect s.tables i, buf } vmIp →
        Live (recvDisconnect s.tables i) vmIp := by
  obtain ⟨table, registered, distinct, copies, live⟩ := inv
  rcases recvDisconnect_cases table.mode i with same | ⟨_, same⟩
  · rw [same]
    exact ⟨distinct, live⟩
  · have cleared := clearStateinfo_vmIp distinct (s.tables.vmcSystem i).systemaddr
    have after := clearStateinfo_distinct distinct (s.tables.vmcSystem i).systemaddr
    generalize (clearStateinfo s.tables (s.tables.vmcSystem i).systemaddr).stateinfo = stateinfo
      at cleared after same
    rw [same]
    refine ⟨after, fun vmIp present kept => ?_⟩
    have torn : Live (teardown s.tables i) vmIp := by
      rcases kept with ⟨k, addr⟩ | awaited
      · simp only at addr
        obtain ⟨old, other⟩ := cleared k (addr.symm ▸ present)
        rw [addr] at old
        refine (live vmIp present (Or.inl ⟨k, old.symm⟩)).teardown fun own => ?_
        exact absurd (old.symm.trans own.symm) other
      · refine (live vmIp present (Or.inr awaited)).teardown fun own => ?_
        exact ok (own ▸ present) (own ▸ awaited)
    exact torn.congr (fun _ => rfl) fun _ => rfl

/-- The part of the invariant that is about the addresses of the reports. -/
structure AddressInv (order : ByteOrder) (s : Host) : Prop where
  distinct : Distinct s.tables.stateinfo
  copies : ∀ vmstate ∈ copied s.handler, Distinct vmstate
  live : ∀ vmIp, vmIp ≠ 0 → Kept order s vmIp → Live s.tables vmIp

section Events

variable {next : Host}

theorem accept_addressInv (inv : DepartInv order s) {fd : Int} {port : UInt16} {vm : UInt32}
    (stepped : step order traced s (.accept fd port vm) = some next) : AddressInv order next := by
  obtain ⟨table, _, distinct, copies, live⟩ := inv
  obtain ⟨_, ⟨i, found, rfl⟩ | ⟨_, rfl⟩⟩ := accept_cases table stepped
  · refine ⟨distinct, copies, fun vmIp present kept => ?_⟩
    exact (live vmIp present kept).takeSlot table (freeSlot_eq_some found).1 fd port _
  · exact ⟨distinct, copies, live⟩

theorem acceptSet_addressInv (inv : DepartInv order s)
    (stepped : step order traced s .acceptSet = some next) : AddressInv order next := by
  obtain ⟨i, half, rfl⟩ := Option.map_eq_some_iff.mp stepped
  have same := watch_entries s.tables i
  have kept : (watch s.tables i).stateinfo = s.tables.stateinfo := by
    unfold watch
    split <;> rfl
  refine ⟨by rw [kept]; exact inv.distinct, inv.copies, fun vmIp present old => ?_⟩
  have before : Kept order s vmIp := old.mono kept (fun _ => id) fun _ => id
  exact (inv.live vmIp present before).congr (fun j => by rw [same.1]) fun j => by rw [same.2]

/-- A report that arrives carries the address of its slot, which is live then. -/
theorem receive_addressInv (inv : DepartInv order s) {i : Slot} {events : List RecvEvent}
    (ok : DepartOk order s (.receive i events))
    (stepped : step order traced s (.receive i events) = some next) : AddressInv order next := by
  obtain ⟨table, registered, distinct, copies, live⟩ := id inv
  have nextTable := step_tableInv table stepped
  have nextRegistered := step_registered registered table ok.1 stepped
  obtain ⟨_, lives, result, received, cases⟩ := receive_cases stepped
  obtain ⟨reports, lost⟩ := ok.2 result received
  rcases cases with ⟨positive, tables, buf, block, done, slot, queued, rfl⟩ | rfl
  · have known := (register_registered registered table lives ok.1 received positive done).2
    have fds : 0 < (tables.alist i).acceptFd := (nextTable.registered i known).1
    have stateinfo : tables.stateinfo = s.tables.stateinfo := by
      rcases register_cases done with ⟨_, rfl⟩ | ⟨_, _, _, rfl⟩ <;> rfl
    refine ⟨stateinfo ▸ distinct, copies, fun vmIp present kept => ?_⟩
    rcases kept.queued stateinfo with before | ⟨report, addr⟩
    · exact (live vmIp present before).register present registered done
    · refine ⟨i, fds, ?_⟩
      rw [(nextRegistered.known i known).2.1, ← addr]
      exact (reports positive (buf, block) queued (by simpa [isReport] using report)).symm
  · split
    · rename_i disconnect
      have after := recvDisconnect_departInv inv result.rBuf (lost disconnect)
      exact ⟨after.1, copies, after.2⟩
    · exact ⟨distinct, copies, live⟩

/-- The request moves from the queue to the handler. -/
theorem get_addressInv (inv : DepartInv order s)
    (stepped : step order traced s .get = some next) : AddressInv order next := by
  obtain ⟨request, fifo, idle, queued, rfl⟩ := get_cases stepped
  refine ⟨inv.distinct, copied_none rfl, fun vmIp present kept => inv.live vmIp present ?_⟩
  refine kept.mono rfl (fun other member => ?_) (copied_none rfl)
  rw [waiting, queued, idle]
  simp only [waiting, unstored, List.mem_append] at member
  simp only [unstored, List.append_nil]
  rw [← List.singleton_append, List.filter_append, List.mem_append]
  exact member.symm

theorem reset_addressInv (inv : DepartInv order s)
    (stepped : step order traced s .reset = some next) : AddressInv order next := by
  obtain ⟨_, _, distinct, _, live⟩ := inv
  obtain ⟨request, got, cases⟩ := reset_cases stepped
  rcases cases with rfl | ⟨report, rfl | ⟨i, tables, found, rfl⟩⟩
  · refine ⟨distinct, copied_none rfl, fun vmIp present kept => live vmIp present ?_⟩
    exact kept.mono rfl (fun _ => waiting_of_stored rfl) (copied_none rfl)
  · refine ⟨distinct, copied_none rfl, fun vmIp present kept => live vmIp present ?_⟩
    refine kept.mono rfl (fun other member => ?_) (copied_none rfl)
    simpa [waiting, unstored, got, isReport, report] using member
  · obtain ⟨_, _, rfl, same⟩ := resetLinkStatus_some found
    refine ⟨distinct, copied_none rfl, fun vmIp present kept => ?_⟩
    have before : Kept order s vmIp := kept.mono rfl (fun other member => by
      simpa [waiting, unstored, got, isReport, report] using member) (copied_none rfl)
    exact (live vmIp present before).congr (fun _ => rfl) fun k => (same k).1

/-- A response whose send fails takes down its connection. -/
theorem send_addressInv (inv : DepartInv order s) {env : SendEnv}
    (ok : DepartOk order s (.send env))
    (stepped : step order traced s (.send env) = some next) : AddressInv order next := by
  obtain ⟨table, _, distinct, _, live⟩ := inv
  obtain ⟨request, tables, wire, found, sent, rfl⟩ := send_cases stepped
  have stateinfo : tables.stateinfo = s.tables.stateinfo := by
    rcases (sendRsp_eq sent).1 with rfl | rfl
    · rfl
    · exact sendDisconnect_stateinfo s.tables _
  refine ⟨by simpa only [stateinfo] using distinct, copied_none rfl, ?_⟩
  intro vmIp present kept
  have before : Kept order s vmIp := kept.mono stateinfo (fun other member => by
    simpa [waiting, unstored, found] using member) (copied_none rfl)
  have old := live vmIp present before
  rcases (sendRsp_eq sent).1 with rfl | rfl
  · exact old
  · have ok := ok.2 request (by simp [responding, found]) _ sent
    simp only at ok ⊢
    rcases sendDisconnect_cases table.mode request.block.alistIdx with same | ⟨lives, same⟩
    · rwa [same]
    · rw [same] at ok ⊢
      refine old.teardown fun own => ok ?_ (own ▸ present) (own ▸ before)
      simp [teardown, clearSystem, closeSlot]

theorem copy_addressInv (inv : DepartInv order s)
    (stepped : step order traced s .copy = some next) : AddressInv order next := by
  obtain ⟨request, ret, vmstate, answered, done, rfl⟩ := copy_cases stepped
  have stored := setVmProcessStateInfo_storedAs done
  refine ⟨inv.distinct, fun copy member => ?_, fun vmIp present kept =>
    inv.live vmIp present (kept.copy answered stored)⟩
  simp only [copied] at member
  split at member <;> cases member
  exact stored.distinct inv.distinct

theorem writeBack_addressInv (inv : DepartInv order s)
    (stepped : step order traced s .writeBack = some next) : AddressInv order next := by
  obtain ⟨_, _, distinct, copies, live⟩ := inv
  obtain ⟨request, ret, vmstate, stored, rfl⟩ := writeBack_cases stepped
  by_cases failed : ret = -1
  · simp only [if_pos failed]
    refine ⟨distinct, copied_none rfl, fun vmIp present kept => live vmIp present ?_⟩
    exact kept.mono rfl (fun _ => waiting_of_stored rfl) (copied_none rfl)
  · have copy : vmstate ∈ copied s.handler := by simp [copied, stored, failed]
    simp only [if_neg failed]
    refine ⟨copies vmstate copy, copied_none rfl, fun vmIp present kept => ?_⟩
    exact (live vmIp present (kept.writeBack copy)).congr (fun _ => rfl) fun _ => rfl

end Events

theorem step_departInv {next : Host} {event : HostEvent} (inv : DepartInv order s)
    (ok : DepartOk order s event) (stepped : step order traced s event = some next) :
    DepartInv order next := by
  have addresses : AddressInv order next := by
    cases event with
    | accept fd port vm => exact accept_addressInv inv stepped
    | acceptSet => exact acceptSet_addressInv inv stepped
    | receive i events => exact receive_addressInv inv ok stepped
    | get => exact get_addressInv inv stepped
    | reset => exact reset_addressInv inv stepped
    | send env => exact send_addressInv inv ok stepped
    | copy => exact copy_addressInv inv stepped
    | writeBack => exact writeBack_addressInv inv stepped
  exact
    { table := step_tableInv inv.table stepped
      registered := step_registered inv.registered inv.table ok.1 stepped
      distinct := addresses.distinct
      copies := addresses.copies
      live := addresses.live }

end Step

section Run

variable {order : ByteOrder} {traced : Bool}

instance (t : HostTables) (vmIp : UInt32) : Decidable (Live t vmIp) :=
  inferInstanceAs (Decidable (∃ i, 0 < (t.alist i).acceptFd ∧ _))

/-- The queue is empty and no block is being handled. -/
def Quiet (s : Host) : Prop := s.fifo = [] ∧ s.handler = .idle

instance (s : Host) : Decidable (Quiet s) :=
  match s with
  | { fifo := [], handler := .idle, .. } => isTrue ⟨rfl, rfl⟩
  | { fifo := _ :: _, .. } => isFalse fun quiet => nomatch quiet.1
  | { handler := .got _, .. } | { handler := .found _, .. } | { handler := .answered _, .. }
  | { handler := .stored _ _ _, .. } => isFalse fun quiet => nomatch quiet.2

/-- In every run whose steps all meet the condition, every entry is that of a VM with a
live connection, also while reports are queued. -/
theorem run_departed {listenFd : Int} (listening : 0 < listenFd) {events : List HostEvent}
    (allowed : AllSteps (step order traced) (DepartOk order) (Host.init listenFd) events)
    {final : Host} (reached : run (step order traced) (Host.init listenFd) events = some final) :
    ∀ k, (final.tables.stateinfo k).vmIp ≠ 0 →
      ∃ i, 0 < (final.tables.alist i).acceptFd ∧
        (final.tables.vmcSystem i).systemaddr = (final.tables.stateinfo k).vmIp := by
  intro k present
  have inv : DepartInv order final := run_invariant_of (DepartInv order)
    (fun _ _ _ inv ok stepped => step_departInv inv ok stepped)
    (init_departInv order listening) allowed reached
  exact inv.live _ present (Or.inl ⟨k, rfl⟩)

/-- Two VMs report, then the first is lost. -/
def departedRun (first second : Slot) : List HostEvent :=
  [.accept 5 40000 0x0A000001, .acceptSet, .accept 6 40001 0x0A000002, .acceptSet,
    .receive first (HostReply.report [10, 0, 0, 1]), .receive second (HostReply.report [10, 0, 0, 2]),
    .get, .reset, .send ⟨[], []⟩, .copy, .writeBack,
    .get, .reset, .send ⟨[], []⟩, .copy, .writeBack, .receive first [.closed]]

theorem run_departed_second :
    ∃ final, run (step .little false) (Host.init 3) (departedRun 0 1) = some final ∧
      (final.tables.stateinfo 0).vmIp = 0 ∧
      ∃ i, 0 < (final.tables.alist i).acceptFd ∧
        (final.tables.vmcSystem i).systemaddr = (final.tables.stateinfo 1).vmIp := by
  obtain ⟨final, reached, first, second⟩ :=
    exists_of_any (P := fun final : Host =>
      (final.tables.stateinfo 0).vmIp = 0 ∧ (final.tables.stateinfo 1).vmIp ≠ 0)
      (show (run (step .little false) (Host.init 3) (departedRun 0 1)).any _ = true by decide +kernel)
  exact ⟨final, reached, first, run_departed (by decide) (by decide +kernel) reached 1 second⟩

/-- A VM whose report is still queued when its connection is lost: the entry is stored
after `TcpRecv` has looked for it, and stays. -/
theorem writeBack_departed :
    ∃ final, run (step .little false) (Host.init 3) [.accept 5 40000 0x0A000001, .acceptSet,
        .receive 0 (HostReply.report [10, 0, 0, 1]), .receive 0 [.closed],
        .get, .reset, .copy, .writeBack] = some final ∧
      Quiet final ∧ ∃ k, (final.tables.stateinfo k).vmIp ≠ 0 ∧
        ¬ Live final.tables (final.tables.stateinfo k).vmIp :=
  exists_of_any (by decide +kernel)

end Run

end VnfMonitoring.HostDeparture
