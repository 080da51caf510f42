import VnfMonitoring.HostTable

set_option autoImplicit false

/- Which VM a slot is registered for, when the first message of every connection carries
the address of its own VM. -/
namespace VnfMonitoring.HostRegistration

open VnfMonitoring.Memory VnfMonitoring.Socket VnfMonitoring.TcpFrame VnfMonitoring.Bpapp
  VnfMonitoring.HostSock VnfMonitoring.HostReport VnfMonitoring.HostSystem VnfMonitoring.HostTable
  VnfMonitoring.Runs

/-- The first message received on a connection carries the address of its VM, which is
not 0. -/
def RegisterOk (order : ByteOrder) (s : Host) : HostEvent → Prop
  | .receive i events => (s.tables.vmcSystem i).systemport = 0 →
      ∀ result, recvFrame order s.buf events = some result → 0 < result.nRecv →
        (load32 order result.rBuf defaultTcpComhdrLength).map order.ntohl = some (s.conn i).vm ∧
          (s.conn i).vm ≠ 0
  | _ => True

instance (order : ByteOrder) (s : Host) (event : HostEvent) : Decidable (RegisterOk order s event) :=
  match event with
  | .receive _ _ =>
      inferInstanceAs (Decidable (_ → ∀ result, result ∈ recvFrame order s.buf _ → _ → _ ∧ _))
  | .accept _ _ _ | .acceptSet | .get | .reset | .send _ | .copy | .writeBack => isTrue trivial

/-- A registered slot has the address of its VM in both tables, any other has none in
`vmc_system`. -/
structure Registered (t : HostTables) (conn : Slot → Connection) : Prop where
  known : ∀ i, (t.vmcSystem i).systemport ≠ 0 →
    (t.alist i).sysinfo.systemaddr = (conn i).vm ∧
      (t.vmcSystem i).systemaddr = (conn i).vm ∧ (conn i).vm ≠ 0
  unknown : ∀ i, (t.vmcSystem i).systemport = 0 → (t.vmcSystem i).systemaddr = 0

theorem init_registered (listenFd : Int) :
    Registered (Host.init listenFd).tables (Host.init listenFd).conn :=
  ⟨fun _ present => absurd rfl present, fun _ _ => rfl⟩

section Step

variable {t : HostTables} {conn : Slot → Connection} {accepting : Option Slot}

theorem Registered.congr (registered : Registered t conn) {next : HostTables}
    (addrs : ∀ i, (next.alist i).sysinfo.systemaddr = (t.alist i).sysinfo.systemaddr)
    (systems : ∀ i, (next.vmcSystem i).systemaddr = (t.vmcSystem i).systemaddr ∧
      (next.vmcSystem i).systemport = (t.vmcSystem i).systemport) : Registered next conn := by
  obtain ⟨known, unknown⟩ := registered
  refine ⟨fun i => ?_, fun i => ?_⟩
  · rw [addrs, (systems i).1, (systems i).2]
    exact known i
  · rw [(systems i).1, (systems i).2]
    exact unknown i

/-- A free slot is not registered, so it may change its VM. -/
theorem takeSlot_registered (registered : Registered t conn) (inv : TableInv t accepting)
    {i : Slot} (free : (t.alist i).sysinfo.port = 0) (fd : Int) (port : UInt16)
    (openFds : Finset Int) (fresh : Connection) :
    Registered (takeSlot { t with openFds } i fd port) (Function.update conn i fresh) := by
  have blank : (t.vmcSystem i).systemport = 0 := by
    by_contra present
    exact (inv.live i).mpr (inv.registered i present).1 free
  refine ⟨fun j present => ?_, fun j absent => ?_⟩
  all_goals by_cases here : j = i
  · subst here
    exact absurd blank (by simpa [takeSlot] using present)
  · simpa [takeSlot, here] using registered.known j (by simpa [takeSlot, here] using present)
  · subst here
    simpa [takeSlot] using registered.unknown j blank
  · simpa [takeSlot, here] using registered.unknown j (by simpa [takeSlot, here] using absent)

theorem registerAs_registered (registered : Registered t conn) {i : Slot}
    (present : (conn i).vm ≠ 0) (lives : (t.alist i).sysinfo.port ≠ 0) :
    Registered (registerAs t i (conn i).vm) conn := by
  refine ⟨fun j known => ?_, fun j unknown => ?_⟩
  all_goals by_cases here : j = i
  · subst here
    simpa [registerAs] using present
  · simpa [registerAs, here] using registered.known j (by simpa [registerAs, here] using known)
  · subst here
    exact absurd (by simpa [registerAs] using unknown) lives
  · simpa [registerAs, here] using registered.unknown j (by simpa [registerAs, here] using unknown)

theorem teardown_registered (registered : Registered t conn) (i : Slot) :
    Registered (teardown t i) conn := by
  refine ⟨fun j known => ?_, fun j unknown => ?_⟩
  all_goals by_cases here : j = i
  · subst here
    exact absurd (by simp [teardown, clearSystem, VmcSystem.zero]) known
  · simpa [teardown, clearSystem, closeSlot, here] using
      registered.known j (by simpa [teardown, clearSystem, closeSlot, here] using known)
  · subst here
    simp [teardown, clearSystem, VmcSystem.zero]
  · simpa [teardown, clearSystem, closeSlot, here] using
      registered.unknown j (by simpa [teardown, clearSystem, closeSlot, here] using unknown)

theorem sendDisconnect_registered (registered : Registered t conn) (inv : TableInv t accepting)
    (i : Slot) : Registered (sendDisconnect t i) conn := by
  rcases sendDisconnect_cases inv.mode i with same | ⟨_, same⟩
  · rwa [same]
  · rw [same]
    exact teardown_registered registered i

theorem recvDisconnect_registered (registered : Registered t conn) (inv : TableInv t accepting)
    (i : Slot) : Registered (recvDisconnect t i) conn := by
  rcases recvDisconnect_cases inv.mode i with same | ⟨_, same⟩
  · rwa [same]
  · rw [same]
    exact (teardown_registered registered i).congr (fun _ => rfl) fun _ => ⟨rfl, rfl⟩

theorem resetLinkStatus_registered (registered : Registered t conn) {alistIdx i : Slot}
    {next : HostTables} (found : resetLinkStatus t alistIdx = some (i, next)) :
    Registered next conn := by
  obtain ⟨_, _, rfl, same⟩ := resetLinkStatus_some found
  exact registered.congr (fun _ => rfl) same

end Step

/-- A whole message leaves its slot registered. -/
theorem register_registered {order : ByteOrder} {s : Host} {i : Slot} {events : List RecvEvent}
    (registered : Registered s.tables s.conn) (inv : TableInv s.tables s.accepting)
    (lives : 0 < (s.tables.alist i).acceptFd) (ok : RegisterOk order s (.receive i events))
    {result : RecvResult TcpFraming.hostBufSize}
    (received : recvFrame order s.buf events = some result) (positive : 0 < result.nRecv)
    {tables : HostTables} (done : register order s.tables i result.rBuf = some tables) :
    Registered tables s.conn ∧ (tables.vmcSystem i).systemport ≠ 0 := by
  have port := (inv.live i).mpr lives
  rcases register_cases done with ⟨known, rfl⟩ | ⟨unknown, vmIpaddress, loaded, rfl⟩
  · exact ⟨registered, known⟩
  · obtain ⟨own, present⟩ := ok unknown result received positive
    rw [loaded, Option.map_some, Option.some.injEq] at own
    rw [own]
    exact ⟨registerAs_registered registered present port, by simpa [registerAs] using port⟩

theorem watch_entries (t : HostTables) (i : Slot) :
    (watch t i).alist = t.alist ∧ (watch t i).vmcSystem = t.vmcSystem := by
  unfold watch
  split <;> exact ⟨rfl, rfl⟩

/-- Every step that registers no address but its own VM's keeps the registrations. -/
theorem step_registered {order : ByteOrder} {traced : Bool} {s next : Host} {event : HostEvent}
    (registered : Registered s.tables s.conn) (inv : TableInv s.tables s.accepting)
    (ok : RegisterOk order s event) (stepped : step order traced s event = some next) :
    Registered next.tables next.conn := by
  cases event with
  | accept fd port vm =>
      obtain ⟨_, ⟨i, found, rfl⟩ | ⟨_, rfl⟩⟩ := accept_cases inv stepped
      · exact takeSlot_registered registered inv (freeSlot_eq_some found).1 fd port _ _
      · exact registered
  | acceptSet =>
      obtain ⟨i, half, rfl⟩ := Option.map_eq_some_iff.mp stepped
      have same := watch_entries s.tables i
      exact registered.congr (fun j => by rw [same.1]) fun j => by simp only [same.2, and_self]
  | receive i events =>
      obtain ⟨_, lives, result, received, cases⟩ := receive_cases stepped
      rcases cases with ⟨positive, tables, buf, block, done, slot, _, rfl⟩ | rfl
      · exact (register_registered registered inv lives ok received positive done).1
      · simp only
        split
        · exact recvDisconnect_registered registered inv i
        · exact registered
  | get =>
      obtain ⟨request, fifo, _, _, rfl⟩ := get_cases stepped
      exact registered
  | reset =>
      obtain ⟨request, _, rfl | ⟨_, rfl | ⟨i, tables, found, rfl⟩⟩⟩ := reset_cases stepped
      · exact registered
      · exact registered
      · exact resetLinkStatus_registered registered found
  | send env =>
      obtain ⟨request, tables, wire, _, sent, rfl⟩ := send_cases stepped
      rcases (sendRsp_eq sent).1 with rfl | rfl
      · exact registered
      · exact sendDisconnect_registered registered inv _
  | copy =>
      obtain ⟨request, ret, vmstate, _, _, rfl⟩ := copy_cases stepped
      exact registered
  | writeBack =>
      obtain ⟨request, ret, vmstate, _, rfl⟩ := writeBack_cases stepped
      simp only
      split
      · exact registered
      · exact registered.congr (fun _ => rfl) fun _ => ⟨rfl, rfl⟩

end VnfMonitoring.HostRegistration
