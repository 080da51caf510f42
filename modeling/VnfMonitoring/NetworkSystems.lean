import VnfMonitoring.NetworkEntries

set_option autoImplicit false

/- Which agent a registered system is: the address of `vmc_system` and of the accept list
is that of the first report on the connection that the slot has. -/
namespace VnfMonitoring.NetworkSystems

open VnfMonitoring.Memory VnfMonitoring.Socket VnfMonitoring.TcpFrame VnfMonitoring.Bpapp
  VnfMonitoring.HostSock VnfMonitoring.HostReport VnfMonitoring.HostSystem VnfMonitoring.HostTable
  VnfMonitoring.HostConnection VnfMonitoring.VmctReport VnfMonitoring.Pipes VnfMonitoring.Runs
  VnfMonitoring.Network VnfMonitoring.NetworkEntries

section Steps

variable {order : ByteOrder} {traced : Bool} {s next : Host}

/-- A slot keeps what it is registered as, or it is free and registered as nothing. -/
def KeepsSystem (t after : HostTables) (j : Slot) : Prop :=
  registration after j = registration t j ∨
    (after.vmcSystem j).systemport = 0 ∧ ¬ 0 < (after.alist j).acceptFd

theorem KeepsSystem.congr {t after other : HostTables} {j : Slot}
    (keeps : KeepsSystem t after j) (systems : other.vmcSystem = after.vmcSystem)
    (listed : other.alist = after.alist) : KeepsSystem t other j := by
  simpa only [KeepsSystem, registration, systems, listed] using keeps

theorem systemport_of_registration {t after : HostTables} {j : Slot}
    (same : registration after j = registration t j) :
    (after.vmcSystem j).systemport = (t.vmcSystem j).systemport := congrArg Prod.fst same

theorem teardown_keeps (t : HostTables) (i j : Slot) : KeepsSystem t (teardown t i) j := by
  by_cases here : j = i
  · subst here
    refine Or.inr ⟨by simp [teardown, clearSystem, VmcSystem.zero], fun lives => ?_⟩
    exact (teardown_acceptFd lives).1 rfl
  · exact Or.inl (by simp [registration, teardown, clearSystem, closeSlot, here])

/-- Only a receive registers a slot. -/
theorem step_keeps {event : HostEvent} (inv : TableInv s.tables s.accepting)
    (stepped : HostSystem.step order traced s event = some next)
    (accepts : ∀ fd port vm, event ≠ .accept fd port vm)
    (receives : ∀ i events, event ≠ .receive i events) (j : Slot) :
    KeepsSystem s.tables next.tables j := by
  cases event with
  | accept fd port vm => exact absurd rfl (accepts fd port vm)
  | acceptSet =>
      obtain ⟨i, _, rfl⟩ := Option.map_eq_some_iff.mp stepped
      simp only [watch]
      split <;> exact Or.inl rfl
  | receive i events => exact absurd rfl (receives i events)
  | get =>
      obtain ⟨_, _, _, _, rfl⟩ := get_cases stepped
      exact Or.inl rfl
  | reset =>
      obtain ⟨request, _, rfl | ⟨_, rfl | ⟨i, tables, found, rfl⟩⟩⟩ := reset_cases stepped
      · exact Or.inl rfl
      · exact Or.inl rfl
      · obtain ⟨_, vmcSystem, rfl, same⟩ := resetLinkStatus_some found
        exact Or.inl (by simp only [registration, (same j).1, (same j).2])
  | send env =>
      obtain ⟨request, tables, wire, _, sent, rfl⟩ := send_cases stepped
      rcases (sendRsp_eq sent).1 with rfl | rfl
      · exact Or.inl rfl
      · rcases sendDisconnect_cases inv.mode request.block.alistIdx with same | ⟨_, same⟩
        · simp only [same]
          exact Or.inl rfl
        · simp only [same]
          exact teardown_keeps s.tables _ j
  | copy =>
      obtain ⟨_, _, _, _, _, rfl⟩ := copy_cases stepped
      exact Or.inl rfl
  | writeBack =>
      obtain ⟨_, _, _, _, rfl⟩ := writeBack_cases stepped
      simp only
      split <;> exact Or.inl rfl

end Steps

section Runs

variable {order : ByteOrder} {traced : Bool} {s next : System}

/-- The address that a report carries, as both tables hold it. -/
structure NamedBy (order : ByteOrder) (t : HostTables) (i : Slot) (msg : VmProcStateMsg) :
    Prop where
  system : (t.vmcSystem i).systemaddr = order.ntohl msg.vmIpaddress
  listed : (t.alist i).sysinfo.systemaddr = order.ntohl msg.vmIpaddress

theorem NamedBy.congr {t after : HostTables} {i : Slot} {msg : VmProcStateMsg}
    (named : NamedBy order t i msg) (same : registration after i = registration t i) :
    NamedBy order after i msg := by
  simp only [registration, Prod.mk.injEq] at same
  exact ⟨same.2.1.trans named.system, same.2.2.trans named.listed⟩

/-- A registered slot has the address in the first report of its connection, and of a live
slot that is not registered nothing has been queued. -/
structure SystemsInv (order : ByteOrder) (s : System) : Prop where
  named : ∀ i, (s.host.tables.vmcSystem i).systemport ≠ 0 →
    ∃ msg rest, (s.pipes (s.host.conn i).id).sent = msg :: rest ∧
      NamedBy order s.host.tables i msg
  silent : ∀ i, 0 < (s.host.tables.alist i).acceptFd →
    (s.host.tables.vmcSystem i).systemport = 0 → queuedOf s (s.host.conn i).id = []

theorem head_of_prefix {α : Type} {before after : List α} {x : α} {rest : List α}
    (more : before <+: after) (head : before = x :: rest) : ∃ rest, after = x :: rest := by
  obtain ⟨behind, rfl⟩ := more
  rw [head]
  exact ⟨rest ++ behind, rfl⟩

/-- A change of the pipes in which reports may only be added. -/
theorem SystemsInv.pipes (inv : SystemsInv order s) {pipes : Nat → Pipe VmProcStateMsg UInt8}
    (more : ∀ c, (s.pipes c).sent <+: (pipes c).sent) : SystemsInv order { s with pipes } where
  named := by
    intro i present
    obtain ⟨msg, rest, head, named⟩ := inv.named i present
    obtain ⟨behind, still⟩ := head_of_prefix (more _) head
    exact ⟨msg, behind, still, named⟩
  silent := inv.silent

/-- A change of the host that registers no slot. -/
theorem SystemsInv.host (inv : SystemsInv order s) {host : Host} (conn : host.conn = s.host.conn)
    (keeps : ∀ j, KeepsSystem s.host.tables host.tables j)
    (live : ∀ j, 0 < (host.tables.alist j).acceptFd → 0 < (s.host.tables.alist j).acceptFd) :
    SystemsInv order { s with host } where
  named := by
    intro i present
    rcases keeps i with same | ⟨cleared, _⟩
    · have port := systemport_of_registration same
      obtain ⟨msg, rest, head, named⟩ := inv.named i (port ▸ present)
      exact ⟨msg, rest, by simpa only [conn] using head, named.congr same⟩
    · exact absurd cleared present
  silent := by
    intro i lives unknown
    rcases keeps i with same | ⟨_, free⟩
    · have port := systemport_of_registration same
      simp only [conn]
      exact inv.silent i (live i lives) (port ▸ unknown)
    · exact absurd lives free

theorem accept_systemsInv (wire : WireInv order s) (inv : SystemsInv order s) {host : Host}
    {fd : Int} {port : UInt16} {vm : UInt32}
    (moved : HostSystem.step order traced s.host (.accept fd port vm) = some host) :
    SystemsInv order { s with host } := by
  rcases accept_taken wire.table moved with ⟨i, taken⟩ | ⟨rfl, _⟩
  · have ports (j : Slot) := systemport_of_registration (taken.registered j)
    refine ⟨fun j present => ?_, fun j lives unknown => ?_⟩
    · simp only [ports] at present
      have other : j ≠ i := by
        rintro rfl
        exact taken.free (wire.table.registered j present).1
      obtain ⟨msg, rest, head, named⟩ := inv.named j present
      exact ⟨msg, rest, by simpa only [(taken.others j other).2] using head,
        named.congr (taken.registered j)⟩
    · rcases taken.slot j with ⟨_, new⟩ | ⟨_, fds, kept⟩
      · -- no block of a connection that comes only now
        simp only [queuedOf, List.filter_eq_nil_iff, decide_eq_true_eq]
        intro request member same
        have known := wire.known request member
        omega
      · simp only [kept]
        exact inv.silent j (fds ▸ lives) (by rw [← ports]; exact unknown)
  · exact inv

theorem Takes.systemsInv {i : Slot} {msg : VmProcStateMsg} {request : Request}
    (wire : WireInv order s) (inv : SystemsInv order s) (takes : Takes order s next i msg request)
    (lives : 0 < (s.host.tables.alist i).acceptFd) (conn : next.host.conn = s.host.conn) :
    SystemsInv order next := by
  have sent (c : Nat) : (next.pipes c).sent = (s.pipes c).sent := by
    rw [takes.pipes]
    by_cases here : c = (s.host.conn i).id
    · subst here
      rw [Function.update_self]
      rfl
    · rw [Function.update_of_ne here]
  have others {j : Slot} (other : j ≠ i) (open_ : 0 < (s.host.tables.alist j).acceptFd) :
      queuedOf next (s.host.conn j).id = queuedOf s (s.host.conn j).id := by
    have apart : ¬ (s.host.conn i).id = (s.host.conn j).id := fun same =>
      other (wire.conns.unique j i open_ lives same.symm)
    simp only [queuedOf, takes.queued, List.filter_append, List.filter_cons, takes.conn, apart,
      decide_false, Bool.false_eq_true, if_false, List.filter_nil, List.append_nil]
  obtain ⟨buf, address, registered⟩ := takes.registered
  rcases register_cases registered with ⟨known, same⟩ | ⟨unknown, vmIpaddress, loaded, same⟩
  · refine ⟨fun j present => ?_, fun j open_ silent => ?_⟩
    · rw [same] at present ⊢
      rw [conn, sent]
      exact inv.named j present
    · rw [same] at open_ silent
      have other : j ≠ i := by
        rintro rfl
        exact known silent
      rw [conn, others other open_]
      exact inv.silent j open_ silent
  · cases address.symm.trans loaded
    have kept (j : Slot) (other : j ≠ i) :
        registration next.host.tables j = registration s.host.tables j := by
      rw [same]
      simp [registration, registerAs, other]
    have fds (j : Slot) : (next.host.tables.alist j).acceptFd =
        (s.host.tables.alist j).acceptFd := by
      rw [same, registerAs_acceptFd]
    refine ⟨fun j present => ?_, fun j open_ silent => ?_⟩
    · rw [conn, sent]
      by_cases here : j = i
      · subst here
        -- nothing was queued before, so this is the first report
        obtain ⟨read, brought, front, _⟩ := takes.turn
        rw [inv.silent j lives unknown] at brought
        cases brought
        obtain ⟨behind, head⟩ := head_of_prefix front rfl
        refine ⟨msg, behind, head, ?_⟩
        rw [same]
        exact ⟨by simp [registerAs], by simp [registerAs]⟩
      · have port := systemport_of_registration (kept j here)
        obtain ⟨first, rest, head, named⟩ := inv.named j (port ▸ present)
        exact ⟨first, rest, head, named.congr (kept j here)⟩
    · rw [fds] at open_
      have other : j ≠ i := by
        rintro rfl
        refine (wire.table.live j).mpr lives ?_
        rw [same] at silent
        simpa [registerAs] using silent
      have port := systemport_of_registration (kept j other)
      rw [conn, others other open_]
      exact inv.silent j open_ (port ▸ silent)

theorem Loses.systemsInv {i : Slot} (wire : WireInv order s) (inv : SystemsInv order s)
    (loses : Loses s next i) (lives : 0 < (s.host.tables.alist i).acceptFd) :
    SystemsInv order next := by
  obtain ⟨count, pipes⟩ := loses.pipes
  have same := loses.tables
  rw [recvDisconnect_live wire.table.mode lives] at same
  have sent : SystemsInv order { s with pipes := next.pipes } := by
    apply inv.pipes
    intro c
    rw [pipes]
    by_cases here : c = (s.host.conn i).id
    · subst here
      rw [Function.update_self]
      exact List.prefix_refl _
    · rw [Function.update_of_ne here]
  have kept : SystemsInv order { s with pipes := next.pipes, host := next.host } := by
    apply sent.host loses.conn
    · intro j
      exact (teardown_keeps s.host.tables i j).congr (by rw [same]) (by rw [same])
    · intro j open_
      rw [same] at open_
      exact (teardown_acceptFd open_).2 ▸ open_
  refine ⟨kept.named, fun j open_ silent => ?_⟩
  have before := kept.silent j open_ silent
  rwa [queuedOf, loses.queued]

theorem report_pipes {c : Nat} {fd : Int} {call : ReportCall} {env : SendEnv}
    (stepped : Network.step order traced s (.report c fd call env) = some next) :
    ∃ pipes, next = { s with pipes } ∧ ∀ k, (s.pipes k).sent <+: (pipes k).sent := by
  simp only [Network.step] at stepped
  split at stepped
  · cases stepped
  · obtain ⟨p, done, rfl⟩ := Option.map_eq_some_iff.mp stepped
    refine ⟨_, rfl, fun k => ?_⟩
    by_cases here : k = c
    · subst here
      rw [Function.update_self]
      obtain ⟨msg, _, rfl | ⟨part, _, rfl⟩ | rfl⟩ := reportStep_cases done
      · exact List.prefix_append _ _
      · exact List.prefix_refl _
      · exact List.prefix_refl _
    · rw [Function.update_of_ne here]

theorem step_systemsInv {event : NetworkEvent} (wire : WireInv order s) (inv : SystemsInv order s)
    (stepped : Network.step order traced s event = some next) : SystemsInv order next := by
  cases event with
  | report c fd call env =>
      obtain ⟨pipes, rfl, more⟩ := report_pipes stepped
      exact inv.pipes more
  | close c =>
      cases stepped
      apply inv.pipes
      intro k
      by_cases here : k = c
      · subst here
        rw [Function.update_self]
        exact List.prefix_refl _
      · rw [Function.update_of_ne here]
  | host event =>
      have quiet {host : Host} (moved : HostSystem.step order traced s.host event = some host)
          (accepts : ∀ fd port vm, event ≠ .accept fd port vm)
          (receives : ∀ i events, event ≠ .receive i events) :
          SystemsInv order { s with host } := by
        have shrinks := step_shrinks wire.table moved accepts
        exact inv.host shrinks.conn (step_keeps wire.table moved accepts receives) shrinks.live
      cases event with
      | accept fd port vm =>
          obtain ⟨host, moved, rfl⟩ := Option.map_eq_some_iff.mp stepped
          exact accept_systemsInv wire inv moved
      | receive i events =>
          obtain ⟨moved, lives, cases⟩ := hostStep_receive wire stepped
          have shrinks := step_shrinks wire.table moved nofun
          rcases cases with ⟨msg, request, takes⟩ | loses
          · exact Takes.systemsInv wire inv takes lives shrinks.conn
          · exact Loses.systemsInv wire inv loses lives
      | _ =>
          obtain ⟨host, moved, rfl⟩ := Option.map_eq_some_iff.mp stepped
          exact quiet moved nofun nofun
  | checkVm checkTcpstatusMin vstatus i =>
      simp only [Network.step, Option.map_eq_some_iff] at stepped
      obtain ⟨tables, done, rfl⟩ := stepped
      obtain ⟨vmcSystem, stateinfo, rfl, same, _⟩ := checkStep_spec done
      have keeps (j : Slot) :
          KeepsSystem s.host.tables { s.host.tables with vmcSystem, stateinfo } j :=
        Or.inl (by simp only [registration, (same j).1, (same j).2])
      exact @SystemsInv.host order s inv
        { s.host with tables := { s.host.tables with vmcSystem, stateinfo } } rfl keeps
        (fun _ lives => lives)
  | process call answers accepted =>
      simp only [Network.step, Option.map_eq_some_iff] at stepped
      obtain ⟨table, _, rfl⟩ := stepped
      exact ⟨inv.named, inv.silent⟩

theorem init_systemsInv (order : ByteOrder) (listenFd : Int) :
    SystemsInv order (System.init listenFd) where
  named := fun _ present => absurd rfl present
  silent := fun _ _ _ => rfl

/-- In every state of the system a registered slot is live, and its address, in
`vmc_system` as in the accept list, is that of the agent at the other end of its
connection: the one in the first report sent there. -/
theorem run_registered {listenFd : Int} (listening : 0 < listenFd) {events : List NetworkEvent}
    {final : System}
    (reached : run (Network.step order traced) (System.init listenFd) events = some final)
    {i : Slot} (registered : (final.host.tables.vmcSystem i).systemport ≠ 0) :
    0 < (final.host.tables.alist i).acceptFd ∧
      ∃ (call : ReportCall) (msg : VmProcStateMsg) (rest : List VmProcStateMsg),
        (final.pipes (final.host.conn i).id).sent = msg :: rest ∧
        ReportOf order call.conf call.up msg ∧
        (final.host.tables.vmcSystem i).systemaddr = call.conf.vmctIp ∧
        (final.host.tables.alist i).sysinfo.systemaddr = call.conf.vmctIp := by
  obtain ⟨wire, inv⟩ : WireInv order final ∧ SystemsInv order final := by
    refine run_invariant (fun s => WireInv order s ∧ SystemsInv order s) ?_
      ⟨init_wireInv order listening, init_systemsInv order listenFd⟩ reached
    intro before event after ⟨wire, inv⟩ stepped
    exact ⟨step_wireInv wire stepped, step_systemsInv wire inv stepped⟩
  refine ⟨(wire.table.registered i registered).1, ?_⟩
  obtain ⟨msg, rest, head, named⟩ := inv.named i registered
  have first : msg ∈ (final.pipes (final.host.conn i).id).sent := by
    rw [head]
    exact List.mem_cons_self
  obtain ⟨call, report⟩ := wire.formed (final.host.conn i).id msg first
  have address : order.ntohl msg.vmIpaddress = call.conf.vmctIp := by
    rw [report.ip, ByteOrder.ntohl_htonl]
  exact ⟨call, msg, rest, head, report, named.system.trans address, named.listed.trans address⟩

set_option maxRecDepth 4096 in
theorem sampleRun_registers :
    ∃ final, run (Network.step .little false) (System.init 3) sampleRun = some final ∧
      (final.host.tables.vmcSystem 0).systemport ≠ 0 :=
  exists_of_any (by decide +kernel)

theorem run_registered_sample :
    ∃ final, run (Network.step .little false) (System.init 3) sampleRun = some final ∧
      0 < (final.host.tables.alist 0).acceptFd ∧
      ∃ (call : ReportCall) (msg : VmProcStateMsg) (rest : List VmProcStateMsg),
        (final.pipes (final.host.conn 0).id).sent = msg :: rest ∧
        ReportOf .little call.conf call.up msg ∧
        (final.host.tables.vmcSystem 0).systemaddr = call.conf.vmctIp := by
  obtain ⟨final, reached, registered⟩ := sampleRun_registers
  obtain ⟨lives, call, msg, rest, first, report, address, _⟩ :=
    run_registered (by decide) reached registered
  exact ⟨final, reached, lives, call, msg, rest, first, report, address⟩

end Runs

end VnfMonitoring.NetworkSystems
