import Mathlib.Data.Finset.Card
import VnfMonitoring.HostConnection

set_option autoImplicit false

/- The two listings of the connections, `TcpInfo` to the log and `WriteProcInfo` to the
file `TcpdInfo`, against the descriptors that are open. -/
namespace VnfMonitoring.HostInfo

open VnfMonitoring.Memory VnfMonitoring.Socket VnfMonitoring.TcpFrame VnfMonitoring.Bpapp
  VnfMonitoring.HostSock VnfMonitoring.HostReport VnfMonitoring.HostSystem
  VnfMonitoring.HostTable VnfMonitoring.HostConnection VnfMonitoring.Runs

/-- The columns of a line that both listings have, but for the name. -/
structure InfoLine where
  index : UInt32
  systemaddr : UInt32
  port : UInt16
  acceptFd : Int
  deriving DecidableEq, Repr

/-- The locals of `TcpInfo`, and its lines. -/
structure TcpListing where
  lines : List InfoLine
  run : Nat
  down : Nat
  realPp : Nat
  deriving DecidableEq, Repr

/-- One slot in the loop of `TcpInfo`. -/
def tcpInfoSlot (s : HostTables) (l : TcpListing) (i : Slot) : TcpListing :=
  let entry := s.alist i
  if entry.sysinfo.port = 0 then l
  else
    { lines := l.lines ++
        [⟨UInt32.ofNat (i.val + 1), entry.sysinfo.systemaddr, entry.sysinfo.port, entry.acceptFd⟩]
      run := if entry.acceptFd < 0 then l.run else l.run + 1
      down := if entry.acceptFd < 0 then l.down + 1 else l.down
      realPp := l.realPp + 1 }

/-- The locals of `WriteProcInfo`, and its lines. -/
structure ProcListing where
  lines : List InfoLine
  count : Nat
  realPp : Nat
  deriving DecidableEq, Repr

/-- One slot in the loop of `WriteProcInfo`. -/
def writeProcInfoSlot (s : HostTables) (l : ProcListing) (i : Slot) : ProcListing :=
  let entry := s.alist i
  if entry.sysinfo.port = 0 then l
  else
    { lines := l.lines ++
        [⟨entry.sysinfo.systemidx, entry.sysinfo.systemaddr, entry.sysinfo.port, entry.acceptFd⟩]
      count := if entry.acceptFd > 0 then l.count + 1 else l.count
      realPp := l.realPp + 1 }

/-- `WriteProcInfo`; it prints `count` and `real_pp - count`, or nothing when `fopen` fails. -/
def writeProcInfo (s : HostTables) (fopenOk : Bool) : Option ProcListing :=
  if fopenOk then some ((List.finRange maxSystemNum).foldl (writeProcInfoSlot s) ⟨[], 0, 0⟩)
  else none

/-- `TcpInfo`; it prints `run` and `down`, and calls `WriteProcInfo`. -/
def tcpInfo (s : HostTables) (fopenOk : Bool) : TcpListing × Option ProcListing :=
  (match s.mode with
    | .server => (List.finRange maxSystemNum).foldl (tcpInfoSlot s) ⟨[], 0, 0, 0⟩
    | .client => ⟨[], 0, 0, 0⟩,
    writeProcInfo s fopenOk)

section Loops

variable {t : HostTables}

/-- The line of a live slot. -/
def lineOf (t : HostTables) (i : Slot) : InfoLine :=
  ⟨UInt32.ofNat (i.val + 1), (t.alist i).sysinfo.systemaddr, (t.alist i).sysinfo.port,
    (t.alist i).acceptFd⟩

def listed (t : HostTables) (slots : List Slot) : List Slot :=
  slots.filter fun i => decide (0 < (t.alist i).acceptFd)

/-- A slot has a port exactly if it is live. -/
def PortsLive (t : HostTables) : Prop :=
  ∀ i, (t.alist i).sysinfo.port ≠ 0 ↔ 0 < (t.alist i).acceptFd

/-- The live slots have the index that `TcpInfo` prints. -/
def Numbered (t : HostTables) : Prop :=
  ∀ i, 0 < (t.alist i).acceptFd → (t.alist i).sysinfo.systemidx = UInt32.ofNat (i.val + 1)

theorem tcpInfo_loop (live : PortsLive t) (slots : List Slot) (l : TcpListing) :
    slots.foldl (tcpInfoSlot t) l =
      ⟨l.lines ++ (listed t slots).map (lineOf t), l.run + (listed t slots).length, l.down,
        l.realPp + (listed t slots).length⟩ := by
  induction slots generalizing l with
  | nil => simp [listed]
  | cons i slots ih =>
      rw [List.foldl_cons, ih]
      by_cases open_ : 0 < (t.alist i).acceptFd
      · have port : ¬ (t.alist i).sysinfo.port = 0 := (live i).mpr open_
        have up : ¬ (t.alist i).acceptFd < 0 := by omega
        simp only [tcpInfoSlot, listed, List.filter_cons, port, up, open_, if_false, decide_true,
          if_true, List.map_cons, List.length_cons, lineOf, List.append_assoc,
          List.singleton_append, TcpListing.mk.injEq, true_and]
        omega
      · have port : (t.alist i).sysinfo.port = 0 := by
          by_contra present
          exact open_ ((live i).mp present)
        simp only [tcpInfoSlot, listed, List.filter_cons, port, open_, if_true, decide_false,
          Bool.false_eq_true, if_false]

theorem writeProcInfo_loop (live : PortsLive t) (numbered : Numbered t) (slots : List Slot)
    (l : ProcListing) :
    slots.foldl (writeProcInfoSlot t) l =
      ⟨l.lines ++ (listed t slots).map (lineOf t), l.count + (listed t slots).length,
        l.realPp + (listed t slots).length⟩ := by
  induction slots generalizing l with
  | nil => simp [listed]
  | cons i slots ih =>
      rw [List.foldl_cons, ih]
      by_cases open_ : 0 < (t.alist i).acceptFd
      · have port : ¬ (t.alist i).sysinfo.port = 0 := (live i).mpr open_
        simp only [writeProcInfoSlot, listed, List.filter_cons, port, open_, if_false,
          decide_true, if_true, List.map_cons, List.length_cons, lineOf, numbered i open_,
          List.append_assoc, List.singleton_append, ProcListing.mk.injEq, true_and]
        omega
      · have port : (t.alist i).sysinfo.port = 0 := by
          by_contra present
          exact open_ ((live i).mp present)
        simp only [writeProcInfoSlot, listed, List.filter_cons, port, open_, if_true,
          decide_false, Bool.false_eq_true, if_false]

end Loops

section Descriptors

variable {t : HostTables} {accepting : Option Slot}

/-- The descriptors of the lines. -/
def descriptors (lines : List InfoLine) : List Int := lines.map InfoLine.acceptFd

theorem mem_listed {slots : List Slot} {i : Slot} :
    i ∈ listed t slots ↔ i ∈ slots ∧ 0 < (t.alist i).acceptFd := by
  rw [listed, List.mem_filter, decide_eq_true_eq]

theorem descriptors_nodup (inv : TableInv t accepting) :
    (descriptors ((listed t (List.finRange maxSystemNum)).map (lineOf t))).Nodup := by
  unfold descriptors
  rw [List.map_map]
  apply List.Nodup.map_on _ ((List.nodup_finRange _).filter _)
  intro i member j _ same
  exact inv.distinct i j (mem_listed.mp member).2 same

theorem descriptors_toFinset (inv : TableInv t accepting) :
    (descriptors ((listed t (List.finRange maxSystemNum)).map (lineOf t))).toFinset =
      t.openFds.erase t.listenFd := by
  ext fd
  simp only [descriptors, List.map_map, List.mem_toFinset, List.mem_map, mem_listed,
    List.mem_finRange, true_and, Finset.mem_erase, inv.opened, Function.comp_apply, lineOf]
  constructor
  · rintro ⟨i, lives, rfl⟩
    exact ⟨inv.apart i, Or.inr ⟨i, lives, rfl⟩⟩
  · rintro ⟨other, same | ⟨i, positive, rfl⟩⟩
    · exact absurd same other
    · exact ⟨i, positive, rfl⟩

end Descriptors

section Run

variable {order : ByteOrder} {traced : Bool} {s next : Host}

theorem teardown_systemidx (t : HostTables) (i j : Slot) :
    ((teardown t i).alist j).sysinfo.systemidx = (t.alist j).sysinfo.systemidx := by
  by_cases here : j = i
  · subst here
    simp [teardown, clearSystem, closeSlot]
  · simp [teardown, clearSystem, closeSlot, here]

theorem registerAs_systemidx (t : HostTables) (i j : Slot) (systemaddr : UInt32) :
    ((registerAs t i systemaddr).alist j).sysinfo.systemidx =
      (t.alist j).sysinfo.systemidx := by
  by_cases here : j = i
  · subst here
    simp [registerAs]
  · simp [registerAs, here]

/-- Nothing but the accepts numbers a slot. -/
theorem step_systemidx {event : HostEvent} (inv : TableInv s.tables s.accepting)
    (stepped : HostSystem.step order traced s event = some next)
    (other : ∀ fd port vm, event ≠ .accept fd port vm) (i : Slot) :
    (next.tables.alist i).sysinfo.systemidx = (s.tables.alist i).sysinfo.systemidx := by
  cases event with
  | accept fd port vm => exact absurd rfl (other fd port vm)
  | acceptSet =>
      obtain ⟨k, _, rfl⟩ := Option.map_eq_some_iff.mp stepped
      simp only [watch]
      split <;> rfl
  | receive k events =>
      obtain ⟨_, result, _, ⟨_, tables, buf, block, registered, _, rfl⟩ | rfl⟩ :=
        receive_split stepped
      · rcases register_cases registered with ⟨_, rfl⟩ | ⟨_, vmIpaddress, _, rfl⟩
        · rfl
        · exact registerAs_systemidx ..
      · rcases recvDisconnect_cases inv.mode k with same | ⟨_, same⟩
        · simp only [same]
        · simp only [same]
          exact teardown_systemidx s.tables k i
  | get =>
      obtain ⟨_, _, _, _, rfl⟩ := get_cases stepped
      rfl
  | reset =>
      obtain ⟨request, _, rfl | ⟨_, rfl | ⟨k, tables, found, rfl⟩⟩⟩ := reset_cases stepped
      · rfl
      · rfl
      · obtain ⟨_, _, rfl, _⟩ := resetLinkStatus_some found
        rfl
  | send env =>
      obtain ⟨request, tables, wire, _, sent, rfl⟩ := send_cases stepped
      rcases (sendRsp_eq sent).1 with rfl | rfl
      · rfl
      · rcases sendDisconnect_cases inv.mode request.block.alistIdx with same | ⟨_, same⟩
        · simp only [same]
        · simp only [same]
          exact teardown_systemidx s.tables request.block.alistIdx i
  | copy =>
      obtain ⟨_, _, _, _, _, rfl⟩ := copy_cases stepped
      rfl
  | writeBack =>
      obtain ⟨_, _, _, _, rfl⟩ := writeBack_cases stepped
      simp only
      split <;> rfl

theorem step_numbered {event : HostEvent} (inv : TableInv s.tables s.accepting)
    (numbered : Numbered s.tables)
    (stepped : HostSystem.step order traced s event = some next) : Numbered next.tables := by
  by_cases accepts : ∃ fd port vm, event = .accept fd port vm
  · obtain ⟨fd, port, vm, rfl⟩ := accepts
    obtain ⟨_, ⟨i, _, rfl⟩ | ⟨_, rfl⟩⟩ := accept_cases inv stepped
    · intro j lives
      by_cases here : j = i
      · subst here
        simp [takeSlot]
      · simp only [takeSlot, Function.update_of_ne here] at lives ⊢
        exact numbered j lives
    · exact numbered
  · have other : ∀ fd port vm, event ≠ .accept fd port vm :=
      fun fd port vm same => accepts ⟨fd, port, vm, same⟩
    intro i lives
    rw [step_systemidx inv stepped other]
    exact numbered i ((step_shrinks inv stepped other).live i lives)

/-- In every state of every run the two listings of a call agree in these columns, though one
numbers the slots and the other prints the stored index. They have one line for each
connection that is open, and both say that so many are running and none is down; the file has
no listing when it cannot be opened. -/
theorem run_listings {listenFd : Int} (listening : 0 < listenFd) {events : List HostEvent}
    {final : Host}
    (reached : run (HostSystem.step order traced) (Host.init listenFd) events = some final) :
    ∃ lines, (descriptors lines).Nodup ∧
      (descriptors lines).toFinset = final.tables.openFds.erase final.tables.listenFd ∧
      ∀ fopenOk, tcpInfo final.tables fopenOk =
        (⟨lines, (final.tables.openFds.erase final.tables.listenFd).card, 0,
          (final.tables.openFds.erase final.tables.listenFd).card⟩,
        if fopenOk then
          some ⟨lines, (final.tables.openFds.erase final.tables.listenFd).card,
            (final.tables.openFds.erase final.tables.listenFd).card⟩
        else none) := by
  obtain ⟨inv, numbered⟩ : TableInv final.tables final.accepting ∧ Numbered final.tables :=
    run_invariant (fun s => TableInv s.tables s.accepting ∧ Numbered s.tables)
      (fun _ _ _ before stepped =>
        ⟨step_tableInv before.1 stepped, step_numbered before.1 before.2 stepped⟩)
      ⟨init_tableInv listening, fun _ lives => absurd lives (show ¬ (0 : Int) < -1 by decide)⟩
      reached
  have once := descriptors_nodup inv
  have opened := descriptors_toFinset inv
  have count : (listed final.tables (List.finRange maxSystemNum)).length =
      (final.tables.openFds.erase final.tables.listenFd).card := by
    rw [← opened, List.toFinset_card_of_nodup once, descriptors, List.length_map,
      List.length_map]
  refine ⟨(listed final.tables (List.finRange maxSystemNum)).map (lineOf final.tables), once,
    opened, fun fopenOk => ?_⟩
  rw [tcpInfo, writeProcInfo, inv.mode, writeProcInfo_loop inv.live numbered]
  dsimp only
  rw [tcpInfo_loop inv.live, count, List.nil_append, Nat.zero_add]

/-- Two connections, the first of which is lost. -/
theorem run_listings_oneLeft :
    ∃ final lines, run (HostSystem.step .little false) (Host.init 3) [.accept 5 40000 1,
        .acceptSet, .accept 6 40001 2, .acceptSet, .receive 0 [.closed]] = some final ∧
      (descriptors lines).toFinset = {6} ∧
      tcpInfo final.tables true = (⟨lines, 1, 0, 1⟩, some ⟨lines, 1, 1⟩) ∧
      tcpInfo final.tables false = (⟨lines, 1, 0, 1⟩, none) := by
  obtain ⟨final, reached, left⟩ : ∃ final, run (HostSystem.step .little false) (Host.init 3)
      [.accept 5 40000 1, .acceptSet, .accept 6 40001 2, .acceptSet, .receive 0 [.closed]] =
        some final ∧ final.tables.openFds.erase final.tables.listenFd = {6} :=
    exists_of_any (by decide +kernel)
  obtain ⟨lines, -, opened, info⟩ := run_listings (by decide) reached
  rw [left] at opened info
  exact ⟨final, lines, reached, opened, info true, info false⟩

end Run

end VnfMonitoring.HostInfo
