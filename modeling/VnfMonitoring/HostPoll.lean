import Mathlib.Data.Finset.Card
import VnfMonitoring.HostConnection
import VnfMonitoring.TcpOpen

set_option autoImplicit false

/- The loop of `tcp_rcvTask` around its `select`, and the largest descriptor that it has
been given. The other tasks go on between its sections, and outside `TcpMutex` within them. -/
namespace VnfMonitoring.HostPoll

open VnfMonitoring.Memory VnfMonitoring.Socket VnfMonitoring.Bpapp VnfMonitoring.HostSock
  VnfMonitoring.HostSystem VnfMonitoring.HostTable VnfMonitoring.HostConnection VnfMonitoring.Runs
  VnfMonitoring.TcpOpen

/-- `compareMaxfd`, with the `MaxFD` that it leaves. -/
def compareMaxfd (maxFd compareFd : Int) : Int :=
  if compareFd > 0 then if maxFd < compareFd then compareFd else maxFd else maxFd

/-- A round: how many connections had been accepted before it, those whose descriptors
`select` has left in the set, those read, and whether the accept branch has gone back to the
`select` without the receive loop. -/
structure Round where
  seen : Nat
  ready : List Nat
  served : List Nat
  skipped : Bool

/-- Where `tcp_rcvTask` stands: before its select, before the accept, between the two
sections of the accept, or at a slot of the receive loop. -/
inductive Phase where
  | polling
  | selected (rset : Finset Int) (round : Round)
  | accepted (rset : Finset Int) (round : Round)
  | receiving (rset : Finset Int) (round : Round) (i : Nat)

structure Poller where
  host : Host
  maxFd : Int
  phase : Phase
  rounds : List Round

/-- `tcp_rcvTask` once it has opened its listening socket. -/
def Poller.init (listenFd : Int) : Poller where
  host := .init listenFd
  maxFd := compareMaxfd 0 listenFd
  phase := .polling
  rounds := []

/-- The start of `tcp_rcvTask`, with its `TcpOpen`. -/
def Poller.start (env : OpenEnv) : Option Poller :=
  (tcpOpen hostSetup HostTables.init.mode ∅ env).map fun opened =>
    if opened.1 ≤ 0 then
      { host := { Host.init opened.1 with
          tables := { HostTables.init with listenFd := opened.1, openFds := opened.2 } }
        maxFd := 0
        phase := .polling
        rounds := [] }
    else
      { host := { Host.init opened.1 with
          tables :=
            { HostTables.init with
              listenFd := opened.1
              allset := {opened.1}
              openFds := opened.2 } }
        maxFd := compareMaxfd 0 opened.1
        phase := .polling
        rounds := [] }

/-- The task listens on what `TcpOpen` has opened, or on nothing, and then it may have lost
the socket. -/
theorem start_cases {env : OpenEnv} {s : Poller} (started : Poller.start env = some s) :
    (0 < s.host.tables.listenFd ∧ s = .init s.host.tables.listenFd) ∨
      (s.host.tables.listenFd < 0 ∧ s.maxFd = 0 ∧ s.host.tables.allset = ∅ ∧
        s.host.tables.openFds =
          if Leaks hostSetup .server env then {env.socket} else ∅) := by
  obtain ⟨⟨listenFd, openFds⟩, done, rfl⟩ := Option.map_eq_some_iff.mp started
  obtain ⟨_, ⟨failed, rfl, whole⟩ | ⟨failed, _, _, rfl, leaks⟩ | ⟨opened, _, rfl, _⟩⟩ :=
    tcpOpen_cases (hostSetup_negative .server) done
  · rw [if_pos (by exact failed.le), if_neg whole]
    exact Or.inr ⟨failed, rfl, rfl, rfl⟩
  · rw [if_pos (by exact failed.le), if_pos leaks]
    exact Or.inr ⟨failed, rfl, rfl, rfl⟩
  · rw [if_neg (by exact not_le.mpr opened)]
    exact Or.inl ⟨opened, rfl⟩

inductive PollEvent where
  /-- `recv_extendedPoll`: the descriptors that can be read, or a failed `select`. -/
  | select (readable : Option (Finset Int))
  | accept (fd : Int) (port : UInt16) (vm : UInt32)
  | acceptSet
  /-- No connection to accept. -/
  | enter
  | receive (events : List RecvEvent)
  /-- A step of another task. -/
  | other (event : HostEvent)

/-- The slots whose descriptors are in a set. -/
def slotsIn (t : HostTables) (rset : Finset Int) : List Slot :=
  (List.finRange maxSystemNum).filter fun j =>
    decide (0 < (t.alist j).acceptFd ∧ (t.alist j).acceptFd ∈ rset)

/-- What `select` leaves of a set: it looks at the descriptors up to `maxFd` only. -/
def selectSet (maxFd : Int) (allset readable : Finset Int) : Finset Int :=
  allset.filter fun fd => fd ≤ maxFd → fd ∈ readable

/-- What `select` counts. -/
def numEvents (maxFd : Int) (allset readable : Finset Int) : Nat :=
  (allset.filter fun fd => fd ≤ maxFd ∧ fd ∈ readable).card

/-- `recv_extendedPoll` on a copy of `allset`. -/
def pollStep (s : Poller) : Option (Finset Int) → Poller
  | none => s
  | some readable =>
      if s.maxFd ≤ 0 ∨ numEvents s.maxFd s.host.tables.allset readable = 0 then s
      else
        let rset := selectSet s.maxFd s.host.tables.allset readable
        let ready := (slotsIn s.host.tables rset).map fun j => (s.host.conn j).id
        { s with phase := .selected rset ⟨s.host.accepted, ready, [], false⟩ }

/-- The `continue` of the accept branch. -/
def skipRound (s : Poller) (round : Round) : Poller :=
  { s with phase := .polling, rounds := s.rounds ++ [{ round with skipped := true }] }

/-- The slot of the receive loop, or its end. -/
def receiveStep (order : ByteOrder) (traced : Bool) (s : Poller) (rset : Finset Int)
    (round : Round) (i : Nat) (events : List RecvEvent) : Option Poller :=
  if inside : i < maxSystemNum then
    let j : Slot := ⟨i, inside⟩
    let fd := (s.host.tables.alist j).acceptFd
    if 0 < fd ∧ fd ∈ rset then
      (HostSystem.step order traced s.host (.receive j events)).map fun host =>
        { s with
          host
          phase :=
            .receiving rset { round with served := round.served ++ [(s.host.conn j).id] } (i + 1) }
    else some { s with phase := .receiving rset round (i + 1) }
  else some { s with phase := .polling, rounds := s.rounds ++ [round] }

/-- What other tasks may do: `fifo_getTask` waits with a response for the receive loop. -/
def OtherOk : Phase → HostEvent → Prop
  | _, .accept .. | _, .acceptSet | _, .receive .. => False
  | .receiving .., .send _ => False
  | _, _ => True

instance (phase : Phase) (event : HostEvent) : Decidable (OtherOk phase event) := by
  unfold OtherOk
  split <;> infer_instance

def step (order : ByteOrder) (traced : Bool) (s : Poller) : PollEvent → Option Poller
  | .select readable =>
      match s.phase with
      | .polling => some (pollStep s readable)
      | _ => none
  | .accept fd port vm =>
      match s.phase with
      | .selected rset round =>
          if 0 < s.host.tables.listenFd ∧ s.host.tables.listenFd ∈ rset then
            (HostSystem.step order traced s.host (.accept fd port vm)).map fun host =>
              if host.accepting.isSome then { s with host, phase := .accepted rset round }
              else skipRound { s with host } round
          else none
      | _ => none
  | .enter =>
      match s.phase with
      | .selected rset round =>
          if 0 < s.host.tables.listenFd ∧ s.host.tables.listenFd ∈ rset then none
          else some { s with phase := .receiving rset round 0 }
      | _ => none
  | .acceptSet =>
      match s.phase, s.host.accepting with
      | .accepted rset round, some i =>
          let fd := (s.host.tables.alist i).acceptFd
          (HostSystem.step order traced s.host .acceptSet).map fun host =>
            if fd > 0 then
              { s with
                host, maxFd := compareMaxfd s.maxFd fd, phase := .receiving rset round 0 }
            else skipRound { s with host } round
      | _, _ => none
  | .receive events =>
      match s.phase with
      | .receiving rset round i => receiveStep order traced s rset round i events
      | _ => none
  | .other event =>
      if OtherOk s.phase event then
        (HostSystem.step order traced s.host event).map fun host => { s with host }
      else none

section Steps

variable {order : ByteOrder} {traced : Bool} {s next : Poller}

theorem single {s next : Host} {event : HostEvent}
    (moved : HostSystem.step order traced s event = some next) :
    ∃ taken, run (HostSystem.step order traced) s taken = some next :=
  ⟨[event], by rw [run_singleton, moved]⟩

/-- What the loop does to the host is a step of it, or nothing. -/
theorem step_host {event : PollEvent} (stepped : step order traced s event = some next) :
    ∃ taken, run (HostSystem.step order traced) s.host taken = some next.host := by
  have idle (same : next.host = s.host) :
      ∃ taken, run (HostSystem.step order traced) s.host taken = some next.host :=
    ⟨[], by rw [same]; rfl⟩
  cases event with
  | select readable =>
      simp only [step] at stepped
      split at stepped
      · cases stepped
        apply idle
        unfold pollStep
        split
        · rfl
        · split <;> rfl
      · cases stepped
  | accept fd port vm =>
      simp only [step] at stepped
      split at stepped
      · split at stepped
        · obtain ⟨host, moved, rfl⟩ := Option.map_eq_some_iff.mp stepped
          split <;> exact single moved
        · cases stepped
      · cases stepped
  | enter =>
      simp only [step] at stepped
      split at stepped
      · split at stepped
        · cases stepped
        · cases stepped
          exact idle rfl
      · cases stepped
  | acceptSet =>
      simp only [step] at stepped
      split at stepped
      · obtain ⟨host, moved, rfl⟩ := Option.map_eq_some_iff.mp stepped
        split <;> exact single moved
      · cases stepped
  | receive events =>
      simp only [step] at stepped
      split at stepped
      · unfold receiveStep at stepped
        split at stepped
        · simp only at stepped
          split at stepped
          · obtain ⟨host, moved, rfl⟩ := Option.map_eq_some_iff.mp stepped
            exact single moved
          · cases stepped
            exact idle rfl
        · cases stepped
          exact idle rfl
      · cases stepped
  | other event =>
      simp only [step] at stepped
      split at stepped
      · obtain ⟨host, moved, rfl⟩ := Option.map_eq_some_iff.mp stepped
        exact single moved
      · cases stepped

/-- Every run of the loop with the other tasks is a run of the host. -/
theorem run_host {listenFd : Int} {events : List PollEvent} {final : Poller}
    (reached : run (step order traced) (Poller.init listenFd) events = some final) :
    ∃ taken, run (HostSystem.step order traced) (Host.init listenFd) taken = some final.host :=
  run_refines Poller.host (fun _ _ _ stepped => step_host stepped) reached

/-- A round that accepts a connection, and one that loses it. -/
def twoRounds : List PollEvent :=
  [.select (some {3}), .accept 5 40000 1, .acceptSet] ++
    List.replicate (maxSystemNum + 1) (.receive []) ++ [.select (some {5}), .enter] ++
    List.replicate (maxSystemNum + 1) (.receive [.closed])

theorem twoRounds_reached :
    ∃ final, run (step .little false) (Poller.init 3) twoRounds = some final ∧
      final.rounds.map (fun round => (round.ready, round.served)) = [([], []), ([1], [1])] :=
  exists_of_any (by decide +kernel)

end Steps

section Bounds

variable {order : ByteOrder} {traced : Bool} {s next : Poller}

theorem le_compareMaxfd (maxFd compareFd : Int) : maxFd ≤ compareMaxfd maxFd compareFd := by
  unfold compareMaxfd
  split
  · split <;> omega
  · exact Int.le_refl _

theorem compareMaxfd_le {maxFd compareFd : Int} (positive : 0 < compareFd) :
    compareFd ≤ compareMaxfd maxFd compareFd := by
  rw [compareMaxfd, if_pos positive]
  split <;> omega

/-- With no watched descriptor beyond `maxFd`, what is left in the set can be read. -/
theorem selectSet_exact {maxFd : Int} {allset readable : Finset Int}
    (bounded : ∀ fd ∈ allset, fd ≤ maxFd) :
    selectSet maxFd allset readable = allset ∩ readable := by
  ext fd
  rw [selectSet, Finset.mem_filter, Finset.mem_inter]
  exact and_congr_right fun watched => ⟨fun left => left (bounded fd watched), fun read _ => read⟩

/-- The descriptors that the loop watches or is about to are not beyond `maxFd`. -/
structure Bounded (s : Poller) : Prop where
  listening : s.host.tables.listenFd ≤ s.maxFd
  slots : ∀ i, s.host.accepting ≠ some i → 0 < (s.host.tables.alist i).acceptFd →
    (s.host.tables.alist i).acceptFd ≤ s.maxFd

theorem Bounded.allset (bounded : Bounded s)
    (table : TableInv s.host.tables s.host.accepting) :
    ∀ fd ∈ s.host.tables.allset, fd ≤ s.maxFd := by
  intro fd watched
  rcases (table.watched fd).mp watched with rfl | ⟨i, set, positive, rfl⟩
  · exact bounded.listening
  · exact bounded.slots i set positive

/-- A step that sets no descriptor and gives no slot a connection. -/
theorem Bounded.shrinks (bounded : Bounded s) {host : Host} (shrinks : Shrinks s.host host)
    (accepting : host.accepting = s.host.accepting) {phase : Phase} {rounds : List Round} :
    Bounded ⟨host, s.maxFd, phase, rounds⟩ where
  listening := by
    rw [shrinks.listenFd]
    exact bounded.listening
  slots := by
    intro i set lives
    change (host.tables.alist i).acceptFd ≤ s.maxFd
    rw [shrinks.fds i lives]
    exact bounded.slots i (accepting ▸ set) (shrinks.live i lives)

theorem step_accepting {s next : Host} {event : HostEvent}
    (stepped : HostSystem.step order traced s event = some next)
    (other : ∀ fd port vm, event ≠ .accept fd port vm) (set : event ≠ .acceptSet) :
    next.accepting = s.accepting := by
  cases event with
  | accept fd port vm => exact absurd rfl (other fd port vm)
  | acceptSet => exact absurd rfl set
  | receive i events =>
      obtain ⟨_, result, _, ⟨_, tables, buf, block, _, _, rfl⟩ | rfl⟩ := receive_split stepped
      · rfl
      · rfl
  | get =>
      obtain ⟨_, _, _, _, rfl⟩ := get_cases stepped
      rfl
  | reset =>
      obtain ⟨_, _, rfl | ⟨_, rfl | ⟨_, _, _, rfl⟩⟩⟩ := reset_cases stepped
      · rfl
      · rfl
      · rfl
  | send env =>
      obtain ⟨_, _, _, _, _, rfl⟩ := send_cases stepped
      rfl
  | copy =>
      obtain ⟨_, _, _, _, _, rfl⟩ := copy_cases stepped
      rfl
  | writeBack =>
      obtain ⟨_, _, _, _, rfl⟩ := writeBack_cases stepped
      rfl

end Bounds

section Rounds

variable {s next : Host} {rset : Finset Int} {round : Round} {i : Nat}

/-- A step after which a live slot has the descriptor and the connection that it had, or a
connection that is new. -/
structure Moves (s next : Host) : Prop where
  accepted : s.accepted ≤ next.accepted
  slots : ∀ j, 0 < (next.tables.alist j).acceptFd →
    ((next.tables.alist j).acceptFd = (s.tables.alist j).acceptFd ∧ next.conn j = s.conn j) ∨
      s.accepted < (next.conn j).id

theorem Moves.of_shrinks (shrinks : Shrinks s next) : Moves s next where
  accepted := Nat.le_of_eq shrinks.accepted.symm
  slots := fun j lives => Or.inl ⟨shrinks.fds j lives, by rw [shrinks.conn]⟩

theorem Moves.of_taken {k : Slot} (taken : TakenBy s next k) : Moves s next where
  accepted := by
    rw [taken.accepted]
    omega
  slots := by
    intro j _
    rcases taken.slot j with ⟨_, new⟩ | ⟨_, kept⟩
    · exact Or.inr (by omega)
    · exact Or.inl kept

/-- A round whose receive loop is at slot `i`. A connection that was reported has been read,
is still to be read, or is gone; what is read was reported, or accepted since. -/
structure RoundInv (s : Host) (rset : Finset Int) (round : Round) (i : Nat) : Prop where
  goesOn : round.skipped = false
  first : i = 0 → round.served = []
  seen : round.seen ≤ s.accepted
  known : ∀ c ∈ round.ready, c ≤ round.seen
  fresh : ∀ j : Slot, i ≤ j.val → 0 < (s.tables.alist j).acceptFd →
    (s.tables.alist j).acceptFd ∈ rset → (s.conn j).id ∈ round.ready ∨ round.seen < (s.conn j).id
  due : ∀ c ∈ round.ready, c ∉ round.served → ∀ j : Slot, 0 < (s.tables.alist j).acceptFd →
    (s.conn j).id = c → i ≤ j.val ∧ (s.tables.alist j).acceptFd ∈ rset
  read : ∀ c ∈ round.served, c ≤ s.accepted ∧ (c ∈ round.ready ∨ round.seen < c)
  apart : ∀ j : Slot, i ≤ j.val → 0 < (s.tables.alist j).acceptFd → (s.conn j).id ∉ round.served
  nodup : round.served.Nodup

/-- A round that is over. -/
structure RoundDone (s : Host) (round : Round) : Prop where
  nodup : round.served.Nodup
  read : ∀ c ∈ round.served, c ∈ round.ready ∨ round.seen < c
  known : ∀ c ∈ round.ready, c ≤ s.accepted
  skipped : round.skipped = true → round.served = []
  complete : round.skipped = false → ∀ c ∈ round.ready, c ∈ round.served ∨ ¬ Lives s c

theorem RoundInv.moves (inv : RoundInv s rset round i) (moves : Moves s next) :
    RoundInv next rset round i where
  goesOn := inv.goesOn
  first := inv.first
  seen := Nat.le_trans inv.seen moves.accepted
  known := inv.known
  fresh := by
    intro j from_ lives set
    have seen := inv.seen
    rcases moves.slots j lives with ⟨fd, conn⟩ | new
    · rw [conn]
      exact inv.fresh j from_ (fd ▸ lives) (fd ▸ set)
    · exact Or.inr (by omega)
  due := by
    intro c ready unread j lives same
    have seen := inv.seen
    have known := inv.known c ready
    rcases moves.slots j lives with ⟨fd, conn⟩ | new
    · rw [conn] at same
      rw [fd]
      exact inv.due c ready unread j (fd ▸ lives) same
    · omega
  read := fun c served =>
    ⟨Nat.le_trans (inv.read c served).1 moves.accepted, (inv.read c served).2⟩
  apart := by
    intro j from_ lives served
    have before := (inv.read _ served).1
    rcases moves.slots j lives with ⟨fd, conn⟩ | new
    · rw [conn] at served
      exact inv.apart j from_ (fd ▸ lives) served
    · omega
  nodup := inv.nodup

theorem RoundDone.moves (done : RoundDone s round) (moves : Moves s next) :
    RoundDone next round where
  nodup := done.nodup
  read := done.read
  known := fun c ready => Nat.le_trans (done.known c ready) moves.accepted
  skipped := done.skipped
  complete := by
    intro whole c ready
    have known := done.known c ready
    rcases done.complete whole c ready with served | gone
    · exact Or.inl served
    · refine Or.inr fun ⟨j, lives, same⟩ => ?_
      rcases moves.slots j lives with ⟨fd, conn⟩ | new
      · exact gone ⟨j, fd ▸ lives, by rw [← same, conn]⟩
      · omega

/-- What `select` begins. -/
theorem select_roundInv (conns : ConnInv s) (rset : Finset Int) :
    RoundInv s rset ⟨s.accepted, (slotsIn s.tables rset).map fun j => (s.conn j).id, [], false⟩
      0 := by
  have mem (j : Slot) : j ∈ slotsIn s.tables rset ↔
      0 < (s.tables.alist j).acceptFd ∧ (s.tables.alist j).acceptFd ∈ rset := by
    simp only [slotsIn, List.mem_filter, List.mem_finRange, true_and, decide_eq_true_eq]
  refine ⟨rfl, fun _ => rfl, Nat.le_refl _, ?_, ?_, ?_, nofun, nofun, List.nodup_nil⟩
  · intro c ready
    obtain ⟨j, _, rfl⟩ := List.mem_map.mp ready
    exact conns.accepted j
  · intro j _ lives set
    exact Or.inl (List.mem_map.mpr ⟨j, (mem j).mpr ⟨lives, set⟩, rfl⟩)
  · intro c ready _ j lives same
    obtain ⟨k, reported, rfl⟩ := List.mem_map.mp ready
    obtain ⟨open_, set⟩ := (mem k).mp reported
    have here := conns.unique j k lives open_ same
    subst here
    exact ⟨Nat.zero_le _, set⟩

/-- The loop reads the connection of a slot. -/
theorem RoundInv.serve (inv : RoundInv s rset round i) (conns : ConnInv s) {j : Slot}
    (here : j.val = i) (lives : 0 < (s.tables.alist j).acceptFd)
    (set : (s.tables.alist j).acceptFd ∈ rset) :
    RoundInv s rset { round with served := round.served ++ [(s.conn j).id] } (i + 1) where
  goesOn := inv.goesOn
  first := fun start => absurd start (Nat.succ_ne_zero i)
  seen := inv.seen
  known := inv.known
  fresh := fun k from_ => inv.fresh k (by omega)
  due := by
    intro c ready unread k open_ same
    rw [List.mem_append, List.mem_singleton, not_or] at unread
    obtain ⟨from_, inside⟩ := inv.due c ready unread.1 k open_ same
    have other : k ≠ j := by
      rintro rfl
      exact unread.2 same.symm
    have apart : k.val ≠ j.val := fun equal => other (Fin.ext equal)
    exact ⟨by omega, inside⟩
  read := by
    intro c served
    rcases List.mem_append.mp served with old | new
    · exact inv.read c old
    · obtain rfl := List.mem_singleton.mp new
      exact ⟨conns.accepted j, inv.fresh j (Nat.le_of_eq here.symm) lives set⟩
  apart := by
    intro k from_ open_ served
    rcases List.mem_append.mp served with old | new
    · exact inv.apart k (by omega) open_ old
    · have equal := conns.unique k j open_ lives (List.mem_singleton.mp new)
      subst equal
      omega
  nodup := by
    refine List.Nodup.append inv.nodup (List.nodup_singleton _) ?_
    rw [List.disjoint_singleton]
    exact inv.apart j (Nat.le_of_eq here.symm) lives

/-- The loop passes a slot that is not live or not in the set. -/
theorem RoundInv.pass (inv : RoundInv s rset round i) {j : Slot} (here : j.val = i)
    (out : ¬ (0 < (s.tables.alist j).acceptFd ∧ (s.tables.alist j).acceptFd ∈ rset)) :
    RoundInv s rset round (i + 1) where
  goesOn := inv.goesOn
  first := fun start => absurd start (Nat.succ_ne_zero i)
  seen := inv.seen
  known := inv.known
  fresh := fun k from_ => inv.fresh k (by omega)
  due := by
    intro c ready unread k lives same
    obtain ⟨from_, inside⟩ := inv.due c ready unread k lives same
    have other : k ≠ j := by
      rintro rfl
      exact out ⟨lives, inside⟩
    have apart : k.val ≠ j.val := fun equal => other (Fin.ext equal)
    exact ⟨by omega, inside⟩
  read := inv.read
  apart := fun k from_ => inv.apart k (by omega)
  nodup := inv.nodup

theorem RoundInv.done (inv : RoundInv s rset round i) (over_ : maxSystemNum ≤ i) :
    RoundDone s round where
  nodup := inv.nodup
  read := fun c served => (inv.read c served).2
  known := fun c ready => Nat.le_trans (inv.known c ready) inv.seen
  skipped := fun left_ => absurd (inv.goesOn.symm.trans left_) Bool.false_ne_true
  complete := by
    intro _ c ready
    by_cases served : c ∈ round.served
    · exact Or.inl served
    · refine Or.inr fun ⟨j, lives, same⟩ => ?_
      have from_ := (inv.due c ready served j lives same).1
      have inside := j.isLt
      omega

/-- A round that ends before its receive loop has read nothing. -/
theorem RoundInv.skip (inv : RoundInv s rset round 0) :
    RoundDone s { round with skipped := true } where
  nodup := inv.nodup
  read := fun c served => (inv.read c served).2
  known := fun c ready => Nat.le_trans (inv.known c ready) inv.seen
  skipped := fun _ => inv.first rfl
  complete := fun whole => absurd whole.symm Bool.false_ne_true

end Rounds

section Run

variable {order : ByteOrder} {traced : Bool} {s next : Poller}

def PhaseInv (s : Host) : Phase → Prop
  | .polling => s.accepting = none
  | .selected rset round => s.accepting = none ∧ RoundInv s rset round 0
  | .accepted rset round => RoundInv s rset round 0
  | .receiving rset round i => s.accepting = none ∧ RoundInv s rset round i

structure PollInv (s : Poller) : Prop where
  table : TableInv s.host.tables s.host.accepting
  conns : ConnInv s.host
  bounded : Bounded s
  phase : PhaseInv s.host s.phase
  rounds : ∀ round ∈ s.rounds, RoundDone s.host round

theorem init_pollInv {listenFd : Int} (listening : 0 < listenFd) :
    PollInv (Poller.init listenFd) where
  table := init_tableInv listening
  conns := ⟨fun _ => Nat.le_refl 0, fun _ _ lives => absurd lives (show ¬ (0 : Int) < -1 by decide)⟩
  bounded := ⟨compareMaxfd_le listening,
    fun _ _ lives => absurd lives (show ¬ (0 : Int) < -1 by decide)⟩
  phase := rfl
  rounds := nofun

theorem PhaseInv.moves {s next : Host} {phase : Phase} (inv : PhaseInv s phase)
    (moves : Moves s next) (accepting : next.accepting = s.accepting) : PhaseInv next phase := by
  cases phase with
  | polling => exact accepting.trans inv
  | selected rset round => exact ⟨accepting.trans inv.1, inv.2.moves moves⟩
  | accepted rset round => exact RoundInv.moves inv moves
  | receiving rset round i => exact ⟨accepting.trans inv.1, inv.2.moves moves⟩

theorem pollStep_inv (inv : PollInv s) (idle : s.host.accepting = none)
    (readable : Option (Finset Int)) : PollInv (pollStep s readable) := by
  unfold pollStep
  split
  · exact inv
  · split
    · exact inv
    · exact ⟨inv.table, inv.conns, ⟨inv.bounded.listening, inv.bounded.slots⟩,
        ⟨idle, select_roundInv inv.conns _⟩, inv.rounds⟩

/-- The loop goes back to its `select`. -/
theorem skipRound_inv {round : Round} (table : TableInv s.host.tables s.host.accepting)
    (conns : ConnInv s.host) (bounded : Bounded s) (idle : s.host.accepting = none)
    (rounds : ∀ round ∈ s.rounds, RoundDone s.host round) {rset : Finset Int}
    (begun : RoundInv s.host rset round 0) : PollInv (skipRound s round) := by
  refine ⟨table, conns, ⟨bounded.listening, bounded.slots⟩, idle, fun other past => ?_⟩
  rcases List.mem_append.mp past with old | here
  · exact rounds other old
  · obtain rfl := List.mem_singleton.mp here
    exact begun.skip

/-- A step of another task, or a receive. -/
theorem PollInv.shrinks (inv : PollInv s) {host : Host} {event : HostEvent}
    (moved : HostSystem.step order traced s.host event = some host)
    (other : ∀ fd port vm, event ≠ .accept fd port vm) (set : event ≠ .acceptSet) :
    PollInv { s with host } := by
  have shrinks := step_shrinks inv.table moved other
  have accepting := step_accepting moved other set
  exact ⟨step_tableInv inv.table moved, shrinks.connInv inv.conns,
    inv.bounded.shrinks shrinks accepting, inv.phase.moves (.of_shrinks shrinks) accepting,
    fun round past => (inv.rounds round past).moves (.of_shrinks shrinks)⟩

theorem accept_pollInv (inv : PollInv s) {rset : Finset Int} {round : Round}
    (selected : s.phase = .selected rset round) {host : Host} {fd : Int} {port : UInt16}
    {vm : UInt32} (moved : HostSystem.step order traced s.host (.accept fd port vm) = some host) :
    PollInv
      (if host.accepting.isSome then { s with host, phase := .accepted rset round }
      else skipRound { s with host } round) := by
  have phase := inv.phase
  rw [selected] at phase
  obtain ⟨idle, begun⟩ := phase
  rcases accept_taken inv.table moved with ⟨i, taken⟩ | ⟨rfl, _⟩
  · rw [if_pos (by rw [taken.accepting]; rfl)]
    refine ⟨step_tableInv inv.table moved, taken.connInv inv.conns, ⟨?_, ?_⟩, ?_,
      fun round past => (inv.rounds round past).moves (.of_taken taken)⟩
    · simp only [taken.listenFd]
      exact inv.bounded.listening
    · intro j set lives
      simp only [taken.accepting, ne_eq, Option.some.injEq] at set
      have kept := (taken.others j (Ne.symm set)).1
      simp only [kept] at lives ⊢
      exact inv.bounded.slots j (by rw [idle]; nofun) lives
    · exact begun.moves (.of_taken taken)
  · rw [if_neg (by simp [idle])]
    exact skipRound_inv inv.table inv.conns inv.bounded idle inv.rounds begun

theorem acceptSet_pollInv (inv : PollInv s) {rset : Finset Int} {round : Round}
    (accepted : s.phase = .accepted rset round) {i : Slot} (half : s.host.accepting = some i)
    {host : Host} (moved : HostSystem.step order traced s.host .acceptSet = some host)
    (done : (if (s.host.tables.alist i).acceptFd > 0 then
        { s with
          host
          maxFd := compareMaxfd s.maxFd (s.host.tables.alist i).acceptFd
          phase := .receiving rset round 0 }
      else skipRound { s with host } round) = next) : PollInv next := by
  have shrinks := step_shrinks inv.table moved nofun
  have idle : host.accepting = none := by
    obtain ⟨_, _, rfl⟩ := Option.map_eq_some_iff.mp moved
    rfl
  have phase := inv.phase
  rw [accepted] at phase
  have begun : RoundInv host rset round 0 := RoundInv.moves phase (.of_shrinks shrinks)
  have table := step_tableInv inv.table moved
  have conns := shrinks.connInv inv.conns
  have rounds : ∀ round ∈ s.rounds, RoundDone host round :=
    fun round past => (inv.rounds round past).moves (.of_shrinks shrinks)
  have bound (j : Slot) (lives : 0 < (host.tables.alist j).acceptFd) (other : j ≠ i) :
      (host.tables.alist j).acceptFd ≤ s.maxFd := by
    rw [shrinks.fds j lives]
    refine inv.bounded.slots j ?_ (shrinks.live j lives)
    rw [half]
    exact fun same => other (Option.some_inj.mp same).symm
  have listening := inv.bounded.listening
  have more := le_compareMaxfd s.maxFd (s.host.tables.alist i).acceptFd
  split at done
  · rename_i lives
    subst done
    refine ⟨table, conns, ⟨?_, fun j _ open_ => ?_⟩, ⟨idle, begun⟩, rounds⟩
    · simp only [shrinks.listenFd]
      omega
    · by_cases here : j = i
      · subst here
        simp only [shrinks.fds j open_]
        exact compareMaxfd_le lives
      · have := bound j open_ here
        simp only
        omega
  · rename_i lost
    subst done
    refine skipRound_inv table conns ⟨?_, fun j _ open_ => ?_⟩ idle rounds begun
    · simp only [shrinks.listenFd]
      exact listening
    · apply bound j open_
      rintro rfl
      exact lost (shrinks.live j open_)

theorem receiveStep_pollInv (inv : PollInv s) {rset : Finset Int} {round : Round} {i : Nat}
    (receiving : s.phase = .receiving rset round i) {events : List RecvEvent}
    (done : receiveStep order traced s rset round i events = some next) : PollInv next := by
  have phase := inv.phase
  rw [receiving] at phase
  obtain ⟨idle, begun⟩ := phase
  unfold receiveStep at done
  split at done
  · rename_i inside
    simp only at done
    split at done
    · rename_i due
      obtain ⟨host, moved, rfl⟩ := Option.map_eq_some_iff.mp done
      have after := inv.shrinks moved nofun nofun
      have shrinks := step_shrinks inv.table moved nofun
      have accepting := step_accepting moved nofun nofun
      have read := begun.serve inv.conns (show (⟨i, inside⟩ : Slot).val = i from rfl) due.1 due.2
      exact ⟨after.table, after.conns, ⟨after.bounded.listening, after.bounded.slots⟩,
        ⟨accepting.trans idle, read.moves (.of_shrinks shrinks)⟩, after.rounds⟩
    · rename_i out
      cases done
      exact ⟨inv.table, inv.conns, ⟨inv.bounded.listening, inv.bounded.slots⟩,
        ⟨idle, begun.pass (show (⟨i, inside⟩ : Slot).val = i from rfl) out⟩, inv.rounds⟩
  · rename_i last
    cases done
    refine ⟨inv.table, inv.conns, ⟨inv.bounded.listening, inv.bounded.slots⟩, idle, ?_⟩
    intro other past
    rcases List.mem_append.mp past with old | here
    · exact inv.rounds other old
    · obtain rfl := List.mem_singleton.mp here
      exact begun.done (Nat.le_of_not_lt last)

theorem step_pollInv {event : PollEvent} (inv : PollInv s)
    (stepped : step order traced s event = some next) : PollInv next := by
  have phase := inv.phase
  cases event with
  | select readable =>
      simp only [step] at stepped
      split at stepped
      · rename_i polling
        cases stepped
        rw [polling] at phase
        exact pollStep_inv inv phase readable
      · cases stepped
  | accept fd port vm =>
      simp only [step] at stepped
      split at stepped
      · rename_i selected
        split at stepped
        · obtain ⟨host, moved, rfl⟩ := Option.map_eq_some_iff.mp stepped
          exact accept_pollInv inv selected moved
        · cases stepped
      · cases stepped
  | enter =>
      simp only [step] at stepped
      split at stepped
      · rename_i selected
        rw [selected] at phase
        split at stepped
        · cases stepped
        · cases stepped
          exact ⟨inv.table, inv.conns, ⟨inv.bounded.listening, inv.bounded.slots⟩, phase,
            inv.rounds⟩
      · cases stepped
  | acceptSet =>
      simp only [step] at stepped
      split at stepped
      · rename_i accepted half
        obtain ⟨host, moved, done⟩ := Option.map_eq_some_iff.mp stepped
        exact acceptSet_pollInv inv accepted half moved done
      · cases stepped
  | receive events =>
      simp only [step] at stepped
      split at stepped
      · rename_i receiving
        exact receiveStep_pollInv inv receiving stepped
      · cases stepped
  | other event =>
      simp only [step] at stepped
      split at stepped
      · rename_i allowed
        obtain ⟨host, moved, rfl⟩ := Option.map_eq_some_iff.mp stepped
        apply inv.shrinks moved
        · rintro fd port vm rfl
          unfold OtherOk at allowed
          exact allowed
        · rintro rfl
          unfold OtherOk at allowed
          exact allowed
      · cases stepped

/-- In every state of the loop and the other tasks no watched descriptor is beyond `MaxFD`,
so that a select leaves those that can be read. Every round whose receive loop has come to its
end has read each connection that was reported once, unless it is gone, and no other but one
accepted since; a round that the accept branch has ended has read none. -/
theorem run_served {listenFd : Int} (listening : 0 < listenFd) {events : List PollEvent}
    {final : Poller}
    (reached : run (step order traced) (Poller.init listenFd) events = some final) :
    (∀ fd ∈ final.host.tables.allset, fd ≤ final.maxFd) ∧
      (∀ readable, selectSet final.maxFd final.host.tables.allset readable =
        final.host.tables.allset ∩ readable) ∧
      ∀ round ∈ final.rounds, round.served.Nodup ∧
        (∀ c ∈ round.served, c ∈ round.ready ∨ round.seen < c) ∧
        (round.skipped = true → round.served = []) ∧
        (round.skipped = false → ∀ c ∈ round.ready, c ∈ round.served ∨ ¬ Lives final.host c) := by
  have inv : PollInv final := run_invariant PollInv
    (fun _ _ _ before stepped => step_pollInv before stepped) (init_pollInv listening) reached
  have bounded := inv.bounded.allset inv.table
  refine ⟨bounded, fun _ => selectSet_exact bounded, fun round past => ?_⟩
  have done := inv.rounds round past
  exact ⟨done.nodup, done.read, done.skipped, done.complete⟩

theorem run_served_twoRounds :
    ∃ final, run (step .little false) (Poller.init 3) twoRounds = some final ∧
      final.rounds.map (fun round => (round.ready, round.served)) = [([], []), ([1], [1])] ∧
      (∀ fd ∈ final.host.tables.allset, fd ≤ final.maxFd) ∧
      ∀ round ∈ final.rounds, round.skipped = false →
        ∀ c ∈ round.ready, c ∈ round.served ∨ ¬ Lives final.host c := by
  obtain ⟨final, reached, served⟩ := twoRounds_reached
  obtain ⟨bounded, _, rounds⟩ := run_served (by decide) reached
  exact ⟨final, reached, served, bounded, fun round past => (rounds round past).2.2.2⟩

end Run

end VnfMonitoring.HostPoll
