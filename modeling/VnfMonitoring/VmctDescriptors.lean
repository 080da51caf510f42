import Mathlib.Data.Finset.Card
import VnfMonitoring.TcpOpen
import VnfMonitoring.VmctAgent

set_option autoImplicit false

/- The agent with the `TcpOpen` of the source: its runs are those of the agent that is
given what `TcpOpen` returns, beside the sockets that failed options have left open. -/
namespace VnfMonitoring.VmctDescriptors

open VnfMonitoring.Memory VnfMonitoring.Socket VnfMonitoring.TcpFrame VnfMonitoring.Timer
  VnfMonitoring.VmctSock VnfMonitoring.VmctAgent VnfMonitoring.TcpOpen VnfMonitoring.Runs

inductive SocketEvent where
  /-- The three calls of `TcpOpen`. -/
  | tcpOpen (env : OpenEnv)
  | reopen (task : Task) (env : OpenEnv)
  | tcpReconnect (env : OpenEnv) (clock : ClockEnv)
  /-- Any other step of the agent. -/
  | agent (event : AgentEvent)

/-- `TcpOpen`, as it assigns `ListenFD`. -/
def openLink (s : AgentLink) (env : OpenEnv) : Option AgentLink :=
  (TcpOpen.tcpOpen vmctSetup s.mode s.openFds env).map fun (listenFd, openFds) =>
    { s with listenFd, openFds }

/-- The section of `SendProcStateReq`. -/
def reopenLink (s : AgentLink) (env : OpenEnv) : Option AgentLink :=
  openLink { s with openFds := s.openFds.erase s.listenFd, listenFd := -1, allsetHost := ∅ } env

/-- The section of `TcpReconnect`. -/
def reconnectLink (s : AgentLink) (env : OpenEnv) (clock : ClockEnv) : Option AgentLink :=
  (openLink s env).bind fun s =>
    if s.listenFd ≤ 0 then openFailed { s with listenFd := -1 } clock else some (fdSet s)

/-- An event of the agent that calls `TcpOpen`. -/
def Opens : AgentEvent → Prop
  | .tcpOpen _ | .reopen _ _ | .tcpReconnect _ _ => True
  | _ => False

instance : DecidablePred Opens := fun event => by
  cases event <;> unfold Opens <;> infer_instance

def step (order : ByteOrder) (s : Agent) : SocketEvent → Option Agent
  | .tcpOpen env =>
      if s.phase .tcpRcvTask = .start then
        (openLink (fdZero s.link) env).map fun link =>
          { s with link }.enter .tcpRcvTask .opened
      else none
  | .reopen task env =>
      if s.phase task = .reopening then
        (reopenLink s.link env).map fun link => { s with link }.enter task .reopened
      else none
  | .tcpReconnect env clock =>
      if s.reconnecting then
        (reconnectLink s.link env clock).map fun link => { s with link, reconnecting := false }
      else none
  | .agent event => if Opens event then none else VmctAgent.step order s event

/-- The event as the agent sees it, and whether its `TcpOpen` leaves a socket behind. -/
def SocketEvent.seen : SocketEvent → AgentEvent
  | .tcpOpen env => .tcpOpen (returned vmctSetup .client env)
  | .reopen task env => .reopen task (returned vmctSetup .client env)
  | .tcpReconnect env clock => .tcpReconnect (returned vmctSetup .client env) clock
  | .agent event => event

def SocketEvent.leaks : SocketEvent → Bool
  | .tcpOpen env | .reopen _ env | .tcpReconnect env _ => decide (Leaks vmctSetup .client env)
  | .agent _ => false

section Widen

variable {s next : AgentLink} {leaked : Finset Int}

/-- A link, when the process has these descriptors open besides its own. -/
def widenLink (leaked : Finset Int) (s : AgentLink) : AgentLink :=
  { s with openFds := s.openFds ∪ leaked }

/-- A change that opens nothing. -/
structure Narrowed (s next : AgentLink) : Prop where
  mode : next.mode = s.mode
  listenFd : next.listenFd = s.listenFd ∨ next.listenFd = -1
  openFds : next.openFds ⊆ s.openFds

theorem Narrowed.refl (s : AgentLink) : Narrowed s s := ⟨rfl, Or.inl rfl, Finset.Subset.refl _⟩

theorem Narrowed.trans {middle : AgentLink} (first : Narrowed s middle)
    (second : Narrowed middle next) : Narrowed s next where
  mode := second.mode.trans first.mode
  listenFd := second.listenFd.elim (fun same => same ▸ first.listenFd) Or.inr
  openFds := second.openFds.trans first.openFds

theorem tcptmrStart_widen (interval mType argc1 argc2 : Int32) (clock : ClockEnv) :
    tcptmrStart (widenLink leaked s) interval mType argc1 argc2 clock =
      (tcptmrStart s interval mType argc1 argc2 clock).map fun (timerId, s) =>
        (timerId, widenLink leaked s) := by
  unfold tcptmrStart
  rw [Option.map_map]
  apply Option.map_congr
  intro started _
  simp only [Function.comp_apply]
  split <;> rfl

theorem tcptmrStop_widen (timerId : Int) :
    tcptmrStop (widenLink leaked s) timerId =
      (tcptmrStop s timerId).map fun (ret, s) => (ret, widenLink leaked s) := by
  unfold tcptmrStop
  rw [Option.map_map]
  rfl

theorem armReconnect_widen (clock : ClockEnv) :
    armReconnect (widenLink leaked s) clock = (armReconnect s clock).map (widenLink leaked) := by
  have stopped : (if (widenLink leaked s).tmrReconn.tmrId > 0 then
        (tcptmrStop (widenLink leaked s) (widenLink leaked s).tmrReconn.tmrId).map Prod.snd
      else some (widenLink leaked s)) =
      (if s.tmrReconn.tmrId > 0 then (tcptmrStop s s.tmrReconn.tmrId).map Prod.snd
        else some s).map (widenLink leaked) := by
    rw [tcptmrStop_widen]
    change (if s.tmrReconn.tmrId > 0 then _ else _) = _
    split
    · rw [Option.map_map, Option.map_map]
      rfl
    · rfl
  unfold armReconnect
  rw [stopped, Option.bind_map, Option.map_bind]
  apply Option.bind_congr
  intro after _
  simp only [Function.comp_apply]
  rw [tcptmrStart_widen, Option.map_map, Option.map_map]
  rfl

theorem tcptmrStart_narrowed {interval mType argc1 argc2 : Int32} {clock : ClockEnv}
    {timerId : Int}
    (done : tcptmrStart s interval mType argc1 argc2 clock = some (timerId, next)) :
    Narrowed s next := by
  obtain ⟨started, -, same⟩ := Option.map_eq_some_iff.mp done
  dsimp only at same
  split at same <;> cases same <;> exact ⟨rfl, Or.inl rfl, Finset.Subset.refl _⟩

theorem armReconnect_narrowed {clock : ClockEnv} (done : armReconnect s clock = some next) :
    Narrowed s next := by
  obtain ⟨after, stopped, started⟩ := Option.bind_eq_some_iff.mp done
  have first : Narrowed s after := by
    split at stopped
    · obtain ⟨⟨ret, other⟩, stop, rfl⟩ := Option.map_eq_some_iff.mp stopped
      obtain ⟨_, -, same⟩ := Option.map_eq_some_iff.mp stop
      cases same
      exact ⟨rfl, Or.inl rfl, Finset.Subset.refl _⟩
    · cases stopped
      exact .refl s
  obtain ⟨⟨timerId, other⟩, begun, rfl⟩ := Option.map_eq_some_iff.mp started
  have second := tcptmrStart_narrowed begun
  exact first.trans ⟨second.mode, second.listenFd, second.openFds⟩

theorem openFailed_widen (clock : ClockEnv) :
    openFailed (widenLink leaked s) clock = (openFailed s clock).map (widenLink leaked) := by
  have mode : (widenLink leaked s).mode = s.mode := rfl
  unfold openFailed
  rw [mode]
  cases s.mode with
  | server => rfl
  | client => exact armReconnect_widen clock

theorem openFailed_narrowed {clock : ClockEnv} (done : openFailed s clock = some next) :
    Narrowed s next := by
  unfold openFailed at done
  split at done
  · cases done
    exact .refl s
  · exact armReconnect_narrowed done

theorem tcpOpened_widen (clock : ClockEnv) :
    tcpOpened (widenLink leaked s) clock = (tcpOpened s clock).map (widenLink leaked) := by
  unfold tcpOpened
  change (if s.listenFd ≤ 0 then _ else _) = _
  split
  · exact openFailed_widen clock
  · rfl

theorem tcpOpened_narrowed {clock : ClockEnv} (done : tcpOpened s clock = some next) :
    Narrowed s next := by
  unfold tcpOpened at done
  split at done
  · exact openFailed_narrowed done
  · cases done
    exact ⟨rfl, Or.inl rfl, Finset.Subset.refl _⟩

/-- A descriptor that is not one of those left behind is closed as without them. -/
theorem erase_widen (apart : s.listenFd ∉ leaked) :
    (s.openFds ∪ leaked).erase s.listenFd = s.openFds.erase s.listenFd ∪ leaked := by
  rw [Finset.erase_union_distrib, Finset.erase_eq_of_notMem apart]

theorem closeLink_widen (apart : s.listenFd ∉ leaked) :
    closeLink (widenLink leaked s) = widenLink leaked (closeLink s) := by
  unfold closeLink widenLink
  rw [erase_widen apart]

theorem closeLink_narrowed (s : AgentLink) : Narrowed s (closeLink s) :=
  ⟨rfl, Or.inl rfl, Finset.erase_subset _ _⟩

theorem clearLink_widen (clock : ClockEnv) :
    clearLink (widenLink leaked s) clock = (clearLink s clock).map (widenLink leaked) :=
  armReconnect_widen (s := { s with listenFd := -1 }) clock

theorem clearLink_narrowed {clock : ClockEnv} (done : clearLink s clock = some next) :
    Narrowed s next := by
  have first : Narrowed s { s with listenFd := -1 } := ⟨rfl, Or.inr rfl, Finset.Subset.refl _⟩
  exact first.trans (armReconnect_narrowed done)

theorem disconnect_widen (apart : s.listenFd ∉ leaked) (acceptIdx : Fin maxListenq)
    (clock : ClockEnv) :
    VmctSock.disconnect (widenLink leaked s) acceptIdx .client clock =
      (VmctSock.disconnect s acceptIdx .client clock).map (widenLink leaked) := by
  rw [disconnect_client, disconnect_client]
  change (if s.listenFd > 0 then _ else _) = _
  split
  · rw [closeLink_widen apart, clearLink_widen]
  · rfl

theorem disconnect_narrowed {acceptIdx : Fin maxListenq} {clock : ClockEnv}
    (done : VmctSock.disconnect s acceptIdx .client clock = some next) : Narrowed s next := by
  rw [disconnect_client] at done
  split at done
  · exact (closeLink_narrowed s).trans (clearLink_narrowed done)
  · cases done
    exact .refl s

/-- The counters of a heartbeat that is given up. -/
def resetHb (s : AgentLink) : AgentLink :=
  { s with tmrHb := { s.tmrHb with retryCnt := 0, sendFlag := 0, recvFlag := 0 } }

theorem heartbeat_widen (apart : s.listenFd ∉ leaked) (clock : ClockEnv) :
    heartbeat (widenLink leaked s) clock = (heartbeat s clock).map (widenLink leaked) := by
  unfold heartbeat
  change (if s.mode = .client ∧ s.listenFd > 0 then _ else _) = _
  split
  · rw [Option.map_map]
    change Option.map _ (if hbRetryCnt s.tmrHb ≥ tcpSndRetry then _ else _) = _
    split
    · change Option.map _ (clearLink (closeLink (widenLink leaked (resetHb s))) clock) =
        Option.map _ (clearLink (closeLink (resetHb s)) clock)
      rw [closeLink_widen (s := resetHb s) apart, clearLink_widen, Option.map_map]
      rfl
    · rfl
  · rfl

theorem heartbeat_narrowed {clock : ClockEnv} (done : heartbeat s clock = some next) :
    Narrowed s next := by
  unfold heartbeat at done
  split at done
  · obtain ⟨after, counted, rfl⟩ := Option.map_eq_some_iff.mp done
    have inner : Narrowed s after := by
      split at counted
      · have first : Narrowed s (closeLink (resetHb s)) :=
          ⟨rfl, Or.inl rfl, Finset.erase_subset _ _⟩
        exact first.trans (clearLink_narrowed counted)
      · cases counted
        exact ⟨rfl, Or.inl rfl, Finset.Subset.refl _⟩
    exact inner.trans ⟨rfl, Or.inl rfl, Finset.Subset.refl _⟩
  · cases done
    exact .refl s

theorem tcpRecv_widen (apart : s.listenFd ∉ leaked) (order : ByteOrder) {size : Nat}
    (acceptIdx : Fin maxListenq) (rBuf : Bytes size) (events : List RecvEvent)
    (clock : ClockEnv) :
    VmctSock.tcpRecv order (widenLink leaked s) acceptIdx rBuf .client events clock =
      (VmctSock.tcpRecv order s acceptIdx rBuf .client events clock).map fun (s, result) =>
        (widenLink leaked s, result) := by
  unfold VmctSock.tcpRecv
  rw [Option.map_bind]
  apply Option.bind_congr
  intro result _
  simp only [Function.comp_apply]
  split
  · rw [disconnect_widen apart, Option.map_map, Option.map_map]
    rfl
  · rfl

theorem tcpRecv_narrowed {order : ByteOrder} {size : Nat} {acceptIdx : Fin maxListenq}
    {rBuf : Bytes size} {events : List RecvEvent} {clock : ClockEnv} {result : RecvResult size}
    (done : VmctSock.tcpRecv order s acceptIdx rBuf .client events clock = some (next, result)) :
    Narrowed s next := by
  obtain ⟨frame, -, rest⟩ := Option.bind_eq_some_iff.mp done
  obtain ⟨after, lost, pair⟩ := Option.map_eq_some_iff.mp rest
  cases pair
  split at lost
  · exact disconnect_narrowed lost
  · cases lost
    exact .refl s

end Widen

section Steps

variable {order : ByteOrder} {s next : Agent} {leaked : Finset Int}

def widen (leaked : Finset Int) (s : Agent) : Agent := { s with link := widenLink leaked s.link }

theorem tmrCmdStep_widen (tmrMsg : TmrExpire) (tmrCmdQ : List TmrExpire) :
    tmrCmdStep (widen leaked s) tmrMsg tmrCmdQ = widen leaked (tmrCmdStep s tmrMsg tmrCmdQ) := by
  have same : (widen leaked s).link.tmrsync = s.link.tmrsync := rfl
  by_cases awaited : tmrMsg.argc1 = tmrTcpReconnectMsg ∧ (s.link.tmrsync tmrMsg.timerId).used
  · rw [tmrCmdStep, same, if_pos awaited, tmrCmdStep, if_pos awaited]
    rfl
  · rw [tmrCmdStep, same, if_neg awaited, tmrCmdStep, if_neg awaited]
    rfl

/-- A step that opens nothing does the same beside other descriptors. -/
theorem step_widen (order : ByteOrder) (apart : s.link.listenFd ∉ leaked) {event : AgentEvent}
    (quiet : ¬ Opens event) :
    VmctAgent.step order (widen leaked s) event =
      (VmctAgent.step order s event).map (widen leaked) := by
  cases event with
  | tcpOpen opened => exact absurd trivial quiet
  | reopen task opened => exact absurd trivial quiet
  | tcpReconnect opened clock => exact absurd trivial quiet
  | tcpOpened clock =>
      change (if s.phase .tcpRcvTask = .opened then
        (tcpOpened (widenLink leaked s.link) clock).map _ else none) =
          (if s.phase .tcpRcvTask = .opened then _ else none : Option Agent).map _
      rw [tcpOpened_widen, Option.map_map]
      split
      · rw [Option.map_map]
        rfl
      · rfl
  | sendProcStateReq task =>
      change (if s.phase task = .ready then _ else none) =
        (if s.phase task = .ready then _ else none : Option Agent).map _
      split <;> rfl
  | tcpSend task sndbuf env =>
      change (if s.phase task = .sending then
        (sendFrame order s.link.listenFd sndbuf tcpMsgLength env).map _ else none) =
          (if s.phase task = .sending then _ else none : Option Agent).map _
      split
      · rw [Option.map_map]
        rfl
      · rfl
  | disconnect task =>
      change (if s.phase task = .lost then _ else none) =
        (if s.phase task = .lost then _ else none : Option Agent).map _
      split <;> rfl
  | close task =>
      change (if s.phase task = .closing then
        some (Agent.enter { widen leaked s with link := closeLink (widenLink leaked s.link) }
          task .closed) else none) =
          (if s.phase task = .closing then _ else none : Option Agent).map _
      rw [closeLink_widen apart]
      split <;> rfl
  | clear task clock =>
      change (if s.phase task = .closed then
        (clearLink (widenLink leaked s.link) clock).map _ else none) =
          (if s.phase task = .closed then _ else none : Option Agent).map _
      rw [clearLink_widen, Option.map_map]
      split
      · rw [Option.map_map]
        rfl
      · rfl
  | reopened task =>
      change (if s.phase task = .reopened then
        if s.link.listenFd > 0 then _ else _ else none) =
          (if s.phase task = .reopened then
            if s.link.listenFd > 0 then _ else _ else none : Option Agent).map _
      split
      · split <;> rfl
      · rfl
  | tcpRecv events clock =>
      change (if s.phase .tcpRcvTask = .done ∧ s.link.mode = .client ∧ s.link.listenFd > 0 then
        receiveStep order (widen leaked s) events clock else none) =
          (if s.phase .tcpRcvTask = .done ∧ s.link.mode = .client ∧ s.link.listenFd > 0 then _
            else none : Option Agent).map _
      split
      · unfold receiveStep
        change Option.map _ (VmctSock.tcpRecv order (widenLink leaked s.link) clientIdx s.buf
          .client events clock) = _
        rw [tcpRecv_widen apart, Option.map_map, Option.map_map]
        apply Option.map_congr
        intro received _
        simp only [Function.comp_apply]
        split <;> rfl
      · rfl
  | heartbeat clock =>
      change (if s.phase .tcpSessionTask = .done then
        (heartbeat (widenLink leaked s.link) clock).map _ else none) =
          (if s.phase .tcpSessionTask = .done then _ else none : Option Agent).map _
      rw [heartbeat_widen apart, Option.map_map]
      split
      · rw [Option.map_map]
        rfl
      · rfl
  | expire k gettimeofday posted =>
      change (cmpTimerValue s.link.timers k gettimeofday).map _ =
        ((cmpTimerValue s.link.timers k gettimeofday).map _).map _
      rw [Option.map_map]
      rfl
  | tmrCmd =>
      have reconnecting : (widen leaked s).reconnecting = s.reconnecting := rfl
      have queue : (widen leaked s).tmrCmdQ = s.tmrCmdQ := rfl
      simp only [VmctAgent.step, reconnecting, queue]
      split
      · rw [tmrCmdStep_widen]
        rfl
      · rfl

/-- It leaves the link as it is, or without a descriptor. -/
theorem step_narrowed {event : AgentEvent} (quiet : ¬ Opens event)
    (stepped : VmctAgent.step order s event = some next) : Narrowed s.link next.link := by
  cases event <;>
    simp only [VmctAgent.step, Option.ite_none_right_eq_some, Option.map_eq_some_iff] at stepped
  case tcpOpen opened => exact absurd trivial quiet
  case reopen task opened => exact absurd trivial quiet
  case tcpReconnect opened clock => exact absurd trivial quiet
  case tcpOpened clock =>
    obtain ⟨_, link, done, rfl⟩ := stepped
    exact tcpOpened_narrowed done
  case sendProcStateReq task =>
    obtain ⟨_, same⟩ := stepped
    cases same
    exact .refl _
  case tcpSend task sndbuf env =>
    obtain ⟨_, result, _, rfl⟩ := stepped
    exact .refl _
  case disconnect task =>
    obtain ⟨_, same⟩ := stepped
    cases same
    exact .refl _
  case close task =>
    obtain ⟨_, same⟩ := stepped
    cases same
    exact closeLink_narrowed s.link
  case clear task clock =>
    obtain ⟨_, link, done, rfl⟩ := stepped
    exact clearLink_narrowed done
  case reopened task =>
    obtain ⟨_, same⟩ := stepped
    split at same
    · cases same
      exact ⟨rfl, Or.inl rfl, Finset.Subset.refl _⟩
    · cases same
      exact .refl _
  case tcpRecv events clock =>
    obtain ⟨_, received⟩ := stepped
    obtain ⟨⟨link, result⟩, done, rfl⟩ := Option.map_eq_some_iff.mp received
    have after := tcpRecv_narrowed done
    dsimp only
    split
    · exact ⟨after.mode, after.listenFd, after.openFds⟩
    · exact after
  case heartbeat clock =>
    obtain ⟨_, link, done, rfl⟩ := stepped
    exact heartbeat_narrowed done
  case expire k gettimeofday posted =>
    obtain ⟨⟨timers, fired⟩, visited, rfl⟩ := Option.map_eq_some_iff.mp stepped
    exact ⟨rfl, Or.inl rfl, Finset.Subset.refl _⟩
  case tmrCmd =>
    split at stepped
    · cases stepped
      unfold tmrCmdStep
      split
      · exact ⟨rfl, Or.inl rfl, Finset.Subset.refl _⟩
      · exact .refl _
    · cases stepped

end Steps

section Beside

variable {order : ByteOrder} {s next : AgentLink} {leaked : Finset Int} {env : OpenEnv}

/-- The link of a client, and the sockets left behind, none of which it uses. -/
structure Beside (s : AgentLink) (leaked : Finset Int) : Prop where
  mode : s.mode = .client
  apart : Disjoint s.openFds leaked
  link : s.listenFd ∉ leaked
  own : ∀ fd ∈ s.openFds, 0 < fd
  others : ∀ fd ∈ leaked, 0 < fd

theorem Beside.not_mem (beside : Beside s leaked) {fd : Int} (negative : fd < 0) :
    fd ∉ s.openFds ∪ leaked := by
  intro member
  rcases Finset.mem_union.mp member with inside | inside
  · have positive := beside.own fd inside
    omega
  · have positive := beside.others fd inside
    omega

theorem Beside.narrowed (beside : Beside s leaked) (narrowed : Narrowed s next) :
    Beside next leaked where
  mode := narrowed.mode.trans beside.mode
  apart := Finset.disjoint_of_subset_left narrowed.openFds beside.apart
  link := by
    rcases narrowed.listenFd with same | none_
    · rw [same]
      exact beside.link
    · rw [none_]
      intro member
      have positive := beside.others (-1) member
      omega
  own := fun fd member => beside.own fd (narrowed.openFds member)
  others := beside.others

/-- A call of `TcpOpen`, as the link sees it. -/
theorem openLink_seen (beside : Beside s leaked)
    (done : openLink (widenLink leaked s) env = some next) :
    ∃ after left, VmctAgent.tcpOpen s (returned vmctSetup .client env) = some after ∧
      next = widenLink left after ∧ Beside after left ∧
      left.card = leaked.card + if Leaks vmctSetup .client env then 1 else 0 := by
  obtain ⟨⟨value, fds⟩, opened, rfl⟩ := Option.map_eq_some_iff.mp done
  have client : (widenLink leaked s).mode = .client := beside.mode
  rw [client] at opened
  obtain ⟨rfl, cases_⟩ := tcpOpen_cases (vmctSetup_negative .client) opened
  rcases cases_ with ⟨negative, rfl, kept⟩ | ⟨negative, positive, fresh, rfl, lost⟩ |
    ⟨positive, fresh, rfl, kept⟩
  · have outside := beside.not_mem negative
    rw [Finset.mem_union, not_or] at outside
    refine ⟨{ s with listenFd := returned vmctSetup .client env }, leaked, ?_, rfl, ?_, ?_⟩
    · rw [VmctAgent.tcpOpen, if_pos ⟨by omega, outside.1⟩, if_neg (by omega)]
    · exact ⟨beside.mode, beside.apart, outside.2, beside.own, beside.others⟩
    · rw [if_neg kept]
      rfl
  · have outside := beside.not_mem negative
    rw [Finset.mem_union, not_or] at outside
    have alone : env.socket ∉ s.openFds ∪ leaked := fresh
    rw [Finset.mem_union, not_or] at alone
    refine ⟨{ s with listenFd := returned vmctSetup .client env }, insert env.socket leaked,
      ?_, ?_, ?_, ?_⟩
    · rw [VmctAgent.tcpOpen, if_pos ⟨by omega, outside.1⟩, if_neg (by omega)]
    · unfold widenLink
      rw [Finset.union_insert]
    · refine ⟨beside.mode, ?_, ?_, beside.own, ?_⟩
      · exact Finset.disjoint_insert_right.mpr ⟨alone.1, beside.apart⟩
      · rw [Finset.mem_insert, not_or]
        exact ⟨by dsimp only; omega, outside.2⟩
      · exact (Finset.forall_mem_insert _ _ _).mpr ⟨positive, beside.others⟩
    · rw [if_pos lost, Finset.card_insert_of_notMem alone.2]
  · have alone : returned vmctSetup .client env ∉ s.openFds ∪ leaked := fresh
    rw [Finset.mem_union, not_or] at alone
    refine ⟨{ s with
      listenFd := returned vmctSetup .client env
      openFds := insert (returned vmctSetup .client env) s.openFds }, leaked, ?_, ?_, ?_, ?_⟩
    · rw [VmctAgent.tcpOpen, if_pos ⟨by omega, alone.1⟩, if_pos positive]
    · unfold widenLink
      rw [Finset.insert_union]
    · refine ⟨beside.mode, ?_, alone.2, ?_, beside.others⟩
      · exact Finset.disjoint_insert_left.mpr ⟨alone.2, beside.apart⟩
      · exact (Finset.forall_mem_insert _ _ _).mpr ⟨positive, beside.own⟩
    · rw [if_neg kept]
      rfl

theorem reopenLink_seen (beside : Beside s leaked)
    (done : reopenLink (widenLink leaked s) env = some next) :
    ∃ after left, VmctAgent.reopen s (returned vmctSetup .client env) = some after ∧
      next = widenLink left after ∧ Beside after left ∧
      left.card = leaked.card + if Leaks vmctSetup .client env then 1 else 0 := by
  have narrowed : Narrowed s { s with
      openFds := s.openFds.erase s.listenFd, listenFd := -1, allsetHost := ∅ } :=
    ⟨rfl, Or.inr rfl, Finset.erase_subset _ _⟩
  have closed : reopenLink (widenLink leaked s) env =
      openLink (widenLink leaked { s with
        openFds := s.openFds.erase s.listenFd, listenFd := -1, allsetHost := ∅ }) env := by
    unfold reopenLink widenLink
    dsimp only
    rw [erase_widen beside.link]
  rw [closed] at done
  exact openLink_seen (beside.narrowed narrowed) done

theorem reconnectLink_seen (beside : Beside s leaked) {clock : ClockEnv}
    (done : reconnectLink (widenLink leaked s) env clock = some next) :
    ∃ after left, VmctAgent.tcpReconnect s (returned vmctSetup .client env) clock = some after ∧
      next = widenLink left after ∧ Beside after left ∧
      left.card = leaked.card + if Leaks vmctSetup .client env then 1 else 0 := by
  obtain ⟨middle, opened, rest⟩ := Option.bind_eq_some_iff.mp done
  obtain ⟨after, left, model, rfl, kept, count⟩ := openLink_seen beside opened
  unfold VmctAgent.tcpReconnect
  rw [model, Option.bind_some]
  change (if after.listenFd ≤ 0 then
    openFailed (widenLink left { after with listenFd := -1 }) clock else _) = _ at rest
  rw [openFailed_widen] at rest
  have none_ : Narrowed after { after with listenFd := -1 } :=
    ⟨rfl, Or.inr rfl, Finset.Subset.refl _⟩
  split at rest
  · rename_i failed
    obtain ⟨final, armed, rfl⟩ := Option.map_eq_some_iff.mp rest
    rw [if_pos failed]
    exact ⟨final, left, armed, rfl,
      kept.narrowed (none_.trans (openFailed_narrowed armed)), count⟩
  · rename_i held
    cases rest
    rw [if_neg held]
    exact ⟨fdSet after, left, rfl, rfl,
      kept.narrowed ⟨rfl, Or.inl rfl, Finset.Subset.refl _⟩, count⟩

end Beside

section Run

variable {order : ByteOrder} {leaked : Finset Int}

/-- A step, as the agent sees it. -/
theorem step_seen {s next : Agent} {event : SocketEvent} (beside : Beside s.link leaked)
    (stepped : step order (widen leaked s) event = some next) :
    ∃ after left, VmctAgent.step order s event.seen = some after ∧
      next = widen left after ∧ Beside after.link left ∧
      left.card = leaked.card + if event.leaks then 1 else 0 := by
  cases event with
  | tcpOpen env =>
      simp only [step, Option.ite_none_right_eq_some, Option.map_eq_some_iff] at stepped
      obtain ⟨phase, link, done, rfl⟩ := stepped
      change s.phase .tcpRcvTask = .start at phase
      have zeroed : Beside (fdZero s.link) leaked :=
        beside.narrowed ⟨rfl, Or.inl rfl, Finset.Subset.refl _⟩
      obtain ⟨after, left, model, rfl, kept, count⟩ := openLink_seen zeroed done
      refine ⟨Agent.enter { s with link := after } .tcpRcvTask .opened, left, ?_, rfl, kept, ?_⟩
      · simp only [SocketEvent.seen, VmctAgent.step]
        rw [if_pos phase, model, Option.map_some]
      · simpa only [SocketEvent.leaks, decide_eq_true_eq] using count
  | reopen task env =>
      simp only [step, Option.ite_none_right_eq_some, Option.map_eq_some_iff] at stepped
      obtain ⟨phase, link, done, rfl⟩ := stepped
      change s.phase task = .reopening at phase
      obtain ⟨after, left, model, rfl, kept, count⟩ := reopenLink_seen beside done
      refine ⟨Agent.enter { s with link := after } task .reopened, left, ?_, rfl, kept, ?_⟩
      · simp only [SocketEvent.seen, VmctAgent.step]
        rw [if_pos phase, model, Option.map_some]
      · simpa only [SocketEvent.leaks, decide_eq_true_eq] using count
  | tcpReconnect env clock =>
      simp only [step, Option.ite_none_right_eq_some, Option.map_eq_some_iff] at stepped
      obtain ⟨entered, link, done, rfl⟩ := stepped
      change s.reconnecting = true at entered
      obtain ⟨after, left, model, rfl, kept, count⟩ := reconnectLink_seen beside done
      refine ⟨{ s with link := after, reconnecting := false }, left, ?_, rfl, kept, ?_⟩
      · simp only [SocketEvent.seen, VmctAgent.step]
        rw [if_pos entered, model, Option.map_some]
      · simpa only [SocketEvent.leaks, decide_eq_true_eq] using count
  | agent event =>
      simp only [step, Option.ite_none_left_eq_some] at stepped
      obtain ⟨quiet, stepped⟩ := stepped
      rw [step_widen order beside.link quiet] at stepped
      obtain ⟨after, done, rfl⟩ := Option.map_eq_some_iff.mp stepped
      exact ⟨after, leaked, done, rfl, beside.narrowed (step_narrowed quiet done), rfl⟩

theorem run_seen {events : List SocketEvent} {s final : Agent} (beside : Beside s.link leaked)
    (reached : run (step order) (widen leaked s) events = some final) :
    ∃ after left, run (VmctAgent.step order) s (events.map SocketEvent.seen) = some after ∧
      final = widen left after ∧ Beside after.link left ∧
      left.card = leaked.card + events.countP SocketEvent.leaks := by
  induction events generalizing s leaked with
  | nil =>
      cases reached
      exact ⟨s, leaked, rfl, rfl, beside, rfl⟩
  | cons event rest ih =>
      obtain ⟨next, stepped, remaining⟩ := run_cons_some reached
      obtain ⟨middle, between, done, rfl, kept, count⟩ := step_seen beside stepped
      obtain ⟨after, left, later, same, others, total⟩ := ih kept remaining
      refine ⟨after, left, ?_, same, others, ?_⟩
      · rw [List.map_cons, run_cons, done, Option.bind_some, later]
      · rw [total, count, List.countP_cons]
        omega

theorem init_beside : Beside Agent.init.link ∅ :=
  ⟨rfl, Finset.disjoint_empty_right _, Finset.notMem_empty _, nofun, nofun⟩

theorem widen_empty (s : Agent) : widen ∅ s = s := by
  unfold widen widenLink
  rw [Finset.union_empty]

/-- Every run of the agent with the `TcpOpen` of the source is a run of the agent that sees
only what `TcpOpen` returns. Besides its sockets the process has one open for each
`TcpOpen` with an option that failed; so when no step opens or gives up the link while its
socket is open, those and one more are all. -/
theorem run_descriptors (order : ByteOrder) {events : List SocketEvent} {final : Agent}
    (reached : run (step order) Agent.init events = some final) :
    ∃ seen leaked,
      run (VmctAgent.step order) Agent.init (events.map SocketEvent.seen) = some seen ∧
      final = widen leaked seen ∧ Disjoint seen.link.openFds leaked ∧
      final.link.openFds.card =
        seen.link.openFds.card + events.countP SocketEvent.leaks ∧
      (AllSteps (VmctAgent.step order) LinkOk Agent.init (events.map SocketEvent.seen) →
        final.link.openFds.card ≤ 1 + events.countP SocketEvent.leaks) := by
  rw [← widen_empty Agent.init] at reached
  obtain ⟨seen, leaked, model, rfl, beside, count⟩ := run_seen init_beside reached
  rw [Finset.card_empty, Nat.zero_add] at count
  have total : (widen leaked seen).link.openFds.card =
      seen.link.openFds.card + events.countP SocketEvent.leaks := by
    rw [← count]
    exact Finset.card_union_of_disjoint beside.apart
  refine ⟨seen, leaked, model, rfl, beside.apart, total, fun allowed => ?_⟩
  have inv : LinkInv seen.link :=
    run_invariant_of (fun s => LinkInv s.link)
      (fun _ _ _ inv ok stepped => step_linkInv inv ok stepped) init_linkInv allowed model
  have one : seen.link.openFds.card ≤ 1 :=
    Finset.card_le_one_iff_subset_singleton.mpr
      ⟨seen.link.listenFd, fun fd member => Finset.mem_singleton.mpr (inv.single fd member)⟩
  omega

/-- A `TcpOpen` that gets this socket, connects it at once, and has no more than the first
`set` calls succeed that set it up. -/
def openEnv (socket : Int) (set : Nat) : OpenEnv where
  addressRead := true
  socket
  fails := fun k => decide (set ≤ k)
  connect := ⟨true, true, .connected, 0, false, false, none, true⟩

/-- The socket 5 is lost by its second option, and the link is opened again on 6. -/
def lostOnce : List SocketEvent :=
  [.tcpOpen (openEnv 5 1), .agent (.tcpOpened (clockAt 0)),
    .agent (.sendProcStateReq .tcpRcvTask), .reopen .tcpRcvTask (openEnv 6 4)]

theorem run_descriptors_lostOnce :
    ∃ final seen leaked, run (step .little) Agent.init lostOnce = some final ∧
      run (VmctAgent.step .little) Agent.init (lostOnce.map SocketEvent.seen) = some seen ∧
      final = widen leaked seen ∧ Disjoint seen.link.openFds leaked ∧
      final.link.openFds.card = seen.link.openFds.card + 1 := by
  obtain ⟨final, reached, -⟩ : ∃ final, run (step .little) Agent.init lostOnce = some final ∧
      final.link.openFds = {5, 6} :=
    exists_of_any (by decide +kernel)
  obtain ⟨seen, leaked, model, same, apart, count, -⟩ := run_descriptors .little reached
  have once : lostOnce.countP SocketEvent.leaks = 1 := by decide
  rw [once] at count
  exact ⟨final, seen, leaked, reached, model, same, apart, count⟩

end Run

end VnfMonitoring.VmctDescriptors
