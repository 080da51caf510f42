import VnfMonitoring.Bpapp
import VnfMonitoring.TcpFraming
import VnfMonitoring.VmctSock

set_option autoImplicit false

/- The agent as a step system: `TcpRcvTask` opens the link and receives, `TcpSessionTask`
reports and watches the heartbeat, `TmrCmdTask` reconnects. A step is a section under
`TcpHostMutex` or, outside it, what a task does between two looks at the link. -/
namespace VnfMonitoring.VmctAgent

open VnfMonitoring.Memory VnfMonitoring.Socket VnfMonitoring.TcpFrame VnfMonitoring.Timer
  VnfMonitoring.VmctSock VnfMonitoring.Bpapp VnfMonitoring.Runs

/-- The tasks that call `SendProcStateReq`: `TcpRcvTask` once, `TcpSessionTask` at every
period. -/
inductive Task where
  | tcpRcvTask
  | tcpSessionTask
  deriving DecidableEq, Repr

/-- Where a task stands: `TcpRcvTask` around its `TcpOpen`, then both in
`SendProcStateReq`, which calls `TcpSend` without the mutex. -/
inductive Phase where
  | start
  | opened
  | ready
  | sending
  | lost
  | closing
  | closed
  | reopening
  | reopened
  | done
  deriving DecidableEq, Repr

/-- `tmr_expire_t`; the first argument is the type of the message. -/
structure TmrExpire where
  timerId : Int
  argc1 : Int32
  argc2 : Int32
  argc3 : Int32
  deriving DecidableEq, Repr

/-- The agent. `reconnecting` says that `TmrCmdTask` has entered `TcpReconnect`. -/
structure Agent where
  link : AgentLink
  buf : Bytes TcpFraming.vmctBufSize
  phase : Task → Phase
  tmrCmdQ : List TmrExpire
  reconnecting : Bool

def Agent.init : Agent where
  link := .init
  buf := .zero _
  phase
    | .tcpRcvTask => .start
    | .tcpSessionTask => .ready
  tmrCmdQ := []
  reconnecting := false

def tcpMsgLength : Nat := defaultTcpComhdrLength + vmProcStateMsgSize

inductive AgentEvent where
  /-- The `TcpOpen` of `TcpRcvTask`, outside the mutex, and its section. -/
  | tcpOpen (opened : Int)
  | tcpOpened (clock : ClockEnv)
  /-- `SendProcStateReq` looks whether there is a link. -/
  | sendProcStateReq (task : Task)
  | tcpSend (task : Task) (sndbuf : Bytes tcpMsgLength) (env : SendEnv)
  /-- The disconnection branch of that `TcpSend`: its test, its `close`, and the rest. -/
  | disconnect (task : Task)
  | close (task : Task)
  | clear (task : Task) (clock : ClockEnv)
  /-- The section of `SendProcStateReq`, and what follows it. -/
  | reopen (task : Task) (opened : Int)
  | reopened (task : Task)
  | tcpRecv (events : List RecvEvent) (clock : ClockEnv)
  | heartbeat (clock : ClockEnv)
  /-- The timer thread looks at the `k`th timer; `posted` says whether `msgsnd` succeeds. -/
  | expire (k : Nat) (gettimeofday : Option Timeval) (posted : Bool)
  | tmrCmd
  | tcpReconnect (opened : Int) (clock : ClockEnv)

/-- `TcpOpen` of a client, as it assigns `ListenFD`: it returns a descriptor that was not
in use, or a negative number. -/
def tcpOpen (s : AgentLink) (opened : Int) : Option AgentLink :=
  if opened ≠ 0 ∧ opened ∉ s.openFds then
    some
      { s with
        listenFd := opened
        openFds := if 0 < opened then insert opened s.openFds else s.openFds }
  else none

/-- `FD_ZERO(&allsetHOST)`, before the `TcpOpen` of `TcpRcvTask`. -/
def fdZero (s : AgentLink) : AgentLink := { s with allsetHost := ∅ }

def fdSet (s : AgentLink) : AgentLink :=
  { s with allsetHost := insert s.listenFd s.allsetHost }

/-- What is done about a link that did not open. -/
def openFailed (s : AgentLink) (clock : ClockEnv) : Option AgentLink :=
  match s.mode with
  | .server => some s
  | .client => armReconnect s clock

/-- The section of `TcpRcvTask` after its `TcpOpen`. -/
def tcpOpened (s : AgentLink) (clock : ClockEnv) : Option AgentLink :=
  if s.listenFd ≤ 0 then openFailed s clock else some (fdSet s)

/-- The section of `TcpReconnect`. -/
def tcpReconnect (s : AgentLink) (opened : Int) (clock : ClockEnv) : Option AgentLink :=
  (tcpOpen s opened).bind fun s =>
    if s.listenFd ≤ 0 then openFailed { s with listenFd := -1 } clock else some (fdSet s)

/-- The section of `SendProcStateReq`. -/
def reopen (s : AgentLink) (opened : Int) : Option AgentLink :=
  tcpOpen { s with openFds := s.openFds.erase s.listenFd, listenFd := -1, allsetHost := ∅ } opened

/-- The disconnection of a client in two parts: its `close`, and what follows it. -/
def closeLink (s : AgentLink) : AgentLink :=
  { s with allsetHost := ∅, openFds := s.openFds.erase s.listenFd }

def clearLink (s : AgentLink) (clock : ClockEnv) : Option AgentLink :=
  armReconnect { s with listenFd := -1 } clock

/-- The periods without an answer, with the one that ends. -/
def hbRetryCnt (hb : TmrInfo) : Int := if hb.recvFlag = 0 then hb.retryCnt + 1 else hb.retryCnt

/-- The section of `TcpSessionTask` that counts the periods without an answer. -/
def heartbeat (s : AgentLink) (clock : ClockEnv) : Option AgentLink :=
  if s.mode = .client ∧ s.listenFd > 0 then
    (if hbRetryCnt s.tmrHb ≥ tcpSndRetry then
        clearLink
          (closeLink { s with tmrHb := { s.tmrHb with retryCnt := 0, sendFlag := 0, recvFlag := 0 } })
          clock
      else some { s with tmrHb := { s.tmrHb with retryCnt := hbRetryCnt s.tmrHb } }).map fun s =>
        { s with tmrHb := { s.tmrHb with recvFlag := 0 } }
  else some s

def Agent.enter (s : Agent) (task : Task) (phase : Phase) : Agent :=
  { s with phase := Function.update s.phase task phase }

/-- One read of the receive loop: a message from the host counts for the heartbeat. -/
def receiveStep (order : ByteOrder) (s : Agent) (events : List RecvEvent) (clock : ClockEnv) :
    Option Agent :=
  (VmctSock.tcpRecv order s.link clientIdx s.buf .client events clock).map fun (link, result) =>
    { s with
      link :=
        if result.nRecv > 0 then
          { link with tmrHb := { link.tmrHb with retryCnt := 0, recvFlag := 1 } }
        else link
      buf := result.rBuf }

/-- `cmp_timer_value` on one timer; its action is `tmr_expire_func`. -/
def expireStep (s : Agent) (k : Nat) (gettimeofday : Option Timeval) (posted : Bool) :
    Option Agent :=
  (cmpTimerValue s.link.timers k gettimeofday).map fun (timers, fired) =>
    { s with
      link := { s.link with timers }
      tmrCmdQ :=
        match fired with
        | some ent =>
            if posted then s.tmrCmdQ ++ [⟨ent.id, ent.arg1, ent.arg2, ent.arg3⟩] else s.tmrCmdQ
        | none => s.tmrCmdQ }

/-- `TmrCmdTask` on one message, up to the section of `TcpReconnect`. -/
def tmrCmdStep (s : Agent) (tmrMsg : TmrExpire) (tmrCmdQ : List TmrExpire) : Agent :=
  if tmrMsg.argc1 = tmrTcpReconnectMsg ∧ (s.link.tmrsync tmrMsg.timerId).used then
    { s with
      link :=
        { s.link with
          tmrsync := Function.update s.link.tmrsync tmrMsg.timerId
            { s.link.tmrsync tmrMsg.timerId with used := false }
          tmrReconn := { s.link.tmrReconn with tmrId := 0 } }
      tmrCmdQ
      reconnecting := true }
  else { s with tmrCmdQ }

def step (order : ByteOrder) (s : Agent) : AgentEvent → Option Agent
  | .tcpOpen opened =>
      if s.phase .tcpRcvTask = .start then
        (tcpOpen (fdZero s.link) opened).map fun link =>
          { s with link }.enter .tcpRcvTask .opened
      else none
  | .tcpOpened clock =>
      if s.phase .tcpRcvTask = .opened then
        (tcpOpened s.link clock).map fun link => { s with link }.enter .tcpRcvTask .ready
      else none
  | .sendProcStateReq task =>
      if s.phase task = .ready then
        some (s.enter task (if s.link.listenFd > 0 then .sending else .reopening))
      else none
  | .tcpSend task sndbuf env =>
      if s.phase task = .sending then
        (sendFrame order s.link.listenFd sndbuf tcpMsgLength env).map fun result =>
          s.enter task (if result.disconnect then .lost else .done)
      else none
  | .disconnect task =>
      if s.phase task = .lost then
        some (s.enter task (if s.link.listenFd > 0 then .closing else .done))
      else none
  | .close task =>
      if s.phase task = .closing then some ({ s with link := closeLink s.link }.enter task .closed)
      else none
  | .clear task clock =>
      if s.phase task = .closed then
        (clearLink s.link clock).map fun link => { s with link }.enter task .done
      else none
  | .reopen task opened =>
      if s.phase task = .reopening then
        (reopen s.link opened).map fun link => { s with link }.enter task .reopened
      else none
  | .reopened task =>
      if s.phase task = .reopened then
        if s.link.listenFd > 0 then some ({ s with link := fdSet s.link }.enter task .sending)
        else some (s.enter task .done)
      else none
  | .tcpRecv events clock =>
      if s.phase .tcpRcvTask = .done ∧ s.link.mode = .client ∧ s.link.listenFd > 0 then
        receiveStep order s events clock
      else none
  | .heartbeat clock =>
      if s.phase .tcpSessionTask = .done then
        (heartbeat s.link clock).map fun link => { s with link }.enter .tcpSessionTask .ready
      else none
  | .expire k gettimeofday posted => expireStep s k gettimeofday posted
  | .tmrCmd =>
      match s.reconnecting, s.tmrCmdQ with
      | false, tmrMsg :: tmrCmdQ => some (tmrCmdStep s tmrMsg tmrCmdQ)
      | _, _ => none
  | .tcpReconnect opened clock =>
      if s.reconnecting then
        (tcpReconnect s.link opened clock).map fun link => { s with link, reconnecting := false }
      else none

/-- The parts are those of the disconnection branch that `TcpRecv` runs in one section. -/
theorem disconnect_client (s : AgentLink) (acceptIdx : Fin maxListenq) (clock : ClockEnv) :
    VmctSock.disconnect s acceptIdx .client clock =
      if s.listenFd > 0 then clearLink (closeLink s) clock else some s := rfl

section Link

/-- The sockets open are at most one, the one in `ListenFD`. -/
def OneLink (s : AgentLink) : Prop := ∀ fd ∈ s.openFds, fd = s.listenFd

structure LinkInv (s : AgentLink) : Prop where
  sound : Sound s.timers
  positive : ∀ fd ∈ s.openFds, 0 < fd
  single : OneLink s

variable {s next : AgentLink}

theorem init_linkInv : LinkInv .init where
  sound := (timerInit_sound (show timerInit maxTmrNum = some AgentLink.init.timers from rfl)).1
  positive := nofun
  single := nofun

theorem tcptmrStart_spec (sound : Sound s.timers) (interval mType argc1 argc2 : Int32)
    (clock : ClockEnv) :
    ∃ timerId next, tcptmrStart s interval mType argc1 argc2 clock = some (timerId, next) ∧
      Sound next.timers ∧ next.listenFd = s.listenFd ∧ next.openFds = s.openFds := by
  unfold tcptmrStart
  obtain ⟨timerId, timers, started, kept, _⟩ := timerStart_spec sound
    { msecs := interval, callback := none, arg1 := mType, arg2 := argc1, arg3 := argc2
      type := tmrMsgqueue, mallocOk := clock.mallocOk, gettimeofday := clock.gettimeofday }
  rw [started, Option.map_some]
  simp only
  split
  · exact ⟨_, _, rfl, kept, rfl, rfl⟩
  · exact ⟨_, _, rfl, kept, rfl, rfl⟩

theorem tcptmrStop_spec (sound : Sound s.timers) (timerId : Int) :
    ∃ ret next, tcptmrStop s timerId = some (ret, next) ∧
      Sound next.timers ∧ next.listenFd = s.listenFd ∧ next.openFds = s.openFds := by
  unfold tcptmrStop
  rcases timerStop_spec sound timerId .stackUsed with
    ⟨_, _, _, _, _, _, stopped, _, kept⟩ | ⟨_, stopped⟩
  · rw [stopped, Option.map_some]
    exact ⟨_, _, rfl, kept, rfl, rfl⟩
  · rw [stopped, Option.map_some]
    exact ⟨_, _, rfl, sound, rfl, rfl⟩

/-- Arming the reconnect timer always returns, and leaves the descriptors alone. -/
theorem armReconnect_spec (sound : Sound s.timers) (clock : ClockEnv) :
    ∃ next, armReconnect s clock = some next ∧
      Sound next.timers ∧ next.listenFd = s.listenFd ∧ next.openFds = s.openFds := by
  have stopped : ∃ after, (if s.tmrReconn.tmrId > 0 then
      (tcptmrStop s s.tmrReconn.tmrId).map Prod.snd else some s) = some after ∧
      Sound after.timers ∧ after.listenFd = s.listenFd ∧ after.openFds = s.openFds := by
    split
    · obtain ⟨ret, after, done, same⟩ := tcptmrStop_spec sound s.tmrReconn.tmrId
      exact ⟨after, by rw [done]; rfl, same⟩
    · exact ⟨s, rfl, sound, rfl, rfl⟩
  obtain ⟨after, done, afterSound, sameFd, sameFds⟩ := stopped
  obtain ⟨tmrId, next, started, nextSound, nextFd, nextFds⟩ :=
    tcptmrStart_spec afterSound after.tmrReconn.tmrVal tmrTcpReconnectMsg 0 0 clock
  unfold armReconnect
  rw [done, Option.bind_some, started]
  exact ⟨_, rfl, nextSound, nextFd.trans sameFd, nextFds.trans sameFds⟩

theorem openFailed_spec (sound : Sound s.timers) (clock : ClockEnv) :
    ∃ next, openFailed s clock = some next ∧
      Sound next.timers ∧ next.listenFd = s.listenFd ∧ next.openFds = s.openFds := by
  unfold openFailed
  split
  · exact ⟨s, rfl, sound, rfl, rfl⟩
  · exact armReconnect_spec sound clock

theorem LinkInv.congr (inv : LinkInv s) (sound : Sound next.timers)
    (listenFd : next.listenFd = s.listenFd) (openFds : next.openFds = s.openFds) :
    LinkInv next where
  sound := sound
  positive := by rw [openFds]; exact inv.positive
  single := by
    unfold OneLink
    rw [openFds, listenFd]
    exact inv.single

/-- With its link closed, the agent has no socket. -/
theorem LinkInv.empty (inv : LinkInv s) (closed : s.listenFd ∉ s.openFds) : s.openFds = ∅ := by
  refine Finset.eq_empty_of_forall_notMem fun fd member => closed ?_
  rw [← inv.single fd member]
  exact member

theorem erase_empty (inv : LinkInv s) : s.openFds.erase s.listenFd = ∅ := by
  refine Finset.eq_empty_of_forall_notMem fun fd member => ?_
  obtain ⟨other, member⟩ := Finset.mem_erase.mp member
  exact other (inv.single fd member)

theorem linkInv_of_empty (sound : Sound s.timers) (empty : s.openFds = ∅) : LinkInv s where
  sound := sound
  positive := by rw [empty]; nofun
  single := by unfold OneLink; rw [empty]; nofun

theorem tcpOpen_cases {opened : Int} (done : tcpOpen s opened = some next) :
    opened ≠ 0 ∧ opened ∉ s.openFds ∧ next.timers = s.timers ∧ next.listenFd = opened ∧
      next.openFds = if 0 < opened then insert opened s.openFds else s.openFds := by
  unfold tcpOpen at done
  split at done
  · rename_i fresh
    cases done
    exact ⟨fresh.1, fresh.2, rfl, rfl, rfl⟩
  · cases done

theorem tcpOpen_linkInv (sound : Sound s.timers) (empty : s.openFds = ∅) {opened : Int}
    (done : tcpOpen s opened = some next) : LinkInv next := by
  obtain ⟨_, _, timers, listenFd, openFds⟩ := tcpOpen_cases done
  rw [empty] at openFds
  refine ⟨timers ▸ sound, fun fd member => ?_, fun fd member => ?_⟩
  all_goals
    rw [openFds] at member
    split at member
  · obtain rfl := Finset.mem_singleton.mp member
    assumption
  · cases member
  · rw [listenFd]
    exact Finset.mem_singleton.mp member
  · cases member

/-- The link is given up while its socket is open. -/
theorem not_oneLink (held : s.listenFd ∈ s.openFds) (kept : s.openFds ⊆ next.openFds)
    (moved : next.listenFd ∉ s.openFds) : ¬ OneLink next := by
  intro single
  rw [← single s.listenFd (kept held)] at moved
  exact moved held

theorem subset_opened (s : AgentLink) (opened : Int) :
    s.openFds ⊆ if 0 < opened then insert opened s.openFds else s.openFds := by
  split
  · exact Finset.subset_insert opened s.openFds
  · exact Finset.Subset.refl _

theorem tcpOpened_spec (sound : Sound s.timers) (clock : ClockEnv) :
    ∃ next, tcpOpened s clock = some next ∧
      Sound next.timers ∧ next.listenFd = s.listenFd ∧ next.openFds = s.openFds := by
  unfold tcpOpened
  split
  · exact openFailed_spec sound clock
  · exact ⟨fdSet s, rfl, sound, rfl, rfl⟩

theorem tcpReconnect_cases (sound : Sound s.timers) {opened : Int} {clock : ClockEnv}
    (done : tcpReconnect s opened clock = some next) :
    opened ≠ 0 ∧ opened ∉ s.openFds ∧ Sound next.timers ∧
      next.listenFd = (if 0 < opened then opened else -1) ∧
      next.openFds = if 0 < opened then insert opened s.openFds else s.openFds := by
  obtain ⟨after, first, rest⟩ := Option.bind_eq_some_iff.mp done
  obtain ⟨present, fresh, timers, listenFd, openFds⟩ := tcpOpen_cases first
  refine ⟨present, fresh, ?_⟩
  split at rest
  · rename_i failed
    rw [listenFd] at failed
    have negative : ¬ 0 < opened := by omega
    obtain ⟨final, armed, kept, sameFd, sameFds⟩ :=
      openFailed_spec (s := { after with listenFd := -1 }) (timers ▸ sound) clock
    cases armed.symm.trans rest
    rw [if_neg negative]
    exact ⟨kept, sameFd, sameFds.trans openFds⟩
  · rename_i succeeded
    rw [listenFd] at succeeded
    have positive : 0 < opened := by omega
    cases rest
    rw [if_pos positive]
    exact ⟨timers ▸ sound, listenFd, openFds⟩

theorem tcpReconnect_linkInv (sound : Sound s.timers) (empty : s.openFds = ∅) {opened : Int}
    {clock : ClockEnv} (done : tcpReconnect s opened clock = some next) : LinkInv next := by
  obtain ⟨_, _, kept, listenFd, openFds⟩ := tcpReconnect_cases sound done
  rw [empty] at openFds
  by_cases positive : 0 < opened
  · rw [if_pos positive] at listenFd openFds
    refine ⟨kept, fun fd member => ?_, fun fd member => ?_⟩
    all_goals
      rw [openFds] at member
      obtain rfl := Finset.mem_singleton.mp member
    · exact positive
    · exact listenFd.symm
  · rw [if_neg positive] at openFds
    exact linkInv_of_empty kept openFds

/-- The section of `SendProcStateReq` closes the link before it opens it again. -/
theorem reopen_linkInv (inv : LinkInv s) {opened : Int} (done : reopen s opened = some next) :
    LinkInv next :=
  tcpOpen_linkInv (s := { s with
    openFds := s.openFds.erase s.listenFd, listenFd := -1, allsetHost := ∅ })
    inv.sound (erase_empty inv) done

theorem closeLink_linkInv (inv : LinkInv s) : LinkInv (closeLink s) :=
  linkInv_of_empty inv.sound (erase_empty inv)

theorem clearLink_linkInv (sound : Sound s.timers) (empty : s.openFds = ∅) {clock : ClockEnv}
    (done : clearLink s clock = some next) : LinkInv next := by
  obtain ⟨final, armed, kept, _, sameFds⟩ :=
    armReconnect_spec (s := { s with listenFd := -1 }) sound clock
  cases armed.symm.trans done
  exact linkInv_of_empty kept (sameFds.trans empty)

theorem disconnect_linkInv (inv : LinkInv s) {clock : ClockEnv} {acceptIdx : Fin maxListenq}
    (done : VmctSock.disconnect s acceptIdx .client clock = some next) : LinkInv next := by
  rw [disconnect_client] at done
  split at done
  · exact clearLink_linkInv (s := closeLink s) inv.sound (erase_empty inv) done
  · cases done
    exact inv

theorem heartbeat_linkInv (inv : LinkInv s) {clock : ClockEnv}
    (done : heartbeat s clock = some next) : LinkInv next := by
  unfold heartbeat at done
  split at done
  · obtain ⟨after, counted, rfl⟩ := Option.map_eq_some_iff.mp done
    suffices inner : LinkInv after from inner.congr inner.sound rfl rfl
    split at counted
    · refine clearLink_linkInv ?_ ?_ counted
      · exact inv.sound
      · exact erase_empty (inv.congr inv.sound rfl rfl)
    · cases counted
      exact inv.congr inv.sound rfl rfl
  · cases done
    exact inv

theorem tcpRecv_linkInv (inv : LinkInv s) {order : ByteOrder} {size : Nat} {rBuf : Bytes size}
    {acceptIdx : Fin maxListenq} {events : List RecvEvent} {clock : ClockEnv}
    {result : RecvResult size}
    (done : VmctSock.tcpRecv order s acceptIdx rBuf .client events clock = some (next, result)) :
    LinkInv next := by
  obtain ⟨frame, _, rest⟩ := Option.bind_eq_some_iff.mp done
  obtain ⟨after, lost, pair⟩ := Option.map_eq_some_iff.mp rest
  cases pair
  split at lost
  · exact disconnect_linkInv inv lost
  · cases lost
    exact inv

end Link

section Run

variable {order : ByteOrder}

/-- The link is opened by `TcpRcvTask` or `TcpReconnect`, or given up after a failed
`TcpSend`, only while its socket is closed. -/
def LinkOk (s : Agent) : AgentEvent → Prop
  | .tcpOpen _ | .tcpReconnect _ _ | .clear _ _ => s.link.listenFd ∉ s.link.openFds
  | _ => True

theorem step_linkInv {s next : Agent} {event : AgentEvent} (inv : LinkInv s.link)
    (ok : LinkOk s event) (stepped : step order s event = some next) : LinkInv next.link := by
  cases event <;>
    simp only [step, Option.ite_none_right_eq_some, Option.map_eq_some_iff] at stepped
  case tcpOpen opened =>
    obtain ⟨_, link, done, rfl⟩ := stepped
    exact tcpOpen_linkInv (s := fdZero s.link) inv.sound (inv.empty ok) done
  case tcpOpened clock =>
    obtain ⟨_, link, done, rfl⟩ := stepped
    obtain ⟨after, same, kept, sameFd, sameFds⟩ := tcpOpened_spec inv.sound clock
    cases same.symm.trans done
    exact inv.congr kept sameFd sameFds
  case sendProcStateReq task =>
    obtain ⟨_, same⟩ := stepped
    cases same
    exact inv
  case tcpSend task sndbuf env =>
    obtain ⟨_, result, _, rfl⟩ := stepped
    exact inv
  case disconnect task =>
    obtain ⟨_, same⟩ := stepped
    cases same
    exact inv
  case close task =>
    obtain ⟨_, same⟩ := stepped
    cases same
    exact closeLink_linkInv inv
  case clear task clock =>
    obtain ⟨_, link, done, rfl⟩ := stepped
    exact clearLink_linkInv inv.sound (inv.empty ok) done
  case reopen task opened =>
    obtain ⟨_, link, done, rfl⟩ := stepped
    exact reopen_linkInv inv done
  case reopened task =>
    obtain ⟨_, same⟩ := stepped
    split at same
    · cases same
      exact inv.congr inv.sound rfl rfl
    · cases same
      exact inv
  case tcpRecv events clock =>
    obtain ⟨_, received⟩ := stepped
    obtain ⟨⟨link, result⟩, done, rfl⟩ := Option.map_eq_some_iff.mp received
    have after := tcpRecv_linkInv inv done
    simp only
    split
    · exact after.congr after.sound rfl rfl
    · exact after
  case heartbeat clock =>
    obtain ⟨_, link, done, rfl⟩ := stepped
    exact heartbeat_linkInv inv done
  case expire k gettimeofday posted =>
    obtain ⟨⟨timers, fired⟩, visited, rfl⟩ := Option.map_eq_some_iff.mp stepped
    exact inv.congr (cmpTimerValue_sound inv.sound visited).1 rfl rfl
  case tmrCmd =>
    split at stepped
    · cases stepped
      unfold tmrCmdStep
      split
      · exact inv.congr inv.sound rfl rfl
      · exact inv
    · cases stepped
  case tcpReconnect opened clock =>
    obtain ⟨_, link, done, rfl⟩ := stepped
    exact tcpReconnect_linkInv inv.sound (inv.empty ok) done

/-- A step that does not meet the condition leaves a socket behind. -/
theorem step_overwrites {s next : Agent} {event : AgentEvent} (inv : LinkInv s.link)
    (refused : ¬ LinkOk s event) (stepped : step order s event = some next) :
    ¬ OneLink next.link := by
  have minus : (-1 : Int) ∉ s.link.openFds := fun member => by
    have := inv.positive (-1) member
    omega
  cases event with
  | tcpOpen opened =>
      have held := not_not.mp refused
      simp only [step, Option.ite_none_right_eq_some, Option.map_eq_some_iff] at stepped
      obtain ⟨_, link, done, rfl⟩ := stepped
      obtain ⟨_, fresh, _, listenFd, openFds⟩ := tcpOpen_cases done
      have moved : link.listenFd ∉ s.link.openFds := by
        rw [listenFd]
        exact fresh
      exact not_oneLink held (openFds ▸ subset_opened s.link opened) moved
  | tcpReconnect opened clock =>
      have held := not_not.mp refused
      simp only [step, Option.ite_none_right_eq_some, Option.map_eq_some_iff] at stepped
      obtain ⟨_, link, done, rfl⟩ := stepped
      obtain ⟨_, fresh, _, listenFd, openFds⟩ := tcpReconnect_cases inv.sound done
      have moved : link.listenFd ∉ s.link.openFds := by
        rw [listenFd]
        split
        · exact fresh
        · exact minus
      exact not_oneLink held (openFds ▸ subset_opened s.link opened) moved
  | clear task clock =>
      have held := not_not.mp refused
      simp only [step, Option.ite_none_right_eq_some, Option.map_eq_some_iff] at stepped
      obtain ⟨_, link, done, rfl⟩ := stepped
      obtain ⟨after, armed, _, sameFd, sameFds⟩ :=
        armReconnect_spec (s := { s.link with listenFd := -1 }) inv.sound clock
      cases armed.symm.trans done
      have moved : link.listenFd ∉ s.link.openFds := by
        rw [sameFd]
        exact minus
      have kept : s.link.openFds ⊆ link.openFds := by rw [sameFds]
      exact not_oneLink held kept moved
  | tcpOpened _ | sendProcStateReq _ | tcpSend _ _ _ | disconnect _ | close _ | reopen _ _
  | reopened _ | tcpRecv _ _ | heartbeat _ | expire _ _ _ | tmrCmd => exact absurd trivial refused

/-- The agent has at most one connection, that of `ListenFD`, in every state of a run
exactly when no step of the run opens or gives up the link while its socket is open. -/
theorem run_oneLink (order : ByteOrder) (events : List AgentEvent) :
    (∀ taken, taken <+: events → ∀ middle, run (step order) Agent.init taken = some middle →
        OneLink middle.link) ↔
      AllSteps (step order) LinkOk Agent.init events :=
  run_exact (fun s => LinkInv s.link) (fun s => OneLink s.link)
    (fun _ inv => inv.single) (fun _ _ _ inv ok stepped => step_linkInv inv ok stepped)
    (fun _ _ _ inv refused stepped => step_overwrites inv refused stepped) init_linkInv events

instance (s : AgentLink) : Decidable (OneLink s) :=
  inferInstanceAs (Decidable (∀ fd ∈ s.openFds, fd = s.listenFd))

def clockAt (tvSec : Int) : ClockEnv := ⟨true, some ⟨tvSec, 0⟩⟩

/-- The first `TcpOpen` fails and arms the timer, `SendProcStateReq` opens the link, and
the timer, which it left armed, opens a second one. -/
theorem tcpReconnect_second :
    ∃ final, run (step .little) Agent.init [.tcpOpen (-1), .tcpOpened (clockAt 0),
        .sendProcStateReq .tcpRcvTask, .reopen .tcpRcvTask 5,
        .expire 0 (some ⟨2, 0⟩) true, .tmrCmd, .tcpReconnect 6 (clockAt 2)] = some final ∧
      5 ∈ final.link.openFds ∧ 6 ∈ final.link.openFds ∧ ¬ OneLink final.link :=
  exists_of_any (by decide +kernel)

end Run

end VnfMonitoring.VmctAgent
