import VnfMonitoring.VmctAgent

set_option autoImplicit false

/- The reconnect timer of the agent, with the statements outside `TcpHostMutex` one at a
time: those of a `TcpSend` that has lost its connection, and those with which `TmrCmdTask`
takes an expired timer before the section of `TcpReconnect`. -/
namespace VnfMonitoring.VmctTimer

open VnfMonitoring.Memory VnfMonitoring.Socket VnfMonitoring.TcpFrame VnfMonitoring.Timer
  VnfMonitoring.VmctSock VnfMonitoring.VmctAgent VnfMonitoring.Runs

/-- Where a task stands in the disconnection branch of its `TcpSend`, after the `close`:
what it does next. -/
inductive Arming where
  | idle
  | testId
  | timerStop
  | clearUsed (timerId : Int)
  | timerStart
  | setUsed (timerId : Int)
  | setId (timerId : Int)
  deriving DecidableEq, Repr

/-- What `TmrCmdTask` does next with a message. -/
inductive Command where
  | idle
  | testUsed (timerId : Int)
  | clearUsed (timerId : Int)
  | clearId
  deriving DecidableEq, Repr

structure Tasks where
  agent : Agent
  arming : Task → Arming
  command : Command

def Tasks.init : Tasks := ⟨.init, fun _ => .idle, .idle⟩

inductive TimerEvent where
  /-- A section, or a statement that does not concern the timer. -/
  | agent (event : AgentEvent)
  /-- The statements of a lost `TcpSend`, and of the `TcptmrStop` and `TcptmrStart` in it. -/
  | giveUp (task : Task)
  | testId (task : Task)
  | timerStop (task : Task)
  | clearUsed (task : Task)
  | timerStart (task : Task) (clock : ClockEnv)
  | setUsed (task : Task)
  | setId (task : Task)
  /-- The statements of `TmrCmdTask`, and the first of `TcpReconnect`. -/
  | ipcRecv
  | tmrTestUsed
  | tmrClearUsed
  | tmrClearId

/-- The steps of the agent that are taken whole. -/
def Whole : AgentEvent → Prop
  | .clear _ _ | .tmrCmd => False
  | _ => True

instance : (event : AgentEvent) → Decidable (Whole event)
  | .clear _ _ | .tmrCmd => isFalse id
  | .tcpOpen _ | .tcpOpened _ | .sendProcStateReq _ | .tcpSend _ _ _ | .disconnect _ | .close _
  | .reopen _ _ | .reopened _ | .tcpRecv _ _ | .heartbeat _ | .expire _ _ _
  | .tcpReconnect _ _ => isTrue trivial

/-- The `timer_start` of `TcptmrStart` for the reconnect timer. -/
def reconnectCall (s : AgentLink) (clock : ClockEnv) : StartCall where
  msecs := s.tmrReconn.tmrVal
  callback := none
  arg1 := tmrTcpReconnectMsg
  arg2 := 0
  arg3 := 0
  type := tmrMsgqueue
  mallocOk := clock.mallocOk
  gettimeofday := clock.gettimeofday

def setSync (s : AgentLink) (timerId : Int) (entry : TmrSyncStack) : AgentLink :=
  { s with tmrsync := Function.update s.tmrsync timerId entry }

def setTmrId (s : AgentLink) (tmrId : Int) : AgentLink :=
  { s with tmrReconn := { s.tmrReconn with tmrId } }

/-- A task takes a statement: what it makes of the link, and what it does next. -/
def Tasks.advance (s : Tasks) (task : Task) (link : AgentLink) (next : Arming) : Tasks :=
  { s with agent := { s.agent with link }, arming := Function.update s.arming task next }

def Tasks.tmrCmd (s : Tasks) (link : AgentLink) (next : Command) : Tasks :=
  { s with agent := { s.agent with link }, command := next }

def step (order : ByteOrder) (s : Tasks) : TimerEvent → Option Tasks
  | .agent event =>
      if Whole event then
        (VmctAgent.step order s.agent event).map fun agent => { s with agent }
      else none
  | .giveUp task =>
      if s.agent.phase task = .closed ∧ s.arming task = .idle then
        some (s.advance task { s.agent.link with listenFd := -1 } .testId)
      else none
  | .testId task =>
      if s.arming task = .testId then
        some (s.advance task s.agent.link
          (if s.agent.link.tmrReconn.tmrId > 0 then .timerStop else .timerStart))
      else none
  | .timerStop task =>
      if s.arming task = .timerStop then
        let timerId := s.agent.link.tmrReconn.tmrId
        (Timer.timerStop s.agent.link.timers timerId .stackUsed).map fun (_, timers) =>
          s.advance task { s.agent.link with timers } (.clearUsed timerId)
      else none
  | .clearUsed task =>
      match s.arming task with
      | .clearUsed timerId =>
          some (s.advance task (setSync s.agent.link timerId ⟨false, 0, 0, 0⟩) .timerStart)
      | _ => none
  | .timerStart task clock =>
      if s.arming task = .timerStart then
        (Timer.timerStart s.agent.link.timers (reconnectCall s.agent.link clock)).map
          fun (timerId, timers) =>
            s.advance task { s.agent.link with timers }
              (if 0 ≥ timerId then .setId timerId else .setUsed timerId)
      else none
  | .setUsed task =>
      match s.arming task with
      | .setUsed timerId =>
          some (s.advance task (setSync s.agent.link timerId ⟨true, tmrTcpReconnectMsg, 0, 0⟩)
            (.setId timerId))
      | _ => none
  | .setId task =>
      match s.arming task with
      | .setId timerId =>
          let s := s.advance task (setTmrId s.agent.link timerId) .idle
          some { s with agent := s.agent.enter task .done }
      | _ => none
  | .ipcRecv =>
      match s.command, s.agent.reconnecting, s.agent.tmrCmdQ with
      | .idle, false, tmrMsg :: tmrCmdQ =>
          some
            { s with
              agent := { s.agent with tmrCmdQ }
              command :=
                if tmrMsg.argc1 = tmrTcpReconnectMsg then .testUsed tmrMsg.timerId else .idle }
      | _, _, _ => none
  | .tmrTestUsed =>
      match s.command with
      | .testUsed timerId =>
          some
            { s with
              command := if (s.agent.link.tmrsync timerId).used then .clearUsed timerId else .idle }
      | _ => none
  | .tmrClearUsed =>
      match s.command with
      | .clearUsed timerId =>
          some (s.tmrCmd
            (setSync s.agent.link timerId { s.agent.link.tmrsync timerId with used := false })
            .clearId)
      | _ => none
  | .tmrClearId =>
      if s.command = .clearId then
        let s := s.tmrCmd (setTmrId s.agent.link 0) .idle
        some { s with agent := { s.agent with reconnecting := true } }
      else none

section Statements

variable {order : ByteOrder} {s : Tasks} {task : Task} {link : AgentLink}

@[simp] theorem advance_arming (s : Tasks) (task : Task) (link : AgentLink) (next : Arming) :
    (s.advance task link next).arming task = next := Function.update_self ..

@[simp] theorem advance_link (s : Tasks) (task : Task) (link : AgentLink) (next : Arming) :
    (s.advance task link next).agent.link = link := rfl

@[simp] theorem advance_advance (s : Tasks) (task : Task) (link other : AgentLink)
    (next after : Arming) :
    (s.advance task link next).advance task other after = s.advance task other after := by
  simp [Tasks.advance]

/-- The statements of a `TcptmrStop`. -/
theorem run_tcptmrStop :
    run (step order) (s.advance task link .timerStop) [.timerStop task, .clearUsed task] =
      (tcptmrStop link link.tmrReconn.tmrId).map fun (_, link) =>
        s.advance task link .timerStart := by
  simp only [run_cons, run_nil, step, advance_arming, advance_link, ↓reduceIte, tcptmrStop]
  cases Timer.timerStop link.timers link.tmrReconn.tmrId .stackUsed with
  | none => rfl
  | some stopped =>
      simp only [Option.map_some, Option.bind_some, advance_arming, advance_link, advance_advance]
      rfl

/-- The statements of a `TcptmrStart`, and the assignment of what it returns. -/
theorem run_tcptmrStart {clock : ClockEnv} {timerId : Int} {started : AgentLink}
    (done : tcptmrStart link link.tmrReconn.tmrVal tmrTcpReconnectMsg 0 0 clock =
      some (timerId, started)) :
    ∃ events, run (step order) (s.advance task link .timerStart) events =
      some { s.advance task (setTmrId started timerId) .idle with
        agent := { s.agent with link := setTmrId started timerId }.enter task .done } := by
  obtain ⟨⟨idx, timers⟩, start, pair⟩ := Option.map_eq_some_iff.mp done
  have first : Timer.timerStart link.timers (reconnectCall link clock) = some (idx, timers) := start
  simp only at pair
  split at pair
  · rename_i failed
    cases pair
    refine ⟨[.timerStart task clock, .setId task], ?_⟩
    simp only [run_cons, run_nil, step, advance_arming, advance_link, ↓reduceIte, first,
      Option.map_some, Option.bind_some, failed, advance_advance]
    rfl
  · rename_i positive
    cases pair
    refine ⟨[.timerStart task clock, .setUsed task, .setId task], ?_⟩
    simp only [run_cons, run_nil, step, advance_arming, advance_link, ↓reduceIte, first,
      Option.map_some, Option.bind_some, positive, advance_advance]
    rfl

/-- The statements of a lost `TcpSend`, in a row. -/
theorem run_clear {clock : ClockEnv} {agent : Agent} (idle : s.arming task = .idle)
    (taken : VmctAgent.step order s.agent (.clear task clock) = some agent) :
    ∃ events, run (step order) s events = some { s with agent } := by
  simp only [VmctAgent.step, Option.ite_none_right_eq_some, Option.map_eq_some_iff] at taken
  obtain ⟨closed, link, done, rfl⟩ := taken
  obtain ⟨stopped, first, rest⟩ := Option.bind_eq_some_iff.mp done
  obtain ⟨⟨timerId, started⟩, second, rfl⟩ := Option.map_eq_some_iff.mp rest
  obtain ⟨starting, rearmed⟩ : ∃ events, run (step order) (s.advance task stopped .timerStart) events =
      some { s.advance task (setTmrId started timerId) .idle with
        agent := { s.agent with link := setTmrId started timerId }.enter task .done } :=
    run_tcptmrStart second
  have begun : run (step order) s [.giveUp task, .testId task] =
      some (s.advance task { s.agent.link with listenFd := -1 }
        (if s.agent.link.tmrReconn.tmrId > 0 then .timerStop else .timerStart)) := by
    simp only [run_cons, run_nil, step, closed, idle, and_self, ↓reduceIte, Option.bind_some,
      advance_arming, advance_link, advance_advance]
    rfl
  have whole : { s.advance task (setTmrId started timerId) .idle with
      agent := { s.agent with link := setTmrId started timerId }.enter task .done } =
      { s with agent := { s.agent with link := setTmrId started timerId }.enter task .done } := by
    simp only [Tasks.advance, ← idle, Function.update_eq_self]
  rw [whole] at rearmed
  split at first
  · rename_i present
    obtain ⟨⟨ret, after⟩, stop, rfl⟩ := Option.map_eq_some_iff.mp first
    refine ⟨[.giveUp task, .testId task] ++ ([.timerStop task, .clearUsed task] ++ starting), ?_⟩
    rw [run_append, begun, if_pos present, Option.bind_some, run_append, run_tcptmrStop, stop]
    exact rearmed
  · rename_i absent
    cases first
    refine ⟨[.giveUp task, .testId task] ++ starting, ?_⟩
    rw [run_append, begun, if_neg absent]
    exact rearmed

/-- The statements of `TmrCmdTask` on one message, in a row. -/
theorem run_tmrCmd {agent : Agent} (idle : s.command = .idle)
    (taken : VmctAgent.step order s.agent .tmrCmd = some agent) :
    ∃ events, run (step order) s events = some { s with agent } := by
  simp only [VmctAgent.step] at taken
  split at taken
  · rename_i tmrMsg tmrCmdQ waiting queue
    cases taken
    unfold tmrCmdStep
    by_cases reconnect : tmrMsg.argc1 = tmrTcpReconnectMsg
    · by_cases used : (s.agent.link.tmrsync tmrMsg.timerId).used = true
      · refine ⟨[.ipcRecv, .tmrTestUsed, .tmrClearUsed, .tmrClearId], ?_⟩
        simp only [run_cons, run_nil, step, idle, waiting, queue, reconnect, used, ↓reduceIte,
          Option.bind_some, Tasks.tmrCmd, and_self]
        rw [← idle]
        rfl
      · refine ⟨[.ipcRecv, .tmrTestUsed], ?_⟩
        simp only [run_cons, run_nil, step, idle, waiting, queue, reconnect, used, ↓reduceIte,
          Option.bind_some, and_false, Bool.false_eq_true]
    · refine ⟨[.ipcRecv], ?_⟩
      simp only [run_cons, run_nil, step, idle, waiting, queue, reconnect, ↓reduceIte,
        Option.bind_some, false_and]
  · cases taken

/-- Every run of the agent is a run of its tasks. -/
theorem run_agent {events : List AgentEvent} {agent : Agent} (arming : ∀ task, s.arming task = .idle)
    (command : s.command = .idle)
    (reached : run (VmctAgent.step order) s.agent events = some agent) :
    ∃ statements, run (step order) s statements = some { s with agent } := by
  induction events generalizing s with
  | nil =>
      cases reached
      exact ⟨[], rfl⟩
  | cons event rest ih =>
      obtain ⟨middle, taken, remaining⟩ := run_cons_some reached
      obtain ⟨later, finished⟩ := ih (s := { s with agent := middle }) arming command remaining
      have first :
          ∃ statements, run (step order) s statements = some { s with agent := middle } := by
        by_cases whole : Whole event
        · refine ⟨[.agent event], ?_⟩
          simp only [run_cons, run_nil, step, if_pos whole, taken, Option.map_some,
            Option.bind_some]
        · cases event with
          | clear task clock => exact run_clear (arming task) taken
          | tmrCmd => exact run_tmrCmd command taken
          | tcpOpen _ | tcpOpened _ | sendProcStateReq _ | tcpSend _ _ _ | disconnect _ | close _
          | reopen _ _ | reopened _ | tcpRecv _ _ | heartbeat _ | expire _ _ _
          | tcpReconnect _ _ => exact absurd trivial whole
      obtain ⟨statements, begun⟩ := first
      refine ⟨statements ++ later, ?_⟩
      rw [run_append, begun, Option.bind_some, finished]

end Statements

/-- A timer that runs, or has expired with its message still queued, is effective while
`tmrsync` has it in use. -/
def Effective (s : AgentLink) (tmrCmdQ : List TmrExpire) (id : Int) : Prop :=
  (s.tmrsync id).used = true ∧ (id ∈ s.timers.ids ∨ ∃ tmrMsg ∈ tmrCmdQ, tmrMsg.timerId = id)

instance (s : AgentLink) (tmrCmdQ : List TmrExpire) (id : Int) :
    Decidable (Effective s tmrCmdQ id) :=
  inferInstanceAs (Decidable (_ ∧ (_ ∨ _)))

/-- The timer that is effective, if any, is the one that `tmrId` names. -/
structure TimerInv (s : AgentLink) (tmrCmdQ : List TmrExpire) : Prop where
  sound : Sound s.timers
  queued : ∀ tmrMsg ∈ tmrCmdQ, 1 ≤ tmrMsg.timerId
  named : ∀ id, Effective s tmrCmdQ id → id = s.tmrReconn.tmrId

theorem init_timerInv : TimerInv .init [] where
  sound := init_linkInv.sound
  queued := nofun
  named := fun _ effective => absurd effective.1 Bool.false_ne_true

section Link

variable {s next : AgentLink} {tmrCmdQ : List TmrExpire}

theorem ids_positive {timers : Timer.State} (sound : Sound timers) {id : Int}
    (member : id ∈ timers.ids) : 1 ≤ id := by
  obtain ⟨free, leaked, used, owns⟩ := sound
  exact (owns.ids_valid (List.mem_append_left _ member)).1

theorem TimerInv.positive (inv : TimerInv s tmrCmdQ) {id : Int}
    (effective : Effective s tmrCmdQ id) : 1 ≤ id := by
  rcases effective.2 with running | ⟨tmrMsg, member, rfl⟩
  · exact ids_positive inv.sound running
  · exact inv.queued tmrMsg member

/-- A change that makes no timer effective. -/
theorem TimerInv.mono (inv : TimerInv s tmrCmdQ) (sound : Sound next.timers)
    (ids : ∀ id ∈ next.timers.ids, id ∈ s.timers.ids)
    (used : ∀ id, (next.tmrsync id).used = true → (s.tmrsync id).used = true)
    (tmrId : next.tmrReconn.tmrId = s.tmrReconn.tmrId) : TimerInv next tmrCmdQ where
  sound := sound
  queued := inv.queued
  named := fun id effective => by
    rw [tmrId]
    exact inv.named id ⟨used id effective.1, effective.2.imp_left (ids id)⟩

theorem TimerInv.congr (inv : TimerInv s tmrCmdQ) (timers : next.timers = s.timers)
    (tmrsync : next.tmrsync = s.tmrsync) (tmrReconn : next.tmrReconn = s.tmrReconn) :
    TimerInv next tmrCmdQ :=
  inv.mono (timers ▸ inv.sound) (fun _ => timers ▸ id) (fun _ => tmrsync ▸ id) (by rw [tmrReconn])

/-- Stopping the timer that `tmrId` names leaves none effective. -/
theorem tcptmrStop_none (inv : TimerInv s tmrCmdQ) {ret : Int}
    (stopped : tcptmrStop s s.tmrReconn.tmrId = some (ret, next)) (id : Int) :
    ¬ Effective next tmrCmdQ id := by
  obtain ⟨⟨_, timers⟩, stop, pair⟩ := Option.map_eq_some_iff.mp stopped
  cases pair
  rintro ⟨used, present⟩
  by_cases here : id = s.tmrReconn.tmrId
  · subst here
    simp at used
  · simp only [Function.update_of_ne here] at used
    exact here (inv.named id ⟨used, present.imp_left (timerStop_ids inv.sound stop)⟩)

/-- With no timer effective, the one that is started is the only one. -/
theorem tcptmrStart_named (none_ : ∀ id, ¬ Effective s tmrCmdQ id)
    {interval mType argc1 argc2 : Int32} {clock : ClockEnv} {timerId : Int}
    (started : tcptmrStart s interval mType argc1 argc2 clock = some (timerId, next)) {id : Int}
    (effective : Effective next tmrCmdQ id) : id = timerId := by
  obtain ⟨⟨idx, timers⟩, start, pair⟩ := Option.map_eq_some_iff.mp started
  by_contra other
  have before (used : (s.tmrsync id).used = true) (present : id ∈ timers.ids ∨
      ∃ tmrMsg ∈ tmrCmdQ, tmrMsg.timerId = id) (fresh : id ≠ idx) : False := by
    refine none_ id ⟨used, present.imp_left fun member => ?_⟩
    exact (timerStart_ids start member).resolve_right fresh
  simp only at pair
  split at pair
  · cases pair
    exact before effective.1 effective.2 other
  · cases pair
    have used := effective.1
    simp only [Function.update_of_ne other] at used
    exact before used effective.2 other

theorem armReconnect_timerInv (inv : TimerInv s tmrCmdQ) {clock : ClockEnv}
    (done : armReconnect s clock = some next) : TimerInv next tmrCmdQ := by
  obtain ⟨final, again, sound, _⟩ := armReconnect_spec inv.sound clock
  cases again.symm.trans done
  obtain ⟨stopped, first, rest⟩ := Option.bind_eq_some_iff.mp done
  obtain ⟨⟨tmrId, started⟩, second, rfl⟩ := Option.map_eq_some_iff.mp rest
  have none_ (id : Int) : ¬ Effective stopped tmrCmdQ id := by
    split at first
    · obtain ⟨⟨ret, after⟩, stop, rfl⟩ := Option.map_eq_some_iff.mp first
      exact tcptmrStop_none inv stop id
    · rename_i absent
      cases first
      intro effective
      have positive := inv.positive effective
      rw [inv.named id effective] at positive
      omega
  exact ⟨sound, inv.queued, fun id effective => tcptmrStart_named none_ second effective⟩

theorem openFailed_timerInv (inv : TimerInv s tmrCmdQ) {clock : ClockEnv}
    (done : openFailed s clock = some next) : TimerInv next tmrCmdQ := by
  unfold openFailed at done
  split at done
  · cases done
    exact inv
  · exact armReconnect_timerInv inv done

theorem tcpOpened_timerInv (inv : TimerInv s tmrCmdQ) {clock : ClockEnv}
    (done : tcpOpened s clock = some next) : TimerInv next tmrCmdQ := by
  unfold tcpOpened at done
  split at done
  · exact openFailed_timerInv inv done
  · cases done
    exact inv.congr rfl rfl rfl

theorem tcpOpen_timerInv (inv : TimerInv s tmrCmdQ) {opened : Int}
    (done : VmctAgent.tcpOpen s opened = some next) : TimerInv next tmrCmdQ := by
  obtain ⟨_, same⟩ := Option.ite_none_right_eq_some.mp done
  cases same
  exact inv.congr rfl rfl rfl

theorem tcpReconnect_timerInv (inv : TimerInv s tmrCmdQ) {opened : Int} {clock : ClockEnv}
    (done : tcpReconnect s opened clock = some next) : TimerInv next tmrCmdQ := by
  obtain ⟨after, first, rest⟩ := Option.bind_eq_some_iff.mp done
  have opened := tcpOpen_timerInv inv first
  split at rest
  · refine openFailed_timerInv ?_ rest
    exact opened.congr rfl rfl rfl
  · cases rest
    exact opened.congr rfl rfl rfl

theorem clearLink_timerInv (inv : TimerInv s tmrCmdQ) {clock : ClockEnv}
    (done : clearLink s clock = some next) : TimerInv next tmrCmdQ :=
  armReconnect_timerInv (s := { s with listenFd := -1 }) (inv.congr rfl rfl rfl) done

theorem tcpRecv_timerInv (inv : TimerInv s tmrCmdQ) {order : ByteOrder} {size : Nat}
    {rBuf : Bytes size} {acceptIdx : Fin maxListenq} {events : List RecvEvent} {clock : ClockEnv}
    {result : RecvResult size}
    (done : VmctSock.tcpRecv order s acceptIdx rBuf .client events clock = some (next, result)) :
    TimerInv next tmrCmdQ := by
  obtain ⟨frame, _, rest⟩ := Option.bind_eq_some_iff.mp done
  obtain ⟨after, lost, pair⟩ := Option.map_eq_some_iff.mp rest
  cases pair
  split at lost
  · rw [disconnect_client] at lost
    split at lost
    · exact clearLink_timerInv (s := closeLink s) (inv.congr rfl rfl rfl) lost
    · cases lost
      exact inv
  · cases lost
    exact inv

theorem heartbeat_timerInv (inv : TimerInv s tmrCmdQ) {clock : ClockEnv}
    (done : heartbeat s clock = some next) : TimerInv next tmrCmdQ := by
  unfold heartbeat at done
  split at done
  · obtain ⟨after, counted, rfl⟩ := Option.map_eq_some_iff.mp done
    suffices inner : TimerInv after tmrCmdQ from inner.congr rfl rfl rfl
    split at counted
    · refine clearLink_timerInv ?_ counted
      exact inv.congr rfl rfl rfl
    · cases counted
      exact inv.congr rfl rfl rfl
  · cases done
    exact inv

/-- The timer thread only moves a timer from the list to the queue. -/
theorem expireStep_timerInv {s next : Agent} (inv : TimerInv s.link s.tmrCmdQ) {k : Nat}
    {gettimeofday : Option Timeval} {posted : Bool}
    (done : expireStep s k gettimeofday posted = some next) :
    TimerInv next.link next.tmrCmdQ := by
  obtain ⟨⟨timers, fired⟩, visited, rfl⟩ := Option.map_eq_some_iff.mp done
  obtain ⟨ids, listed⟩ := cmpTimerValue_ids inv.sound visited
  have kept : TimerInv { s.link with timers } s.tmrCmdQ :=
    inv.mono (cmpTimerValue_sound inv.sound visited).1 ids (fun _ => id) rfl
  cases fired with
  | none => exact kept
  | some ent =>
      cases posted with
      | false => exact kept
      | true =>
          have here : ent.id ∈ s.link.timers.ids := listed ent rfl
          refine ⟨kept.sound, fun tmrMsg member => ?_, fun id effective => ?_⟩
          · rcases List.mem_append.mp member with before | posted
            · exact inv.queued tmrMsg before
            · rw [List.mem_singleton.mp posted]
              exact ids_positive inv.sound here
          · refine inv.named id ⟨effective.1, ?_⟩
            rcases effective.2 with running | ⟨tmrMsg, member, rfl⟩
            · exact Or.inl (ids id running)
            · rcases List.mem_append.mp member with before | posted
              · exact Or.inr ⟨tmrMsg, before, rfl⟩
              · rw [List.mem_singleton.mp posted]
                exact Or.inl here

end Link

section Run

variable {order : ByteOrder}

/-- No lost `TcpSend` gets to start a timer outside the mutex, and when `TcpReconnect` sets
`tmrId` to 0 outside it, the timer that it named is not effective. -/
def TimerOk (s : Tasks) : TimerEvent → Prop
  | .timerStart _ _ => False
  | .tmrClearId =>
      ¬ Effective s.agent.link s.agent.tmrCmdQ s.agent.link.tmrReconn.tmrId
  | _ => True

/-- Nothing is left of a `TcptmrStart` outside the mutex. -/
def Unstarted : Arming → Prop
  | .setUsed _ | .setId _ => False
  | _ => True

structure TasksInv (s : Tasks) : Prop where
  timer : TimerInv s.agent.link s.agent.tmrCmdQ
  arming : ∀ task, Unstarted (s.arming task)

theorem init_tasksInv : TasksInv .init where
  timer := init_timerInv
  arming := fun _ => trivial

theorem agent_timerInv {s next : Agent} {event : AgentEvent} (inv : TimerInv s.link s.tmrCmdQ)
    (whole : Whole event) (stepped : VmctAgent.step order s event = some next) :
    TimerInv next.link next.tmrCmdQ := by
  cases event <;>
    simp only [VmctAgent.step, Option.ite_none_right_eq_some, Option.map_eq_some_iff] at stepped
  case tcpOpen opened =>
    obtain ⟨_, link, done, rfl⟩ := stepped
    have zeroed : TimerInv (fdZero s.link) s.tmrCmdQ := inv.congr rfl rfl rfl
    exact tcpOpen_timerInv zeroed done
  case tcpOpened clock =>
    obtain ⟨_, link, done, rfl⟩ := stepped
    exact tcpOpened_timerInv inv done
  case sendProcStateReq task =>
    obtain ⟨_, same⟩ := stepped
    cases same
    exact inv
  case tcpSend task sndbuf env =>
    obtain ⟨_, result, _, rfl⟩ := stepped
    exact inv
  case disconnect task =>
    obtain ⟨_, same⟩ := stepped
    cases same
    exact inv
  case close task =>
    obtain ⟨_, same⟩ := stepped
    cases same
    exact inv.congr rfl rfl rfl
  case clear task clock => exact whole.elim
  case reopen task opened =>
    obtain ⟨_, link, done, rfl⟩ := stepped
    refine tcpOpen_timerInv ?_ done
    exact inv.congr rfl rfl rfl
  case reopened task =>
    obtain ⟨_, same⟩ := stepped
    split at same
    · cases same
      exact inv.congr rfl rfl rfl
    · cases same
      exact inv
  case tcpRecv events clock =>
    obtain ⟨_, received⟩ := stepped
    obtain ⟨⟨link, result⟩, done, rfl⟩ := Option.map_eq_some_iff.mp received
    have after := tcpRecv_timerInv inv done
    simp only
    split
    · exact after.congr rfl rfl rfl
    · exact after
  case heartbeat clock =>
    obtain ⟨_, link, done, rfl⟩ := stepped
    exact heartbeat_timerInv inv done
  case expire k gettimeofday posted => exact expireStep_timerInv inv stepped
  case tmrCmd => exact whole.elim
  case tcpReconnect opened clock =>
    obtain ⟨_, link, done, rfl⟩ := stepped
    exact tcpReconnect_timerInv inv done

theorem TasksInv.advance {s : Tasks} (inv : TasksInv s) {task : Task} {link : AgentLink}
    {next : Arming} (timer : TimerInv link s.agent.tmrCmdQ) (unstarted : Unstarted next) :
    TasksInv (s.advance task link next) where
  timer := timer
  arming := fun other => by
    by_cases here : other = task
    · subst here
      simpa [Tasks.advance] using unstarted
    · simpa [Tasks.advance, here] using inv.arming other

/-- Marking a timer unused makes none effective. -/
theorem setSync_timerInv {s : AgentLink} {tmrCmdQ : List TmrExpire} (inv : TimerInv s tmrCmdQ)
    {timerId : Int} {entry : TmrSyncStack} (unused : entry.used = false) :
    TimerInv (setSync s timerId entry) tmrCmdQ := by
  refine inv.mono inv.sound (fun _ => id) (fun id used => ?_) rfl
  by_cases here : id = timerId
  · subst here
    simp [setSync, unused] at used
  · simpa [setSync, here] using used

theorem step_tasksInv {s next : Tasks} {event : TimerEvent} (inv : TasksInv s)
    (ok : TimerOk s event) (stepped : step order s event = some next) : TasksInv next := by
  cases event with
  | agent event =>
      obtain ⟨whole, stepped⟩ := Option.ite_none_right_eq_some.mp stepped
      obtain ⟨agent, taken, rfl⟩ := Option.map_eq_some_iff.mp stepped
      exact ⟨agent_timerInv inv.timer whole taken, inv.arming⟩
  | giveUp task =>
      obtain ⟨_, same⟩ := Option.ite_none_right_eq_some.mp stepped
      cases same
      exact inv.advance (inv.timer.congr rfl rfl rfl) trivial
  | testId task =>
      obtain ⟨_, same⟩ := Option.ite_none_right_eq_some.mp stepped
      cases same
      apply inv.advance inv.timer
      split <;> trivial
  | timerStop task =>
      obtain ⟨_, stepped⟩ := Option.ite_none_right_eq_some.mp stepped
      obtain ⟨⟨ret, timers⟩, stopped, rfl⟩ := Option.map_eq_some_iff.mp stepped
      have sound := inv.timer.sound
      refine inv.advance ?_ trivial
      exact inv.timer.mono (timerStop_sound sound stopped).1
        (fun _ => timerStop_ids sound stopped) (fun _ => id) rfl
  | clearUsed task =>
      simp only [step] at stepped
      split at stepped
      · cases stepped
        exact inv.advance (setSync_timerInv inv.timer rfl) trivial
      · cases stepped
  | timerStart task clock => exact ok.elim
  | setUsed task =>
      have unstarted := inv.arming task
      simp only [step] at stepped
      split at stepped
      · rename_i timerId here
        rw [here] at unstarted
        exact unstarted.elim
      · cases stepped
  | setId task =>
      have unstarted := inv.arming task
      simp only [step] at stepped
      split at stepped
      · rename_i timerId here
        rw [here] at unstarted
        exact unstarted.elim
      · cases stepped
  | ipcRecv =>
      simp only [step] at stepped
      split at stepped
      · rename_i tmrMsg tmrCmdQ _ _ queue
        cases stepped
        refine ⟨⟨inv.timer.sound, fun other member => ?_, fun id effective => ?_⟩, inv.arming⟩
        · exact inv.timer.queued other (queue ▸ List.mem_cons_of_mem _ member)
        · refine inv.timer.named id ⟨effective.1, effective.2.imp_right ?_⟩
          rintro ⟨other, member, same⟩
          exact ⟨other, queue ▸ List.mem_cons_of_mem _ member, same⟩
      · cases stepped
  | tmrTestUsed =>
      simp only [step] at stepped
      split at stepped
      · cases stepped
        exact ⟨inv.timer, inv.arming⟩
      · cases stepped
  | tmrClearUsed =>
      simp only [step] at stepped
      split at stepped
      · cases stepped
        exact ⟨setSync_timerInv inv.timer rfl, inv.arming⟩
      · cases stepped
  | tmrClearId =>
      obtain ⟨_, same⟩ := Option.ite_none_right_eq_some.mp stepped
      cases same
      refine ⟨⟨inv.timer.sound, inv.timer.queued, fun id effective => ?_⟩, inv.arming⟩
      have named := inv.timer.named id effective
      exact absurd effective (named ▸ ok)

/-- In every run that meets the condition, at most one reconnect timer is effective, and it
is the one that `tmrId` names, also while `TmrCmdTask` takes an expired one. -/
theorem run_oneEffective {events : List TimerEvent} {final : Tasks}
    (allowed : AllSteps (step order) TimerOk .init events)
    (reached : run (step order) .init events = some final) :
    (∀ id other, Effective final.agent.link final.agent.tmrCmdQ id →
      Effective final.agent.link final.agent.tmrCmdQ other → id = other) ∧
    ∀ id, Effective final.agent.link final.agent.tmrCmdQ id →
      id = final.agent.link.tmrReconn.tmrId := by
  have inv := run_invariant_of TasksInv (fun _ _ _ inv ok stepped => step_tasksInv inv ok stepped)
    init_tasksInv allowed reached
  refine ⟨fun id other effective also => ?_, inv.timer.named⟩
  rw [inv.timer.named id effective, inv.timer.named other also]

instance (s : Tasks) : (event : TimerEvent) → Decidable (TimerOk s event)
  | .timerStart _ _ => isFalse id
  | .tmrClearId => inferInstanceAs (Decidable (¬ Effective _ _ _))
  | .agent _ | .giveUp _ | .testId _ | .timerStop _ | .clearUsed _ | .setUsed _ | .setId _
  | .ipcRecv | .tmrTestUsed | .tmrClearUsed => isTrue trivial

/-- The first `TcpOpen` fails and arms a timer, and `SendProcStateReq` opens the link; the
timer expires, and `TmrCmdTask` takes it up to the assignment of `tmrId`. -/
def expired : List TimerEvent :=
  [.agent (.tcpOpen (-1)), .agent (.tcpOpened (clockAt 0)),
    .agent (.sendProcStateReq .tcpRcvTask), .agent (.reopen .tcpRcvTask 5),
    .agent (.reopened .tcpRcvTask), .agent (.tcpSend .tcpRcvTask (.zero _) ⟨[], []⟩),
    .agent (.expire 0 (some ⟨2, 0⟩) true), .ipcRecv, .tmrTestUsed, .tmrClearUsed]

theorem run_oneEffective_rearmed :
    ∃ final, run (step .little) .init
        (expired ++ [.tmrClearId, .agent (.tcpReconnect (-1) (clockAt 2))]) = some final ∧
      Effective final.agent.link final.agent.tmrCmdQ 2 ∧
      ∀ id, Effective final.agent.link final.agent.tmrCmdQ id → id = 2 := by
  have taken : ∃ final, run (step .little) .init
        (expired ++ [.tmrClearId, .agent (.tcpReconnect (-1) (clockAt 2))]) = some final ∧
      Effective final.agent.link final.agent.tmrCmdQ 2 := exists_of_any (by decide +kernel)
  obtain ⟨final, reached, effective⟩ := taken
  have one := (run_oneEffective (by decide +kernel) reached).1
  exact ⟨final, reached, effective, fun id also => one id 2 also effective⟩

/-- `TcpRecv` loses the connection and arms a timer before `TmrCmdTask` sets `tmrId` to 0,
so `TcpReconnect`, when it fails, arms another one. -/
theorem effective_two :
    ∃ final, run (step .little) .init
        (expired ++ [.agent (.tcpRecv [.closed] (clockAt 2)), .tmrClearId,
          .agent (.tcpReconnect (-1) (clockAt 2))]) = some final ∧
      Effective final.agent.link final.agent.tmrCmdQ 2 ∧
      Effective final.agent.link final.agent.tmrCmdQ 3 :=
  exists_of_any (by decide +kernel)

end Run

end VnfMonitoring.VmctTimer
