import VnfMonitoring.VmctAgent

set_option autoImplicit false

/- The heartbeat of `TcpSessionTask` over runs. Its counter outlives a connection that
`TcpRecv` or `TcpSend` loses, so the intervals of one connection can close the next. -/
namespace VnfMonitoring.VmctHeartbeat

open VnfMonitoring.Memory VnfMonitoring.Socket VnfMonitoring.TcpFrame VnfMonitoring.VmctSock
  VnfMonitoring.VmctAgent VnfMonitoring.Runs

/-- What `TcpSessionTask` and `TcpRcvTask` see on a connection: a send interval that is
counted, one with a frame in it, and a frame. -/
inductive Mark where
  | counted
  | answered
  | frame
  deriving DecidableEq, Repr

/-- The agent with the marks of its connection since it was opened, the latest first, and
those of every connection that `TcpSessionTask` closed. -/
structure Watched where
  agent : Agent
  marks : List Mark
  closed : List (List Mark)

def Watched.init : Watched := ⟨.init, [], []⟩

/-- The intervals counted since the last frame. -/
def unanswered (marks : List Mark) : Nat := (marks.takeWhile (· ≠ .frame)).count .counted

@[simp] theorem unanswered_counted (marks : List Mark) :
    unanswered (.counted :: marks) = unanswered marks + 1 := by
  simp [unanswered]

@[simp] theorem unanswered_answered (marks : List Mark) :
    unanswered (.answered :: marks) = unanswered marks := by
  simp [unanswered]

def Justified (marks : List Mark) : Prop := tcpSndRetry ≤ unanswered marks

instance (marks : List Mark) : Decidable (Justified marks) :=
  inferInstanceAs (Decidable (_ ≤ _))

def intervalMark (hb : TmrInfo) : Mark := if hb.recvFlag = 0 then .counted else .answered

/-- A receive returns a positive value. -/
def Receives (order : ByteOrder) (s : Agent) (events : List RecvEvent) : Prop :=
  ∃ result ∈ recvFrame order s.buf events, 0 < result.nRecv

instance (order : ByteOrder) (s : Agent) (events : List RecvEvent) :
    Decidable (Receives order s events) :=
  decidable_of_iff ((recvFrame order s.buf events).any fun result => 0 < result.nRecv)
    (by simp [Receives, Option.any_eq_true])

/-- What an event adds to the marks. -/
def record (order : ByteOrder) (s : Watched) (agent : Agent) : AgentEvent → Watched
  | .tcpOpen opened | .reopen _ opened | .tcpReconnect opened _ =>
      if opened > 0 then { s with agent, marks := [] } else { s with agent }
  | .tcpRecv events _ =>
      if Receives order s.agent events then { s with agent, marks := .frame :: s.marks }
      else { s with agent }
  | .heartbeat _ =>
      if s.agent.link.mode = .client ∧ s.agent.link.listenFd > 0 then
        let marks := intervalMark s.agent.link.tmrHb :: s.marks
        { agent
          marks
          closed :=
            if hbRetryCnt s.agent.link.tmrHb ≥ tcpSndRetry then marks :: s.closed else s.closed }
      else { s with agent }
  | _ => { s with agent }

def watch (order : ByteOrder) (s : Watched) (event : AgentEvent) : Option Watched :=
  (step order s.agent event).map fun agent => record order s agent event

theorem record_agent (order : ByteOrder) (s : Watched) (agent : Agent) (event : AgentEvent) :
    (record order s agent event).agent = agent := by
  cases event <;> simp only [record] <;> split <;> rfl

/-- The marks are of the runs of the agent, and restrict none of them. -/
theorem run_watch (order : ByteOrder) (s : Watched) (events : List AgentEvent) :
    (run (watch order) s events).map Watched.agent = run (step order) s.agent events := by
  refine run_view Watched.agent (fun s event => ?_) s events
  rw [watch, Option.map_map]
  exact (Option.map_congr fun agent _ => record_agent order s agent event).trans Option.map_id'

/-- A connection is opened only while no interval is counted. -/
def OpenOk (s : Watched) : AgentEvent → Prop
  | .tcpOpen opened | .reopen _ opened | .tcpReconnect opened _ =>
      opened > 0 → s.agent.link.tmrHb.retryCnt = 0
  | _ => True

instance (s : Watched) : (event : AgentEvent) → Decidable (OpenOk s event)
  | .tcpOpen _ | .reopen _ _ | .tcpReconnect _ _ => inferInstanceAs (Decidable (_ > _ → _ = _))
  | .tcpOpened _ | .sendProcStateReq _ | .tcpSend _ _ _ | .disconnect _ | .close _ | .clear _ _
  | .reopened _ | .tcpRecv _ _ | .heartbeat _ | .expire _ _ _ | .tmrCmd => isTrue trivial

/-- The counter counts intervals of the connection that is open. -/
structure HbInv (s : Watched) : Prop where
  counted : s.agent.link.tmrHb.retryCnt ≤ unanswered s.marks
  justified : ∀ marks ∈ s.closed, Justified marks

theorem init_hbInv : HbInv .init where
  counted := Int.le_refl 0
  justified := nofun

section Link

variable {s next : AgentLink}

theorem tcptmrStart_tmrHb {interval mType argc1 argc2 : Int32} {clock : ClockEnv} {timerId : Int}
    (done : tcptmrStart s interval mType argc1 argc2 clock = some (timerId, next)) :
    next.tmrHb = s.tmrHb := by
  obtain ⟨⟨_, timers⟩, _, same⟩ := Option.map_eq_some_iff.mp done
  simp only at same
  split at same <;>
    · cases same
      rfl

theorem tcptmrStop_tmrHb {timerId ret : Int} (done : tcptmrStop s timerId = some (ret, next)) :
    next.tmrHb = s.tmrHb := by
  obtain ⟨_, _, same⟩ := Option.map_eq_some_iff.mp done
  cases same
  rfl

theorem armReconnect_tmrHb {clock : ClockEnv} (done : armReconnect s clock = some next) :
    next.tmrHb = s.tmrHb := by
  obtain ⟨stopped, first, rest⟩ := Option.bind_eq_some_iff.mp done
  obtain ⟨⟨tmrId, started⟩, second, rfl⟩ := Option.map_eq_some_iff.mp rest
  refine (tcptmrStart_tmrHb second).trans ?_
  split at first
  · obtain ⟨⟨ret, after⟩, stop, rfl⟩ := Option.map_eq_some_iff.mp first
    exact tcptmrStop_tmrHb stop
  · cases first
    rfl

theorem openFailed_tmrHb {clock : ClockEnv} (done : openFailed s clock = some next) :
    next.tmrHb = s.tmrHb := by
  unfold openFailed at done
  split at done
  · cases done
    rfl
  · exact armReconnect_tmrHb done

theorem tcpOpen_tmrHb {opened : Int} (done : VmctAgent.tcpOpen s opened = some next) :
    next.tmrHb = s.tmrHb := by
  obtain ⟨_, same⟩ := Option.ite_none_right_eq_some.mp done
  cases same
  rfl

theorem tcpReconnect_tmrHb {opened : Int} {clock : ClockEnv}
    (done : tcpReconnect s opened clock = some next) : next.tmrHb = s.tmrHb := by
  obtain ⟨after, first, rest⟩ := Option.bind_eq_some_iff.mp done
  refine Eq.trans ?_ (tcpOpen_tmrHb first)
  split at rest
  · exact openFailed_tmrHb (s := { after with listenFd := -1 }) rest
  · cases rest
    rfl

theorem tcpOpened_tmrHb {clock : ClockEnv} (done : tcpOpened s clock = some next) :
    next.tmrHb = s.tmrHb := by
  unfold tcpOpened at done
  split at done
  · exact openFailed_tmrHb done
  · cases done
    rfl

theorem disconnect_tmrHb {acceptIdx : Fin maxListenq} {clock : ClockEnv}
    (done : VmctSock.disconnect s acceptIdx .client clock = some next) : next.tmrHb = s.tmrHb := by
  rw [disconnect_client] at done
  split at done
  · exact armReconnect_tmrHb (s := { closeLink s with listenFd := -1 }) done
  · cases done
    rfl

/-- A receive of a frame clears the counter, and any other leaves the heartbeat alone. -/
theorem receiveStep_retryCnt {order : ByteOrder} {s next : Agent} {events : List RecvEvent}
    {clock : ClockEnv} (done : receiveStep order s events clock = some next) :
    if Receives order s events then next.link.tmrHb.retryCnt = 0
    else next.link.tmrHb = s.link.tmrHb := by
  obtain ⟨⟨link, result⟩, received, rfl⟩ := Option.map_eq_some_iff.mp done
  obtain ⟨frame, read, rest⟩ := Option.bind_eq_some_iff.mp received
  obtain ⟨after, lost, pair⟩ := Option.map_eq_some_iff.mp rest
  cases pair
  have same : link.tmrHb = s.link.tmrHb := by
    split at lost
    · exact disconnect_tmrHb lost
    · cases lost
      rfl
  have positive : Receives order s events ↔ 0 < result.nRecv := by
    simp [Receives, read]
  simp only [positive]
  split
  · rfl
  · exact same

/-- The section of `TcpSessionTask` counts the interval, or closes the connection and
starts over. -/
theorem heartbeat_retryCnt {clock : ClockEnv} (done : heartbeat s clock = some next)
    (open_ : s.mode = .client ∧ s.listenFd > 0) :
    next.tmrHb.retryCnt = if hbRetryCnt s.tmrHb ≥ tcpSndRetry then 0 else hbRetryCnt s.tmrHb := by
  rw [heartbeat, if_pos open_] at done
  obtain ⟨after, counted, rfl⟩ := Option.map_eq_some_iff.mp done
  split at counted
  · rename_i reached
    rw [if_pos reached]
    exact congrArg TmrInfo.retryCnt (armReconnect_tmrHb counted)
  · rename_i below
    cases counted
    rw [if_neg below]

end Link

section Step

variable {order : ByteOrder}

/-- No other event touches the heartbeat. -/
theorem step_tmrHb {s next : Agent} {event : AgentEvent}
    (stepped : step order s event = some next) :
    (∃ events clock, event = .tcpRecv events clock) ∨ (∃ clock, event = .heartbeat clock) ∨
      next.link.tmrHb = s.link.tmrHb := by
  cases event <;>
    simp only [step, Option.ite_none_right_eq_some, Option.map_eq_some_iff] at stepped
  case tcpRecv events clock => exact Or.inl ⟨events, clock, rfl⟩
  case heartbeat clock => exact Or.inr (Or.inl ⟨clock, rfl⟩)
  all_goals refine Or.inr (Or.inr ?_)
  case tcpOpen opened =>
    obtain ⟨_, link, done, rfl⟩ := stepped
    exact tcpOpen_tmrHb (s := fdZero s.link) done
  case tcpOpened clock =>
    obtain ⟨_, link, done, rfl⟩ := stepped
    exact tcpOpened_tmrHb done
  case sendProcStateReq task =>
    obtain ⟨_, same⟩ := stepped
    cases same
    rfl
  case tcpSend task sndbuf env =>
    obtain ⟨_, result, _, rfl⟩ := stepped
    rfl
  case disconnect task =>
    obtain ⟨_, same⟩ := stepped
    cases same
    rfl
  case close task =>
    obtain ⟨_, same⟩ := stepped
    cases same
    rfl
  case clear task clock =>
    obtain ⟨_, link, done, rfl⟩ := stepped
    exact armReconnect_tmrHb (s := { s.link with listenFd := -1 }) done
  case reopen task opened =>
    obtain ⟨_, link, done, rfl⟩ := stepped
    exact tcpOpen_tmrHb (s := { s.link with
      openFds := s.link.openFds.erase s.link.listenFd, listenFd := -1, allsetHost := ∅ }) done
  case reopened task =>
    obtain ⟨_, same⟩ := stepped
    split at same <;>
      · cases same
        rfl
  case expire k gettimeofday posted =>
    obtain ⟨_, _, rfl⟩ := Option.map_eq_some_iff.mp stepped
    rfl
  case tmrCmd =>
    split at stepped
    · cases stepped
      unfold tmrCmdStep
      split <;> rfl
    · cases stepped
  case tcpReconnect opened clock =>
    obtain ⟨_, link, done, rfl⟩ := stepped
    exact tcpReconnect_tmrHb done

theorem HbInv.of_marks {s : Watched} (inv : HbInv s) {agent : Agent} {marks : List Mark}
    (counted : agent.link.tmrHb.retryCnt ≤ unanswered marks) :
    HbInv { s with agent, marks } where
  counted := counted
  justified := inv.justified

/-- The interval that ends is counted on the connection too. -/
theorem HbInv.interval {s : Watched} (inv : HbInv s) :
    hbRetryCnt s.agent.link.tmrHb ≤
      unanswered (intervalMark s.agent.link.tmrHb :: s.marks) := by
  have counted := inv.counted
  unfold hbRetryCnt intervalMark
  split
  · rw [unanswered_counted]
    omega
  · rw [unanswered_answered]
    exact counted

theorem HbInv.heartbeat {s next : Watched} {clock : ClockEnv} (inv : HbInv s)
    (watched : watch order s (.heartbeat clock) = some next) : HbInv next := by
  obtain ⟨agent, stepped, rfl⟩ := Option.map_eq_some_iff.mp watched
  simp only [step, Option.ite_none_right_eq_some, Option.map_eq_some_iff] at stepped
  obtain ⟨_, link, done, rfl⟩ := stepped
  simp only [record]
  split
  · rename_i open_
    have retryCnt := heartbeat_retryCnt done open_
    have interval := inv.interval
    split at retryCnt
    · rename_i reached
      refine ⟨?_, ?_⟩
      · exact retryCnt.trans_le (Int.natCast_nonneg _)
      · rw [if_pos reached]
        refine List.forall_mem_cons.mpr ⟨?_, inv.justified⟩
        unfold Justified
        omega
    · rename_i below
      refine ⟨?_, ?_⟩
      · exact retryCnt.trans_le interval
      · rw [if_neg below]
        exact inv.justified
  · rename_i closed
    rw [VmctAgent.heartbeat, if_neg closed] at done
    cases done
    exact inv.of_marks inv.counted

theorem HbInv.tcpRecv {s next : Watched} {events : List RecvEvent} {clock : ClockEnv}
    (inv : HbInv s) (watched : watch order s (.tcpRecv events clock) = some next) :
    HbInv next := by
  obtain ⟨agent, stepped, rfl⟩ := Option.map_eq_some_iff.mp watched
  simp only [step, Option.ite_none_right_eq_some] at stepped
  have retryCnt := receiveStep_retryCnt stepped.2
  simp only [record]
  split at retryCnt
  · rename_i received
    rw [if_pos received]
    apply inv.of_marks
    rw [retryCnt]
    exact Int.natCast_nonneg _
  · rename_i missed
    rw [if_neg missed]
    apply inv.of_marks
    rw [retryCnt]
    exact inv.counted

/-- An event that may open a connection. -/
theorem HbInv.opened {s : Watched} (inv : HbInv s) {agent : Agent} {opened : Int}
    (same : agent.link.tmrHb = s.agent.link.tmrHb)
    (ok : opened > 0 → s.agent.link.tmrHb.retryCnt = 0) :
    HbInv (if opened > 0 then { s with agent, marks := [] } else { s with agent }) := by
  split
  · rename_i succeeded
    apply inv.of_marks
    rw [same, ok succeeded]
    exact Int.le_refl 0
  · apply inv.of_marks
    rw [same]
    exact inv.counted

theorem watch_hbInv {s next : Watched} {event : AgentEvent} (inv : HbInv s) (ok : OpenOk s event)
    (watched : watch order s event = some next) : HbInv next := by
  obtain ⟨agent, stepped, rfl⟩ := Option.map_eq_some_iff.mp watched
  rcases step_tmrHb stepped with ⟨events, clock, rfl⟩ | ⟨clock, rfl⟩ | same
  · exact inv.tcpRecv watched
  · exact inv.heartbeat watched
  · cases event with
    | tcpRecv events clock => exact inv.tcpRecv watched
    | heartbeat clock => exact inv.heartbeat watched
    | tcpOpen opened => exact inv.opened same ok
    | reopen task opened => exact inv.opened same ok
    | tcpReconnect opened clock => exact inv.opened same ok
    | tcpOpened _ | sendProcStateReq _ | tcpSend _ _ _ | disconnect _ | close _ | clear _ _
    | reopened _ | expire _ _ _ | tmrCmd =>
        apply inv.of_marks
        rw [same]
        exact inv.counted

end Step

/-- In every run that opens connections only while no interval is counted, each one that
`TcpSessionTask` closed had enough intervals of its own since its last frame. -/
theorem run_justified {order : ByteOrder} {events : List AgentEvent} {final : Watched}
    (allowed : AllSteps (watch order) OpenOk .init events)
    (reached : run (watch order) .init events = some final) :
    ∀ marks ∈ final.closed, Justified marks :=
  (run_invariant_of HbInv (fun _ _ _ inv ok watched => watch_hbInv inv ok watched) init_hbInv
    allowed reached).justified

/-- `TcpRcvTask` opens the link and sends its report. -/
def connected (fd : Int) : List AgentEvent :=
  [.tcpOpen fd, .tcpOpened (clockAt 0), .sendProcStateReq .tcpRcvTask,
    .tcpSend .tcpRcvTask (.zero _) ⟨[], []⟩]

/-- One interval of `TcpSessionTask` on an open link. -/
def interval : List AgentEvent :=
  [.sendProcStateReq .tcpSessionTask, .tcpSend .tcpSessionTask (.zero _) ⟨[], []⟩,
    .heartbeat (clockAt 0)]

theorem run_justified_three :
    ∃ final, run (watch .little) .init (connected 5 ++ interval ++ interval ++ interval) =
        some final ∧ final.closed = [[.counted, .counted, .counted]] ∧
      ∀ marks ∈ final.closed, Justified marks := by
  obtain ⟨final, reached, closed⟩ :
      ∃ final, run (watch .little) .init (connected 5 ++ interval ++ interval ++ interval) =
        some final ∧ final.closed = [[.counted, .counted, .counted]] :=
    exists_of_any (by decide +kernel)
  exact ⟨final, reached, closed, run_justified (by decide +kernel) reached⟩

/-- Two intervals, the connection is lost, and the first interval of the next one closes it. -/
theorem closed_next :
    ∃ final, run (watch .little) .init (connected 5 ++ interval ++ interval ++
        [.tcpRecv [.closed] (clockAt 0), .sendProcStateReq .tcpSessionTask,
          .reopen .tcpSessionTask 6, .reopened .tcpSessionTask,
          .tcpSend .tcpSessionTask (.zero _) ⟨[], []⟩, .heartbeat (clockAt 0)]) = some final ∧
      [.counted] ∈ final.closed ∧ ¬ Justified [.counted] :=
  exists_of_any (by decide +kernel)

end VnfMonitoring.VmctHeartbeat
