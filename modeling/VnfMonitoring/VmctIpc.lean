import VnfMonitoring.Lib.Fields
import VnfMonitoring.Mqipc
import VnfMonitoring.VmctAgent

set_option autoImplicit false

/- The agent with the message queue between its timer thread and `TmrCmdTask`:
`tmr_expire_func` copies a `tmr_expire_t` into a message, and `TmrCmdTask` reads one out
of what `ipcRecv` stored. -/
namespace VnfMonitoring.VmctIpc

open VnfMonitoring.Memory VnfMonitoring.Socket VnfMonitoring.TcpFrame VnfMonitoring.Fields
  VnfMonitoring.Runs VnfMonitoring.Timer VnfMonitoring.Mqipc VnfMonitoring.VmctSock
  VnfMonitoring.VmctAgent

section Bytes

/-- The image of an `int`, and back. -/
def intBytes (order : ByteOrder) (value : Int32) : List UInt8 :=
  order.bytesOf 4 value.toUInt32.toNat

def intOf (order : ByteOrder) (bytes : List UInt8) : Int32 :=
  (UInt32.ofNat (order.valueOf bytes)).toInt32

@[simp] theorem intBytes_length (order : ByteOrder) (value : Int32) :
    (intBytes order value).length = 4 := order.bytesOf_length _ _

@[simp] theorem intOf_intBytes (order : ByteOrder) (value : Int32) :
    intOf order (intBytes order value) = value := by
  rw [intOf, intBytes, order.valueOf_bytesOf 4 _ value.toUInt32.toNat_lt, UInt32.ofNat_toNat,
    Int32.toInt32_toUInt32]

/-- `sizeof(tmr_expire_t)`. -/
def tmrExpireSize : Int32 := 16

/-- The members of `uiBuf` behind its type, up to the padding at its end. -/
def uiBufFields (order : ByteOrder) (msgQid : Int32) (tmBuf : TmrExpire) (padding : Bytes 4) :
    List (List UInt8) :=
  [intBytes order msgQid, intBytes order msgQid, intBytes order tmrExpireSize,
    intBytes order (Int32.ofInt tmBuf.timerId), intBytes order tmBuf.argc1,
    intBytes order tmBuf.argc2, intBytes order tmBuf.argc3, padding.toList]

/-- The message that `tmr_expire_func` hands to `msgsnd`, which takes only positive types. -/
def tmrExpireFunc (order : ByteOrder) (msgQid : Int32) (tmBuf : TmrExpire) (padding : Bytes 4) :
    Option Message :=
  if positive : 0 < tmBuf.argc1.toInt64.toInt then
    some
      { msgtype := tmBuf.argc1.toInt64
        positive
        body := (uiBufFields order msgQid tmBuf padding).flatten }
  else none

/-- `*(tmr_expire_t *)ipcBuf.userdata`. -/
def tmrExpireAt (order : ByteOrder) (ipcBuf : IpcMsgStruct) : TmrExpire where
  timerId := (intOf order (ipcBuf.userdata.take 4)).toInt
  argc1 := intOf order ((ipcBuf.userdata.drop 4).take 4)
  argc2 := intOf order ((ipcBuf.userdata.drop 8).take 4)
  argc3 := intOf order ((ipcBuf.userdata.drop 12).take 4)

end Bytes

/-- The agent, what is in its queue, and the buffer of `TmrCmdTask`; `tmrCmdQ` of the
agent stays empty. -/
structure IpcAgent where
  agent : Agent
  queue : List Message
  ipcBuf : IpcMsgStruct

def IpcAgent.init (ipcBuf : IpcMsgStruct) : IpcAgent := ⟨.init, [], ipcBuf⟩

inductive IpcEvent where
  /-- A step of a task other than these two. -/
  | agent (event : AgentEvent)
  /-- A visit of the timer thread; `posted` says whether its `msgget` and `msgsnd` succeed. -/
  | expire (k : Nat) (gettimeofday : Option Timeval) (posted : Bool) (padding : Bytes 4)
  | tmrCmd
  /-- The `msgrcv` of `TmrCmdTask` fails. -/
  | tmrCmdFails (errno : Errno)

def expireStep (order : ByteOrder) (msgQid : Int32) (s : IpcAgent) (k : Nat)
    (gettimeofday : Option Timeval) (posted : Bool) (padding : Bytes 4) : Option IpcAgent :=
  (cmpTimerValue s.agent.link.timers k gettimeofday).map fun (timers, fired) =>
    { s with
      agent := { s.agent with link := { s.agent.link with timers } }
      queue :=
        match fired with
        | some ent =>
            match ent.action, posted with
            | some .tmrExpireFunc, true =>
                s.queue ++
                  (tmrExpireFunc order msgQid ⟨ent.id, ent.arg1, ent.arg2, ent.arg3⟩ padding).toList
            | _, _ => s.queue
        | none => s.queue }

/-- The case of `TMR_TCP_RECONNECT_MSG`, up to the section of `TcpReconnect`. -/
def tcpReconnectMsg (s : Agent) (tmrMsg : TmrExpire) : Agent :=
  if (s.link.tmrsync tmrMsg.timerId).used then
    { s with
      link :=
        { s.link with
          tmrsync := Function.update s.link.tmrsync tmrMsg.timerId
            { s.link.tmrsync tmrMsg.timerId with used := false }
          tmrReconn := { s.link.tmrReconn with tmrId := 0 } }
      reconnecting := true }
  else s

/-- One round of `TmrCmdTask`. Its other two cases do nothing but print. -/
def tmrCmdTask (order : ByteOrder) (tmrCmdQid : Int32) (s : IpcAgent) (first : Attempt) :
    Option IpcAgent :=
  (ipcRecv order tmrCmdQid (some s.ipcBuf) ⟨false, false⟩ first (.queue s.queue)).map fun report =>
    let queue := if report.taken.isSome then s.queue.tail else s.queue
    let ipcBuf := report.msgBuf.getD s.ipcBuf
    if report.ret = -1 then { s with queue, ipcBuf }
    else if report.ret = tmrTcpReconnectMsg then
      { agent := tcpReconnectMsg s.agent (tmrExpireAt order ipcBuf), queue, ipcBuf }
    else { s with queue, ipcBuf }

def step (order : ByteOrder) (tmrCmdQid : Int32) (s : IpcAgent) : IpcEvent → Option IpcAgent
  | .agent (.expire _ _ _) | .agent .tmrCmd => none
  | .agent event => (VmctAgent.step order s.agent event).map fun agent => { s with agent }
  | .expire k gettimeofday posted padding =>
      expireStep order tmrCmdQid s k gettimeofday posted padding
  | .tmrCmd =>
      if s.agent.reconnecting then none else tmrCmdTask order tmrCmdQid s (.queue s.queue)
  | .tmrCmdFails errno =>
      -- the queue answers `E2BIG` only where its first message is too large
      if s.agent.reconnecting ∨ errno = .e2big then none
      else tmrCmdTask order tmrCmdQid s (.error errno)

section RoundTrip

variable {order : ByteOrder} {msgQid : Int32} {tmBuf : TmrExpire} {padding : Bytes 4}
  {message : Message}

theorem uiBufFields_length :
    ∀ field ∈ uiBufFields order msgQid tmBuf padding, field.length = 4 := by
  simp [uiBufFields]

theorem uiBuf_length : (uiBufFields order msgQid tmBuf padding).flatten.length = 32 := by
  simp [uiBufFields]

/-- A member of `uiBuf` in what the queue stores of it. -/
theorem fill_field (msgBuf : IpcMsgStruct)
    (body : message.body = (uiBufFields order msgQid tmBuf padding).flatten) {k : Nat}
    {field : List UInt8} (here : (uiBufFields order msgQid tmBuf padding)[k]? = some field) :
    ((msgBuf.fill message message.body).text.toList.drop (4 * k)).take 4 = field := by
  have size : message.body.length = 32 := by rw [body, uiBuf_length]
  obtain ⟨inside, _⟩ := List.getElem?_eq_some_iff.mp here
  have within : k < 8 := inside
  rw [IpcMsgStruct.fill, overwrite_inside (by omega) (by omega), body]
  exact flatten_field uiBufFields_length here

theorem fill_userdata (msgBuf : IpcMsgStruct)
    (body : message.body = (uiBufFields order msgQid tmBuf padding).flatten) {k : Nat}
    {field : List UInt8} (here : (uiBufFields order msgQid tmBuf padding)[3 + k]? = some field) :
    ((msgBuf.fill message message.body).userdata.drop (4 * k)).take 4 = field := by
  obtain ⟨inside, _⟩ := List.getElem?_eq_some_iff.mp here
  have within : 3 + k < 8 := inside
  rw [IpcMsgStruct.userdata,
    take_drop_take (by simp only [userdataSize, ipcDataLength, ipcHeadLength]; omega),
    List.drop_drop, ← fill_field msgBuf body here]
  congr 2
  simp only [userdataAt]
  omega

theorem tmrExpireFunc_some (sent : tmrExpireFunc order msgQid tmBuf padding = some message) :
    message.msgtype = tmBuf.argc1.toInt64 ∧
      message.body = (uiBufFields order msgQid tmBuf padding).flatten := by
  unfold tmrExpireFunc at sent
  split at sent
  · cases sent
    exact ⟨rfl, rfl⟩
  · cases sent

/-- What `TmrCmdTask` receives of a message of `tmr_expire_func` is what that wrote. -/
theorem recvMessage_tmrExpire (sent : tmrExpireFunc order msgQid tmBuf padding = some message)
    (low : 0 ≤ tmBuf.timerId) (high : tmBuf.timerId ≤ maxTmrNum) (msgBuf : IpcMsgStruct) :
    recvMessage order msgBuf message message.body =
        ⟨tmBuf.argc1, some (msgBuf.fill message message.body), some message, some message⟩ ∧
      tmrExpireAt order (msgBuf.fill message message.body) = tmBuf := by
  obtain ⟨msgtype, body⟩ := tmrExpireFunc_some sent
  have datalen : (msgBuf.fill message message.body).datalen order = tmrExpireSize := by
    have field : ((msgBuf.fill message message.body).text.toList.drop (4 * 2)).take 4 =
        intBytes order tmrExpireSize := fill_field msgBuf body rfl
    rw [IpcMsgStruct.datalen, show datalenAt = 4 * 2 from rfl, field]
    exact intOf_intBytes order tmrExpireSize
  have short : ¬ ((msgBuf.fill message message.body).datalen order).toInt > ipcDataLength := by
    rw [datalen]
    decide
  have timerId : (Int32.ofInt tmBuf.timerId).toInt = tmBuf.timerId := by
    simp only [maxTmrNum] at high
    exact Int32.toInt_ofInt_of_le (by omega) (by omega)
  constructor
  · simp only [recvMessage, short, if_false, IpcMsgStruct.fill_msgtype, msgtype,
      Int32.toInt32_toInt64]
  · have field (k : Nat) {bytes : List UInt8}
        (here : (uiBufFields order msgQid tmBuf padding)[3 + k]? = some bytes) :
        ((msgBuf.fill message message.body).userdata.drop (4 * k)).take 4 = bytes :=
      fill_userdata msgBuf body here
    have first := field 0 rfl
    have second := field 1 rfl
    have third := field 2 rfl
    have fourth := field 3 rfl
    simp only [Nat.mul_zero, List.drop_zero, Nat.reduceMul] at first second third fourth
    simp only [tmrExpireAt, first, second, third, fourth, intOf_intBytes, timerId]

/-- It is the next that `ipcRecv` takes when it is the first in the queue. -/
theorem ipcRecv_tmrExpire (sent : tmrExpireFunc order msgQid tmBuf padding = some message)
    (low : 0 ≤ tmBuf.timerId) (high : tmBuf.timerId ≤ maxTmrNum) {tmrCmdQid : Int32}
    (opened : ¬ tmrCmdQid < 0) (msgBuf : IpcMsgStruct) (rest : List Message) (second : Attempt) :
    ∃ after,
      ipcRecv order tmrCmdQid (some msgBuf) ⟨false, false⟩ (.queue (message :: rest)) second =
        some ⟨tmBuf.argc1, some after, some message, some message⟩ ∧
      tmrExpireAt order after = tmBuf := by
  obtain ⟨report, read⟩ := recvMessage_tmrExpire sent low high msgBuf
  have fits : message.body.length ≤ ipcMsgStructSize := by
    rw [(tmrExpireFunc_some sent).2, uiBuf_length]
    decide
  refine ⟨_, ?_, read⟩
  simp only [ipcRecv, if_neg opened, msgrcv, if_pos fits, report]

end RoundTrip

section TimerCalls

/-- The timers after calls of the timer library, which start reconnect timers only. -/
def TimerCalls (timers after : Timer.State) : Prop :=
  ∃ calls, run Timer.step timers calls = some after ∧ ∀ call, .start call ∈ calls →
    call.arg1 = tmrTcpReconnectMsg ∧ call.type = tmrMsgqueue

theorem TimerCalls.refl (timers : Timer.State) : TimerCalls timers timers := ⟨[], rfl, nofun⟩

theorem TimerCalls.trans {first second third : Timer.State} (here : TimerCalls first second)
    (there : TimerCalls second third) : TimerCalls first third := by
  obtain ⟨calls, run, each⟩ := here
  obtain ⟨more, again, others⟩ := there
  refine ⟨calls ++ more, ?_, fun call member => ?_⟩
  · rw [run_append, run, Option.bind_some]
    exact again
  · rcases List.mem_append.mp member with early | late
    · exact each call early
    · exact others call late

theorem timerCalls_one {timers after : Timer.State} (event : Timer.Event)
    (stepped : Timer.step timers event = some after)
    (start : ∀ call, event = .start call →
      call.arg1 = tmrTcpReconnectMsg ∧ call.type = tmrMsgqueue) : TimerCalls timers after := by
  refine ⟨[event], ?_, fun call member => ?_⟩
  · rw [run_singleton]
    exact stepped
  · exact start call (List.mem_singleton.mp member).symm

variable {s next : AgentLink}

theorem tcptmrStart_calls {interval argc1 argc2 : Int32} {clock : ClockEnv} {timerId : Int}
    (started : tcptmrStart s interval tmrTcpReconnectMsg argc1 argc2 clock =
      some (timerId, next)) : TimerCalls s.timers next.timers := by
  obtain ⟨⟨ret, timers⟩, start, same⟩ := Option.map_eq_some_iff.mp started
  have after : next.timers = timers := by
    simp only at same
    split at same
    · cases same
      rfl
    · cases same
      rfl
  rw [after]
  apply timerCalls_one (.start _)
  · rw [Timer.step, start]
    rfl
  · rintro call ⟨⟩
    exact ⟨rfl, rfl⟩

theorem tcptmrStop_calls {timerId ret : Int} (stopped : tcptmrStop s timerId = some (ret, next)) :
    TimerCalls s.timers next.timers := by
  obtain ⟨⟨code, timers⟩, stop, same⟩ := Option.map_eq_some_iff.mp stopped
  cases same
  apply timerCalls_one (.stop timerId .stackUsed)
  · rw [Timer.step, stop]
    rfl
  · intro call same
    cases same

theorem armReconnect_calls {clock : ClockEnv} (armed : armReconnect s clock = some next) :
    TimerCalls s.timers next.timers := by
  obtain ⟨middle, stop, rest⟩ := Option.bind_eq_some_iff.mp armed
  obtain ⟨⟨tmrId, started⟩, start, rfl⟩ := Option.map_eq_some_iff.mp rest
  have first : TimerCalls s.timers middle.timers := by
    split at stop
    · obtain ⟨⟨ret, after⟩, stopped, rfl⟩ := Option.map_eq_some_iff.mp stop
      exact tcptmrStop_calls stopped
    · cases stop
      exact TimerCalls.refl _
  have second : TimerCalls middle.timers started.timers := tcptmrStart_calls start
  exact first.trans second

theorem clearLink_calls {clock : ClockEnv} (done : clearLink s clock = some next) :
    TimerCalls s.timers next.timers :=
  armReconnect_calls (s := { s with listenFd := -1 }) done

theorem openFailed_calls {clock : ClockEnv} (done : openFailed s clock = some next) :
    TimerCalls s.timers next.timers := by
  unfold openFailed at done
  split at done
  · cases done
    exact TimerCalls.refl _
  · exact armReconnect_calls done

theorem tcpOpened_calls {clock : ClockEnv} (done : tcpOpened s clock = some next) :
    TimerCalls s.timers next.timers := by
  unfold tcpOpened at done
  split at done
  · exact openFailed_calls done
  · cases done
    exact TimerCalls.refl _

theorem tcpReconnect_calls {opened : Int} {clock : ClockEnv}
    (done : tcpReconnect s opened clock = some next) : TimerCalls s.timers next.timers := by
  obtain ⟨after, first, rest⟩ := Option.bind_eq_some_iff.mp done
  obtain ⟨_, _, timers, _, _⟩ := tcpOpen_cases first
  rw [← timers]
  split at rest
  · exact openFailed_calls (s := { after with listenFd := -1 }) rest
  · cases rest
    exact TimerCalls.refl _

theorem disconnect_calls {acceptIdx : Fin maxListenq} {clock : ClockEnv}
    (done : VmctSock.disconnect s acceptIdx .client clock = some next) :
    TimerCalls s.timers next.timers := by
  rw [disconnect_client] at done
  split at done
  · exact clearLink_calls (s := closeLink s) done
  · cases done
    exact TimerCalls.refl _

theorem heartbeat_calls {clock : ClockEnv} (done : heartbeat s clock = some next) :
    TimerCalls s.timers next.timers := by
  unfold heartbeat at done
  split at done
  · obtain ⟨after, counted, rfl⟩ := Option.map_eq_some_iff.mp done
    suffices inner : TimerCalls s.timers after.timers from inner
    split at counted
    · have given := clearLink_calls counted
      exact given
    · cases counted
      exact TimerCalls.refl _
  · cases done
    exact TimerCalls.refl _

theorem receiveStep_calls {order : ByteOrder} {a after : Agent} {events : List RecvEvent}
    {clock : ClockEnv} (done : receiveStep order a events clock = some after) :
    TimerCalls a.link.timers after.link.timers := by
  obtain ⟨⟨link, result⟩, received, rfl⟩ := Option.map_eq_some_iff.mp done
  obtain ⟨frame, _, rest⟩ := Option.bind_eq_some_iff.mp received
  obtain ⟨lost, torn, pair⟩ := Option.map_eq_some_iff.mp rest
  cases pair
  have calls : TimerCalls a.link.timers link.timers := by
    split at torn
    · exact disconnect_calls torn
    · cases torn
      exact TimerCalls.refl _
  simp only
  split
  · exact calls
  · exact calls

/-- Every step of the agent calls the timer library for the reconnect timer only. -/
theorem step_calls {order : ByteOrder} {a after : Agent} {event : AgentEvent}
    (stepped : VmctAgent.step order a event = some after) :
    TimerCalls a.link.timers after.link.timers := by
  cases event <;>
    simp only [VmctAgent.step, Option.ite_none_right_eq_some, Option.map_eq_some_iff] at stepped
  case tcpOpen opened =>
    obtain ⟨_, link, done, rfl⟩ := stepped
    obtain ⟨_, _, timers, _, _⟩ := tcpOpen_cases done
    have same : ({ a with link }.enter .tcpRcvTask .opened).link.timers = a.link.timers := timers
    rw [same]
    exact TimerCalls.refl _
  case tcpOpened clock =>
    obtain ⟨_, link, done, rfl⟩ := stepped
    exact tcpOpened_calls done
  case tcpSend task sndbuf env =>
    obtain ⟨_, result, _, rfl⟩ := stepped
    exact TimerCalls.refl _
  case clear task clock =>
    obtain ⟨_, link, done, rfl⟩ := stepped
    exact clearLink_calls done
  case reopen task opened =>
    obtain ⟨_, link, done, rfl⟩ := stepped
    obtain ⟨_, _, timers, _, _⟩ := tcpOpen_cases done
    have same : ({ a with link }.enter task .reopened).link.timers = a.link.timers := timers
    rw [same]
    exact TimerCalls.refl _
  case reopened task =>
    obtain ⟨_, same⟩ := stepped
    split at same
    · cases same
      exact TimerCalls.refl _
    · cases same
      exact TimerCalls.refl _
  case tcpRecv events clock => exact receiveStep_calls stepped.2
  case heartbeat clock =>
    obtain ⟨_, link, done, rfl⟩ := stepped
    exact heartbeat_calls done
  case expire k gettimeofday posted =>
    obtain ⟨⟨timers, fired⟩, visited, rfl⟩ := Option.map_eq_some_iff.mp stepped
    apply timerCalls_one (.expire k gettimeofday)
    · rw [Timer.step, visited]
      rfl
    · intro call same
      cases same
  case tmrCmd =>
    split at stepped
    · cases stepped
      unfold tmrCmdStep
      split
      · exact TimerCalls.refl _
      · exact TimerCalls.refl _
    · cases stepped
  case tcpReconnect opened clock =>
    obtain ⟨_, link, done, rfl⟩ := stepped
    exact tcpReconnect_calls done
  all_goals
    obtain ⟨_, same⟩ := stepped
    cases same
    exact TimerCalls.refl _

end TimerCalls

section Reconnects

variable {s next : Timer.State}

/-- The timers of the agent: all of them are reconnect timers of `tmr_expire_func`. -/
structure Reconnects (timers : Timer.State) : Prop where
  sound : Timer.Sound timers
  max : timers.maxTmrNum = maxTmrNum
  each : ∀ ent ∈ timers.list, ent.arg1 = tmrTcpReconnectMsg ∧ ent.action = some .tmrExpireFunc

theorem init_reconnects : Reconnects AgentLink.init.timers where
  sound := init_linkInv.sound
  max := rfl
  each := nofun

theorem timerStart_list {call : StartCall} {ret : Int} (queue : call.type = tmrMsgqueue)
    (started : timerStart s call = some (ret, next)) {ent : TimerRecord}
    (member : ent ∈ next.list) :
    ent ∈ s.list ∨ ent.arg1 = call.arg1 ∧ ent.action = some .tmrExpireFunc := by
  unfold timerStart at started
  split at started
  · cases started
    exact Or.inl member
  split at started
  · cases started
    exact Or.inl member
  obtain ⟨⟨idx, tids⟩, _, same⟩ := Option.map_eq_some_iff.mp started
  by_cases valid : idx = -1
  · simp only [if_pos valid] at same
    cases same
    exact Or.inl member
  · simp only [if_neg valid, insertTimerList] at same
    split at same
    · split at same
      · cases same
        exact Or.inl member
      · cases same
        rcases List.mem_append.mp member with old | new
        · exact Or.inl old
        · rw [List.mem_singleton.mp new]
          exact Or.inr ⟨rfl, rfl⟩
    · cases same
      exact Or.inl member

theorem timerStop_list (sound : Timer.Sound s) {timerId ret : Int} {mode : StopMode}
    (stopped : timerStop s timerId mode = some (ret, next)) {ent : TimerRecord}
    (member : ent ∈ next.list) : ent ∈ s.list := by
  rcases timerStop_spec sound timerId mode with
    ⟨before, record, after, tids, list, _, done, _, _⟩ | ⟨_, unchanged⟩
  · cases done.symm.trans stopped
    rw [list]
    exact (List.mem_append.mp member).elim (List.mem_append_left _)
      fun late => List.mem_append_right _ (List.mem_cons_of_mem _ late)
  · cases unchanged.symm.trans stopped
    exact member

/-- A reset keeps what a timer is for. -/
theorem resetTimerList_each {P : Int32 → Option Action → Prop} {id : Int} {period : Int32}
    {tp : Timeval} {list : List TimerRecord} (each : ∀ ent ∈ list, P ent.arg1 ent.action) :
    ∀ ent ∈ resetTimerList id period tp list, P ent.arg1 ent.action := by
  induction list with
  | nil => exact each
  | cons first rest ih =>
      rw [List.forall_mem_cons] at each
      unfold resetTimerList
      split
      · rw [List.forall_mem_cons]
        exact each
      · rw [List.forall_mem_cons]
        exact ⟨each.1, ih each.2⟩

theorem timerReset_each {P : Int32 → Option Action → Prop} {timerId : Int} {msecs : Int32}
    {gettimeofday : Option Timeval} (each : ∀ ent ∈ s.list, P ent.arg1 ent.action) :
    ∀ ent ∈ (timerReset s timerId msecs gettimeofday).2.list, P ent.arg1 ent.action := by
  unfold timerReset
  split
  · exact each
  split
  · exact each
  simp only
  split
  · split
    · exact each
    · exact resetTimerList_each each
  · exact each

theorem step_reconnects {event : Timer.Event} (inv : Reconnects s)
    (start : ∀ call, event = .start call →
      call.arg1 = tmrTcpReconnectMsg ∧ call.type = tmrMsgqueue)
    (stepped : Timer.step s event = some next) : Reconnects next := by
  obtain ⟨sound, max⟩ := step_sound inv.sound stepped
  refine ⟨sound, max.trans inv.max, ?_⟩
  cases event with
  | start call =>
      obtain ⟨⟨ret, after⟩, started, rfl⟩ := Option.map_eq_some_iff.mp stepped
      obtain ⟨arg1, queue⟩ := start call rfl
      intro ent member
      rcases timerStart_list queue started member with old | new
      · exact inv.each ent old
      · rwa [arg1] at new
  | stop timerId mode =>
      obtain ⟨⟨ret, after⟩, stopped, rfl⟩ := Option.map_eq_some_iff.mp stepped
      exact fun ent member => inv.each ent (timerStop_list inv.sound stopped member)
  | reset timerId msecs gettimeofday =>
      cases stepped
      exact timerReset_each
        (P := fun arg1 action => arg1 = tmrTcpReconnectMsg ∧ action = some .tmrExpireFunc) inv.each
  | expire k gettimeofday =>
      obtain ⟨⟨after, fired⟩, visited, rfl⟩ := Option.map_eq_some_iff.mp stepped
      rcases (cmpTimerValue_cases visited).2 with rfl | ⟨id, ret, stopped⟩
      · exact inv.each
      · exact fun ent member => inv.each ent (timerStop_list inv.sound stopped member)

theorem TimerCalls.reconnects (calls : TimerCalls s next) (inv : Reconnects s) :
    Reconnects next := by
  obtain ⟨events, reached, each⟩ := calls
  apply run_invariant_of Reconnects _ inv _ reached
  · exact fun _ event => ∀ call, event = .start call →
      call.arg1 = tmrTcpReconnectMsg ∧ call.type = tmrMsgqueue
  · exact fun _ _ _ before start stepped => step_reconnects before start stepped
  · apply allSteps_of_forall
    intro event member call same
    exact each call (same ▸ member)

/-- The timer that fires is one of the list. -/
theorem cmpTimerValue_fired {k : Nat} {gettimeofday : Option Timeval} {ent : TimerRecord}
    (visited : cmpTimerValue s k gettimeofday = some (next, some ent)) : ent ∈ s.list := by
  unfold cmpTimerValue at visited
  split at visited
  · cases visited
  rename_i first here
  have member : first ∈ s.list := List.mem_of_getElem? here
  split at visited
  · cases visited
  split at visited
  · split at visited
    · split at visited
      · cases visited
        exact member
      · obtain ⟨_, _, same⟩ := Option.map_eq_some_iff.mp visited
        cases same
        exact member
    · cases visited
  · cases visited

theorem Reconnects.id_bounds (inv : Reconnects s) {ent : TimerRecord} (member : ent ∈ s.list) :
    1 ≤ ent.id ∧ ent.id ≤ maxTmrNum := by
  obtain ⟨free, leaked, used, owns⟩ := inv.sound
  rw [← inv.max]
  apply owns.ids_valid
  exact List.mem_append_left _ (List.mem_map_of_mem member)

end Reconnects

section Runs

variable {order : ByteOrder} {msgQid : Int32}

/-- A message that `tmr_expire_func` wrote for a timer. -/
def Carries (order : ByteOrder) (msgQid : Int32) (message : Message) (tmBuf : TmrExpire) : Prop :=
  ∃ padding, tmrExpireFunc order msgQid tmBuf padding = some message

/-- The messages in the queue are those of the agent's own queue, all of them for
reconnect timers. -/
structure Shows (order : ByteOrder) (msgQid : Int32) (s : IpcAgent) (a : Agent) : Prop where
  agent : s.agent = { a with tmrCmdQ := [] }
  queue : List.Forall₂ (Carries order msgQid) s.queue a.tmrCmdQ
  timers : Reconnects a.link.timers
  each : ∀ tmrMsg ∈ a.tmrCmdQ, tmrMsg.argc1 = tmrTcpReconnectMsg ∧ 1 ≤ tmrMsg.timerId ∧
    tmrMsg.timerId ≤ maxTmrNum

/-- The other steps neither look at the queue nor change it. -/
theorem step_frame {a next : Agent} {event : AgentEvent} (queue : List TmrExpire)
    (expires : ∀ k gettimeofday posted, event ≠ .expire k gettimeofday posted)
    (commands : event ≠ .tmrCmd) (stepped : VmctAgent.step order a event = some next) :
    VmctAgent.step order { a with tmrCmdQ := queue } event =
        some { next with tmrCmdQ := queue } ∧ next.tmrCmdQ = a.tmrCmdQ := by
  cases event <;>
    simp only [VmctAgent.step, Option.ite_none_right_eq_some, Option.map_eq_some_iff] at stepped ⊢
  case tcpRecv events clock =>
    obtain ⟨ready, received⟩ := stepped
    obtain ⟨⟨link, result⟩, done, rfl⟩ := Option.map_eq_some_iff.mp received
    refine ⟨⟨ready, ?_⟩, rfl⟩
    simp only [receiveStep, done, Option.map_some]
  case expire k gettimeofday posted => exact absurd rfl (expires k gettimeofday posted)
  case tmrCmd => exact absurd rfl commands
  case reopened task =>
    obtain ⟨ready, same⟩ := stepped
    split at same
    · rename_i live
      cases same
      exact ⟨⟨ready, if_pos live⟩, rfl⟩
    · rename_i dead
      cases same
      exact ⟨⟨ready, if_neg dead⟩, rfl⟩
  case sendProcStateReq task =>
    obtain ⟨ready, same⟩ := stepped
    cases same
    exact ⟨⟨ready, rfl⟩, rfl⟩
  case disconnect task =>
    obtain ⟨ready, same⟩ := stepped
    cases same
    exact ⟨⟨ready, rfl⟩, rfl⟩
  case close task =>
    obtain ⟨ready, same⟩ := stepped
    cases same
    exact ⟨⟨ready, rfl⟩, rfl⟩
  all_goals
    obtain ⟨ready, result, done, rfl⟩ := stepped
    exact ⟨⟨ready, result, done, rfl⟩, rfl⟩

/-- The step of the agent with its own queue. -/
def IpcEvent.plain : IpcEvent → List AgentEvent
  | .agent event => [event]
  | .expire k gettimeofday posted _ => [.expire k gettimeofday posted]
  | .tmrCmd => [.tmrCmd]
  | .tmrCmdFails _ => []

theorem tcpReconnectMsg_queue (a : Agent) (tmrMsg : TmrExpire) (queue : List TmrExpire) :
    tcpReconnectMsg { a with tmrCmdQ := queue } tmrMsg =
      { tcpReconnectMsg a tmrMsg with tmrCmdQ := queue } := by
  unfold tcpReconnectMsg
  split
  · rfl
  · rfl

theorem tcpReconnectMsg_timers (a : Agent) (tmrMsg : TmrExpire) :
    (tcpReconnectMsg a tmrMsg).link.timers = a.link.timers := by
  unfold tcpReconnectMsg
  split
  · rfl
  · rfl

theorem tmrCmdStep_reconnect {a : Agent} {tmrMsg : TmrExpire}
    (argc1 : tmrMsg.argc1 = tmrTcpReconnectMsg) (queue : List TmrExpire) :
    tmrCmdStep a tmrMsg queue = { tcpReconnectMsg a tmrMsg with tmrCmdQ := queue } := by
  simp only [tmrCmdStep, argc1, true_and, tcpReconnectMsg]
  split
  · rfl
  · rfl

/-- A visit of the timer thread posts what the agent's own queue gets. -/
theorem expire_shows {s next : IpcAgent} {a : Agent} {k : Nat} {gettimeofday : Option Timeval}
    {posted : Bool} {padding : Bytes 4} (shows : Shows order msgQid s a)
    (stepped : expireStep order msgQid s k gettimeofday posted padding = some next) :
    ∃ after, VmctAgent.step order a (.expire k gettimeofday posted) = some after ∧
      Shows order msgQid next after := by
  obtain ⟨⟨timers, fired⟩, visited, rfl⟩ := Option.map_eq_some_iff.mp stepped
  simp only [shows.agent] at visited
  have calls : TimerCalls a.link.timers timers := by
    apply timerCalls_one (.expire k gettimeofday)
    · rw [Timer.step, visited]
      rfl
    · intro call same
      cases same
  have kept := calls.reconnects shows.timers
  refine ⟨_, by rw [VmctAgent.step, VmctAgent.expireStep, visited]; rfl, ?_⟩
  cases fired with
  | none => exact ⟨by simp only [shows.agent], shows.queue, kept, shows.each⟩
  | some ent =>
      have listed := cmpTimerValue_fired visited
      obtain ⟨arg1, action⟩ := shows.timers.each ent listed
      cases posted with
      | false =>
          simp only [action]
          exact ⟨by simp only [shows.agent], shows.queue, kept, shows.each⟩
      | true =>
          have positive : 0 < ent.arg1.toInt64.toInt := by
            rw [arg1]
            decide
          obtain ⟨message, sent⟩ : ∃ message, tmrExpireFunc order msgQid
              ⟨ent.id, ent.arg1, ent.arg2, ent.arg3⟩ padding = some message :=
            ⟨_, dif_pos positive⟩
          simp only [action, sent, Option.toList_some]
          refine ⟨by simp only [shows.agent], ?_, kept, fun tmrMsg member => ?_⟩
          · exact List.rel_append shows.queue (List.Forall₂.cons ⟨padding, sent⟩ .nil)
          · rcases List.mem_append.mp member with old | new
            · exact shows.each tmrMsg old
            · rw [List.mem_singleton.mp new]
              exact ⟨arg1, shows.timers.id_bounds listed⟩

/-- `TmrCmdTask` takes the next message as it was written, and handles it. -/
theorem tmrCmd_shows {s next : IpcAgent} {a : Agent} (opened : ¬ msgQid < 0)
    (shows : Shows order msgQid s a) (free : s.agent.reconnecting = false)
    (stepped : tmrCmdTask order msgQid s (.queue s.queue) = some next) :
    ∃ after, VmctAgent.step order a .tmrCmd = some after ∧ Shows order msgQid next after := by
  obtain ⟨report, received, rfl⟩ := Option.map_eq_some_iff.mp stepped
  have queue := shows.queue
  generalize waiting : a.tmrCmdQ = tmrCmdQ at queue
  generalize s.queue = messages at queue received
  cases queue with
  | nil => simp [ipcRecv, opened, msgrcv] at received
  | @cons message tmrMsg rest others carries queue =>
      obtain ⟨padding, sent⟩ := carries
      obtain ⟨argc1, low, high⟩ := shows.each tmrMsg (by rw [waiting]; exact List.mem_cons_self)
      obtain ⟨after, taken, read⟩ :=
        ipcRecv_tmrExpire sent (by omega) high opened s.ipcBuf rest (.queue (message :: rest))
      cases taken.symm.trans received
      have idle : a.reconnecting = false := by simpa only [shows.agent] using free
      have stepped : VmctAgent.step order a .tmrCmd = some (tmrCmdStep a tmrMsg others) := by
        simp only [VmctAgent.step, idle, waiting]
      have later (other : TmrExpire) (member : other ∈ others) :
          other.argc1 = tmrTcpReconnectMsg ∧ 1 ≤ other.timerId ∧ other.timerId ≤ maxTmrNum := by
        apply shows.each other
        rw [waiting]
        exact List.mem_cons_of_mem _ member
      refine ⟨_, stepped, ?_⟩
      have other : ¬ tmrTcpReconnectMsg = -1 := by decide
      simp only [argc1, other, if_false, if_true, Option.getD_some, read, Option.isSome_some,
        List.tail_cons, tmrCmdStep_reconnect argc1, shows.agent, tcpReconnectMsg_queue]
      refine ⟨rfl, queue, ?_, later⟩
      simp only [tcpReconnectMsg_timers]
      exact shows.timers

/-- A receive that fails takes nothing out of the queue. -/
theorem tmrCmdFails_shows {s next : IpcAgent} {a : Agent} {errno : Errno}
    (shows : Shows order msgQid s a) (fits : errno ≠ .e2big)
    (stepped : tmrCmdTask order msgQid s (.error errno) = some next) :
    Shows order msgQid next a := by
  obtain ⟨report, received, rfl⟩ := Option.map_eq_some_iff.mp stepped
  have failed : report = ⟨-1, some s.ipcBuf, none, none⟩ := by
    unfold ipcRecv at received
    split at received
    · cases received
      rfl
    · simp only [msgrcv] at received
      cases errno with
      | e2big => exact absurd rfl fits
      | _ =>
          cases received
          rfl
  subst failed
  exact ⟨shows.agent, shows.queue, shows.timers, shows.each⟩

/-- Every step is that of the agent with its own queue. -/
theorem step_shows {s next : IpcAgent} {a : Agent} {event : IpcEvent} (opened : ¬ msgQid < 0)
    (shows : Shows order msgQid s a) (stepped : step order msgQid s event = some next) :
    ∃ after, run (VmctAgent.step order) a event.plain = some after ∧
      Shows order msgQid next after := by
  have agent {event : AgentEvent}
      (expires : ∀ k gettimeofday posted, event ≠ .expire k gettimeofday posted)
      (commands : event ≠ .tmrCmd)
      (stepped : (VmctAgent.step order s.agent event).map (fun agent => { s with agent }) =
        some next) :
      ∃ after, run (VmctAgent.step order) a [event] = some after ∧
        Shows order msgQid next after := by
    obtain ⟨moved, done, rfl⟩ := Option.map_eq_some_iff.mp stepped
    obtain ⟨whole, same⟩ := step_frame a.tmrCmdQ expires commands done
    simp only [shows.agent] at whole same
    refine ⟨{ moved with tmrCmdQ := a.tmrCmdQ }, ?_, ?_⟩
    · rw [run_singleton]
      exact whole
    · refine ⟨?_, shows.queue, (step_calls whole).reconnects shows.timers, shows.each⟩
      simp only [← same]
  cases event with
  | agent event =>
      cases event with
      | expire k gettimeofday posted => cases stepped
      | tmrCmd => cases stepped
      | _ => exact agent nofun nofun stepped
  | expire k gettimeofday posted padding =>
      obtain ⟨after, here, kept⟩ := expire_shows shows stepped
      refine ⟨after, ?_, kept⟩
      rw [IpcEvent.plain, run_singleton]
      exact here
  | tmrCmd =>
      simp only [step] at stepped
      split at stepped
      · cases stepped
      · rename_i free
        obtain ⟨after, here, kept⟩ := tmrCmd_shows opened shows (by simpa using free) stepped
        refine ⟨after, ?_, kept⟩
        rw [IpcEvent.plain, run_singleton]
        exact here
  | tmrCmdFails errno =>
      simp only [step] at stepped
      split at stepped
      · cases stepped
      · rename_i fits
        exact ⟨a, rfl, tmrCmdFails_shows shows (fun large => fits (Or.inr large)) stepped⟩

theorem init_shows (order : ByteOrder) (msgQid : Int32) (ipcBuf : IpcMsgStruct) :
    Shows order msgQid (.init ipcBuf) .init where
  agent := rfl
  queue := .nil
  timers := init_reconnects
  each := nofun

/-- Whatever is in the buffer of `TmrCmdTask` and in the padding of the messages, and
whichever receives fail, the agent over the message queue does what the agent with a
list of expired timers does: the messages in the queue are those of the list, all of
reconnect timers, and the next one that `ipcRecv` takes is the first, as it was written. -/
theorem run_ipc {tmrCmdQid : Int32} (opened : ¬ tmrCmdQid < 0) {ipcBuf : IpcMsgStruct}
    {events : List IpcEvent} {final : IpcAgent}
    (reached : run (step order tmrCmdQid) (.init ipcBuf) events = some final) :
    ∃ a, run (VmctAgent.step order) .init (events.flatMap IpcEvent.plain) = some a ∧
      final.agent = { a with tmrCmdQ := [] } ∧ final.queue.length = a.tmrCmdQ.length ∧
      (∀ tmrMsg ∈ a.tmrCmdQ, tmrMsg.argc1 = tmrTcpReconnectMsg ∧ 1 ≤ tmrMsg.timerId ∧
        tmrMsg.timerId ≤ maxTmrNum) ∧
      ∀ tmrMsg others, a.tmrCmdQ = tmrMsg :: others →
        ∃ message after, ipcRecv order tmrCmdQid (some final.ipcBuf) ⟨false, false⟩
            (.queue final.queue) (.queue final.queue) =
          some ⟨tmrTcpReconnectMsg, some after, some message, some message⟩ ∧
          tmrExpireAt order after = tmrMsg := by
  obtain ⟨a, shown, shows⟩ := run_translated IpcEvent.plain (Shows order tmrCmdQid)
    (fun _ _ _ _ before stepped => step_shows opened before stepped)
    (init_shows order tmrCmdQid ipcBuf) reached
  refine ⟨a, shown, shows.agent, shows.queue.length_eq, shows.each, ?_⟩
  intro tmrMsg others waiting
  obtain ⟨argc1, low, high⟩ := shows.each tmrMsg (by rw [waiting]; exact List.mem_cons_self)
  have queue := shows.queue
  rw [waiting] at queue
  generalize final.queue = messages at queue
  cases queue with
  | @cons message _ rest _ carries _ =>
      obtain ⟨padding, sent⟩ := carries
      obtain ⟨after, taken, read⟩ :=
        ipcRecv_tmrExpire sent (by omega) high opened final.ipcBuf rest (.queue (message :: rest))
      refine ⟨message, after, ?_, read⟩
      rw [taken, argc1]

/-- The link does not open, and its timer expires. -/
def sampleRun : List IpcEvent :=
  [.agent (.tcpOpen (-1)), .agent (.tcpOpened (clockAt 0)), .tmrCmdFails .other,
    .expire 0 (some ⟨2, 0⟩) true (.zero 4)]

theorem sampleRun_reached :
    ∃ final, run (step .little 0) (.init emptyStruct) sampleRun = some final ∧
      final.queue.length = 1 :=
  exists_of_any (by decide +kernel)

theorem run_ipc_sample :
    ∃ final a, run (step .little 0) (.init emptyStruct) sampleRun = some final ∧
      run (VmctAgent.step .little) .init (sampleRun.flatMap IpcEvent.plain) = some a ∧
      a.tmrCmdQ.length = 1 := by
  obtain ⟨final, reached, queued⟩ := sampleRun_reached
  obtain ⟨a, shown, _, same, _⟩ := run_ipc (by decide) reached
  exact ⟨final, a, reached, shown, same.symm.trans queued⟩

end Runs

end VnfMonitoring.VmctIpc
