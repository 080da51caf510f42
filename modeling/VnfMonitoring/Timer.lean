import VnfMonitoring.TimerIds
import VnfMonitoring.Lib.Runs

set_option autoImplicit false

/- The timer library `timer.c`: the list of running timers over the id allocator.
Every operation is one section under `time_mutex`. -/
namespace VnfMonitoring.Timer

open VnfMonitoring.TimerIds VnfMonitoring.Runs

def tmrCallback : Int32 := 1

def tmrSocket : Int32 := 2

def tmrMsgqueue : Int32 := 3

def tmrRepeat : Int32 := 0x1001

/-- The mode of `timer_stop`: whether the caller already holds `time_mutex`. -/
inductive StopMode where
  | stackUsed
  | timerUsed
  deriving DecidableEq, Repr

structure Timeval where
  tvSec : Int
  tvUsec : Int
  deriving DecidableEq, Repr

/-- A callback: `tmr_expire_func`, or a function of the caller. -/
inductive Action where
  | tmrExpireFunc
  | callback (entry : Nat)
  deriving DecidableEq, Repr

/-- A record of the timer list. -/
structure TimerRecord where
  id : Int
  period : Int32
  tvSec : Int32
  tvUsec : Int32
  arg1 : Int32
  arg2 : Int32
  arg3 : Int32
  action : Option Action
  deriving DecidableEq, Repr

structure State where
  maxTmrNum : Nat
  tids : Tids
  list : List TimerRecord
  deriving DecidableEq, Repr

/-- `timer_init`, absent when it returns -1; its allocations succeed. -/
def timerInit (maxTmr : Nat) : Option State :=
  if maxTmr < 1 then none else some ⟨maxTmr, funcInitTid maxTmr, []⟩

def searchTimerList (list : List TimerRecord) (id : Int) : Option TimerRecord :=
  list.find? fun record => record.id = id

def deleteTimerList (list : List TimerRecord) (id : Int) : Int × List TimerRecord :=
  if id ≤ 0 then (-1, list)
  else
    match searchTimerList list id with
    | some _ => (0, list.eraseP fun record => record.id = id)
    | none => (-1, list)

/-- The arguments of `timer_start`, with what `malloc` and `gettimeofday` do inside. -/
structure StartCall where
  msecs : Int32
  callback : Option Action
  arg1 : Int32
  arg2 : Int32
  arg3 : Int32
  type : Int32
  mallocOk : Bool
  gettimeofday : Option Timeval
  deriving DecidableEq, Repr

def insertTimerList (list : List TimerRecord) (id : Int) (period : Int32)
    (callback : Option Action) (call : StartCall) : Int × List TimerRecord :=
  if call.mallocOk then
    match call.gettimeofday with
    | none => (-1, list)
    | some tp =>
        (0, list ++ [{ id, period, tvSec := Int32.ofInt tp.tvSec, tvUsec := Int32.ofInt tp.tvUsec,
                       arg1 := call.arg1, arg2 := call.arg2, arg3 := call.arg3,
                       action := callback }])
  else (-1, list)

def periodOf (msecs : Int32) : Int32 := msecs / 1000 * 1000000 + msecs % 1000 * 1000

def timerStart (s : State) (call : StartCall) : Option (Int × State) :=
  if call.msecs < 0 then some (-1, s)
  else if call.type = tmrCallback ∧ call.callback = none then some (-1, s)
  else
    let period := periodOf call.msecs
    (funcAssignTid s.tids).map fun (idx, tids) =>
      let s := { s with tids }
      if idx = -1 then (-1, s)
      else if call.type = tmrMsgqueue then
        let (ret, list) := insertTimerList s.list idx period (some .tmrExpireFunc) call
        if ret < 0 then (-1, { s with list }) else (idx, { s with list })
      else if call.type = tmrSocket then (idx, s)
      else
        let (ret, list) := insertTimerList s.list idx period call.callback call
        if ret < 0 then (-1, { s with list }) else (idx, { s with list })

/-- `timer_stop`; the mode only says who takes the mutex. -/
def timerStop (s : State) (timerId : Int) (_mode : StopMode) : Option (Int × State) :=
  if timerId < 1 ∨ timerId > s.maxTmrNum then some (-1, s)
  else
    let (ret, list) := deleteTimerList s.list timerId
    if ret < 0 then some (-1, { s with list })
    else
      (funcCancelTid s.tids timerId).map fun (ret, tids) =>
        if ret = -1 then (-1, { s with list, tids }) else (0, { s with list, tids })

/-- The update of the first record with an id in `timer_reset`. -/
def resetTimerList (id : Int) (period : Int32) (tp : Timeval) :
    List TimerRecord → List TimerRecord
  | [] => []
  | s :: rest =>
      if s.id = id then
        { s with id, period, tvSec := Int32.ofInt tp.tvSec, tvUsec := Int32.ofInt tp.tvUsec } :: rest
      else s :: resetTimerList id period tp rest

def timerReset (s : State) (timerId : Int) (msecs : Int32) (gettimeofday : Option Timeval) :
    Int × State :=
  if timerId < 1 ∨ timerId > s.maxTmrNum then (-1, s)
  else if msecs < 0 then (-1, s)
  else
    let period := if msecs ≠ 0 then periodOf msecs else 0
    match searchTimerList s.list timerId with
    | some _ =>
        match gettimeofday with
        | none => (-1, s)
        | some tp => (0, { s with list := resetTimerList timerId period tp s.list })
    | none => (0, s)

/-- The elapsed microseconds `cmp_timer_value` compares with the period: the
differences are computed in `long` and assigned to an `int`. -/
def elapsedUsecs (ent : TimerRecord) (tp : Timeval) : Int32 :=
  let tvUsec := tp.tvUsec + 10000
  if tp.tvSec > ent.tvSec.toInt then
    let usecs := Int32.ofInt ((tp.tvSec - (ent.tvSec + 1).toInt) * 1000000)
    Int32.ofInt (usecs.toInt + ((1000000 - ent.tvUsec).toInt + tvUsec))
  else Int32.ofInt (tvUsec - ent.tvUsec.toInt)

/-- The section in which `cmp_timer_value` looks at the `k`th record, with the
record whose action it runs. Before it resets a repeating timer it gives the
mutex up, so that reset is a step of its own. -/
def cmpTimerValue (s : State) (k : Nat) (gettimeofday : Option Timeval) :
    Option (State × Option TimerRecord) :=
  match s.list[k]? with
  | none => none
  | some ent =>
      match gettimeofday with
      | none => some (s, none)
      | some tp =>
          if elapsedUsecs ent tp > ent.period then
            match ent.action with
            | some _ =>
                if ent.arg3 = tmrRepeat then some (s, some ent)
                else (timerStop s ent.id .timerUsed).map fun (_, next) => (next, some ent)
            | none => some (s, none)
          else some (s, none)

inductive Event where
  | start (call : StartCall)
  | stop (timerId : Int) (mode : StopMode)
  | reset (timerId : Int) (msecs : Int32) (gettimeofday : Option Timeval)
  | expire (k : Nat) (gettimeofday : Option Timeval)

def step (s : State) : Event → Option State
  | .start call => (timerStart s call).map Prod.snd
  | .stop timerId mode => (timerStop s timerId mode).map Prod.snd
  | .reset timerId msecs gettimeofday => some (timerReset s timerId msecs gettimeofday).2
  | .expire k gettimeofday => (cmpTimerValue s k gettimeofday).map Prod.fst

def State.ids (s : State) : List Int := s.list.map TimerRecord.id

/-- The ids are divided between the list, the free part of the table and the ids
that a failed insertion or a socket timer took without a record. -/
structure Owns (s : State) (free leaked : List Int) (used : List TidEntry) : Prop where
  table : Holds s.tids free used
  sameMax : s.tids.maxtnum = s.maxTmrNum
  divided : (s.ids ++ (free ++ leaked)).Perm (allIds s.maxTmrNum)

def Sound (s : State) : Prop := ∃ free leaked used, Owns s free leaked used

theorem timerInit_owns {maxTmr : Nat} {start : State} (started : timerInit maxTmr = some start) :
    (∃ free used, Owns start free [] used) ∧ start.maxTmrNum = maxTmr := by
  unfold timerInit at started
  split at started
  · cases started
  · rename_i positive
    cases started
    refine ⟨⟨allIds maxTmr, [], funcInitTid_holds (by omega), rfl, ?_⟩, rfl⟩
    simp [State.ids]

theorem timerInit_sound {maxTmr : Nat} {start : State} (started : timerInit maxTmr = some start) :
    Sound start ∧ start.maxTmrNum = maxTmr := by
  obtain ⟨⟨free, used, owns⟩, sameMax⟩ := timerInit_owns started
  exact ⟨⟨free, [], used, owns⟩, sameMax⟩

theorem Owns.nodup {s : State} {free leaked : List Int} {used : List TidEntry}
    (owns : Owns s free leaked used) : (s.ids ++ (free ++ leaked)).Nodup :=
  owns.divided.nodup_iff.mpr (allIds_nodup s.maxTmrNum)

theorem Owns.ids_valid {s : State} {free leaked : List Int} {used : List TidEntry}
    (owns : Owns s free leaked used) {id : Int} (member : id ∈ s.ids ++ (free ++ leaked)) :
    1 ≤ id ∧ id ≤ s.maxTmrNum :=
  mem_allIds.mp (owns.divided.mem_iff.mp member)

/-- There are no more timers than ids. -/
theorem Sound.length_le {s : State} (sound : Sound s) : s.list.length ≤ s.maxTmrNum := by
  obtain ⟨free, leaked, used, owns⟩ := sound
  have ids := owns.divided.length_eq
  simp only [State.ids, List.length_append, List.length_map, allIds, List.length_range] at ids
  omega

/-- Every timer on the list is paid for by an assigned cell of the table. -/
theorem Owns.used_length {s : State} {free leaked : List Int} {used : List TidEntry}
    (owns : Owns s free leaked used) : used.length = s.list.length + leaked.length := by
  have total := owns.table.total
  have ids := owns.divided.length_eq
  simp only [State.ids, List.length_append, List.length_map, allIds, List.length_range] at ids
  rw [owns.sameMax] at total
  omega

/-- The call gets past the checks of its arguments. -/
def StartCall.Accepted (call : StartCall) : Prop :=
  ¬ call.msecs < 0 ∧ ¬ (call.type = tmrCallback ∧ call.callback = none)

/-- The call puts a record on the list once it has an id. -/
def StartCall.Inserts (call : StartCall) : Prop :=
  call.type ≠ tmrSocket ∧ call.mallocOk = true ∧ call.gettimeofday.isSome

instance (call : StartCall) : Decidable call.Accepted := inferInstanceAs (Decidable (_ ∧ _))

instance (call : StartCall) : Decidable call.Inserts := inferInstanceAs (Decidable (_ ∧ _))

/-- The record waits these milliseconds from this time on. -/
structure TimerRecord.ArmedFor (record : TimerRecord) (msecs : Int32) (tp : Timeval) : Prop where
  period : record.period = periodOf msecs
  tvSec : record.tvSec = Int32.ofInt tp.tvSec
  tvUsec : record.tvUsec = Int32.ofInt tp.tvUsec

theorem timerStart_refused {s : State} {call : StartCall} (refused : ¬ call.Accepted) :
    timerStart s call = some (-1, s) := by
  unfold timerStart
  split
  · rfl
  split
  · rfl
  · exact absurd ⟨by assumption, by assumption⟩ refused

theorem timerStart_noId {s : State} {call : StartCall} {tids : Tids}
    (accepted : call.Accepted) (assigned : funcAssignTid s.tids = some (-1, tids)) :
    timerStart s call = some (-1, { s with tids }) := by
  rw [timerStart, if_neg accepted.1, if_neg accepted.2, assigned]
  simp

theorem insertTimerList_cases (list : List TimerRecord) (id : Int) (callback : Option Action)
    (call : StartCall) :
    (¬ (call.mallocOk = true ∧ call.gettimeofday.isSome) ∧
        insertTimerList list id (periodOf call.msecs) callback call = (-1, list)) ∨
      ((call.mallocOk = true ∧ call.gettimeofday.isSome) ∧ ∃ record : TimerRecord,
        record.id = id ∧ (∀ tp ∈ call.gettimeofday, record.ArmedFor call.msecs tp) ∧
        insertTimerList list id (periodOf call.msecs) callback call = (0, list ++ [record])) := by
  unfold insertTimerList
  split
  · split
    · rename_i failed
      exact Or.inl ⟨by simp [failed], rfl⟩
    · rename_i allocated _ tp here
      refine Or.inr ⟨⟨allocated, by rw [here]; rfl⟩, _, rfl, fun other same => ?_, rfl⟩
      cases here.symm.trans same
      exact ⟨rfl, rfl, rfl⟩
  · rename_i failed
    exact Or.inl ⟨fun ok => failed ok.1, rfl⟩

/-- With an id, `timer_start` adds a record, hands the id out without one (`TMR_SOCKET`),
or fails and keeps the id. -/
theorem timerStart_taken {s : State} {call : StartCall} {id : Int} {tids : Tids}
    (accepted : call.Accepted) (assigned : funcAssignTid s.tids = some (id, tids))
    (valid : id ≠ -1) :
    (call.Inserts ∧ ∃ record : TimerRecord, record.id = id ∧
        (∀ tp ∈ call.gettimeofday, record.ArmedFor call.msecs tp) ∧
        timerStart s call = some (id, { s with tids, list := s.list ++ [record] })) ∨
      (¬ call.Inserts ∧ call.type = tmrSocket ∧ timerStart s call = some (id, { s with tids })) ∨
      (¬ call.Inserts ∧ call.type ≠ tmrSocket ∧
        timerStart s call = some (-1, { s with tids })) := by
  have entered (notSocket : call.type ≠ tmrSocket) (callback : Option Action)
      (branch : timerStart s call =
        let (ret, list) := insertTimerList s.list id (periodOf call.msecs) callback call
        some (if ret < 0 then (-1, { s with tids, list }) else (id, { s with tids, list }))) :
      (call.Inserts ∧ ∃ record : TimerRecord, record.id = id ∧
          (∀ tp ∈ call.gettimeofday, record.ArmedFor call.msecs tp) ∧
          timerStart s call = some (id, { s with tids, list := s.list ++ [record] })) ∨
        (¬ call.Inserts ∧ call.type ≠ tmrSocket ∧
          timerStart s call = some (-1, { s with tids })) := by
    rcases insertTimerList_cases s.list id callback call with
      ⟨failed, unchanged⟩ | ⟨works, record, same, armed, added⟩
    · rw [unchanged] at branch
      exact Or.inr ⟨fun inserts => failed inserts.2, notSocket, branch⟩
    · rw [added] at branch
      exact Or.inl ⟨⟨notSocket, works⟩, record, same, armed, branch⟩
  by_cases queue : call.type = tmrMsgqueue
  · have notSocket : call.type ≠ tmrSocket := by
      rw [queue]
      decide
    refine (entered notSocket (some .tmrExpireFunc) ?_).imp_right Or.inr
    rw [timerStart, if_neg accepted.1, if_neg accepted.2, assigned]
    simp only [Option.map_some, if_neg valid, if_pos queue]
  · by_cases socket : call.type = tmrSocket
    · refine Or.inr (Or.inl ⟨fun inserts => inserts.1 socket, socket, ?_⟩)
      rw [timerStart, if_neg accepted.1, if_neg accepted.2, assigned]
      simp only [Option.map_some, if_neg valid, if_neg queue, if_pos socket]
    · refine (entered socket call.callback ?_).imp_right Or.inr
      rw [timerStart, if_neg accepted.1, if_neg accepted.2, assigned]
      simp only [Option.map_some, if_neg valid, if_neg queue, if_neg socket]

/-- An id that was free is on the list or leaked once it is assigned. -/
theorem Owns.assigned {s : State} {id : Int} {free leaked : List Int} {used : List TidEntry}
    (owns : Owns s (id :: free) leaked used) {tids : Tids} (sameMax : tids.maxtnum = s.tids.maxtnum)
    (table : Holds tids free (used ++ [⟨true, id⟩])) :
    Owns { s with tids } free (id :: leaked) (used ++ [⟨true, id⟩]) ∧
      ∀ record : TimerRecord, record.id = id →
        Owns { s with tids, list := s.list ++ [record] } free leaked (used ++ [⟨true, id⟩]) := by
  refine ⟨⟨table, sameMax.trans owns.sameMax, ?_⟩, fun record same =>
    ⟨table, sameMax.trans owns.sameMax, ?_⟩⟩
  · refine List.Perm.trans (List.Perm.append_left _ ?_) owns.divided
    exact List.perm_middle
  · refine List.Perm.trans ?_ owns.divided
    simp only [State.ids, List.map_append, List.map_singleton, same, List.append_assoc]
    exact List.Perm.refl _

/-- `timer_start` refuses the call and changes nothing, or it takes the first free id and
puts a record with it on the list, or the id leaks. -/
theorem Owns.started {s : State} {free leaked : List Int} {used : List TidEntry}
    (owns : Owns s free leaked used) (call : StartCall) :
    ((call.Accepted → free = []) ∧ timerStart s call = some (-1, s)) ∨
      ∃ id rest tids, call.Accepted ∧ free = id :: rest ∧ id ≠ -1 ∧ id ∉ s.ids ∧
        ((call.Inserts ∧ ∃ record : TimerRecord, record.id = id ∧
            timerStart s call = some (id, { s with tids, list := s.list ++ [record] }) ∧
            Owns { s with tids, list := s.list ++ [record] } rest leaked (used ++ [⟨true, id⟩])) ∨
          (¬ call.Inserts ∧ (∃ ret, (ret = id ∨ ret = -1) ∧
              timerStart s call = some (ret, { s with tids })) ∧
            Owns { s with tids } rest (id :: leaked) (used ++ [⟨true, id⟩]))) := by
  by_cases accepted : call.Accepted
  · cases free with
    | nil =>
        exact Or.inl ⟨fun _ => rfl, timerStart_noId accepted (funcAssignTid_empty owns.table)⟩
    | cons id rest =>
        obtain ⟨tids, assigned, sameMax, table⟩ := funcAssignTid_holds owns.table
        obtain ⟨dropped, inserted⟩ := owns.assigned sameMax table
        have fresh : id ∉ s.ids := fun member =>
          List.disjoint_of_nodup_append owns.nodup member (by simp)
        have valid : id ≠ -1 := by
          have := owns.ids_valid (show id ∈ s.ids ++ (id :: rest ++ leaked) by simp)
          omega
        refine Or.inr ⟨id, rest, tids, accepted, rfl, valid, fresh, ?_⟩
        rcases timerStart_taken accepted assigned valid with
          ⟨inserts, record, same, _, done⟩ | ⟨refused, _, done⟩ | ⟨refused, _, done⟩
        · exact Or.inl ⟨inserts, record, same, done, inserted record same⟩
        · exact Or.inr ⟨refused, ⟨id, Or.inl rfl, done⟩, dropped⟩
        · exact Or.inr ⟨refused, ⟨-1, Or.inr rfl, done⟩, dropped⟩
  · exact Or.inl ⟨fun here => absurd here accepted, timerStart_refused accepted⟩

/-- `timer_start` returns -1 or an id that no timer of the list has. -/
theorem timerStart_spec {s : State} (sound : Sound s) (call : StartCall) :
    ∃ ret next, timerStart s call = some (ret, next) ∧ Sound next ∧
      next.maxTmrNum = s.maxTmrNum ∧ (ret ≠ -1 → ret ∉ s.ids) := by
  obtain ⟨free, leaked, used, owns⟩ := sound
  rcases owns.started call with ⟨_, done⟩ | ⟨id, rest, tids, _, _, valid, fresh, taken⟩
  · exact ⟨_, _, done, ⟨_, _, _, owns⟩, rfl, by simp⟩
  · rcases taken with ⟨_, record, same, done, kept⟩ | ⟨_, ⟨ret, returned, done⟩, kept⟩
    · exact ⟨_, _, done, ⟨_, _, _, kept⟩, rfl, fun _ => fresh⟩
    · refine ⟨_, _, done, ⟨_, _, _, kept⟩, rfl, fun some_ => ?_⟩
      exact returned.resolve_right some_ ▸ fresh

theorem searchTimerList_none {list : List TimerRecord} {id : Int} :
    searchTimerList list id = none ↔ id ∉ list.map TimerRecord.id := by
  simp [searchTimerList, List.find?_eq_none]

theorem searchTimerList_first {before : List TimerRecord} {record : TimerRecord}
    (earlier : ∀ other ∈ before, other.id ≠ record.id) (after : List TimerRecord) :
    searchTimerList (before ++ record :: after) record.id = some record := by
  rw [searchTimerList, List.find?_append,
    List.find?_eq_none.mpr fun other member => by simpa using earlier other member]
  simp

/-- A deletion takes the first record with the id out. -/
theorem deleteTimerList_first {before after : List TimerRecord} {record : TimerRecord}
    (positive : 1 ≤ record.id) (earlier : ∀ other ∈ before, other.id ≠ record.id) :
    deleteTimerList (before ++ record :: after) record.id = (0, before ++ after) := by
  have found := searchTimerList_first earlier after
  have remaining : (before ++ record :: after).eraseP (fun other => other.id = record.id) =
      before ++ after := by
    rw [List.eraseP_append_right _ fun other member => by simpa using earlier other member,
      List.eraseP_cons_of_pos (by simp)]
  simp only [deleteTimerList, found, remaining, if_neg (show ¬ record.id ≤ 0 by omega)]

theorem searchTimerList_some {list : List TimerRecord} {id : Int} {record : TimerRecord}
    (found : searchTimerList list id = some record) :
    ∃ before after, list = before ++ record :: after ∧ record.id = id ∧
      ∀ other ∈ before, other.id ≠ record.id := by
  obtain ⟨same, before, after, rfl, earlier⟩ := List.find?_eq_some_iff_append.mp found
  have matched : record.id = id := by simpa using same
  exact ⟨before, after, rfl, matched, fun other member => by
    simpa [matched] using earlier other member⟩

/-- The assigned cell of a timer on the list makes room for its id in the table. -/
theorem Owns.cancelled {s : State} {free leaked : List Int} {used : List TidEntry}
    (owns : Owns s free leaked used) {before after : List TimerRecord} {record : TimerRecord}
    (list : s.list = before ++ record :: after) :
    ∃ tids remaining, funcCancelTid s.tids record.id = some (0, tids) ∧
      Owns { s with list := before ++ after, tids } (free ++ [record.id]) leaked remaining := by
  obtain ⟨low, high⟩ := owns.ids_valid
    (show record.id ∈ s.ids ++ (free ++ leaked) by simp [State.ids, list])
  have paid := owns.used_length
  simp only [list, List.length_append, List.length_cons] at paid
  cases used with
  | nil =>
      rw [List.length_nil] at paid
      omega
  | cons entry used =>
      obtain ⟨tids, cancelled, sameMax, table⟩ :=
        funcCancelTid_holds owns.table ⟨low, owns.sameMax ▸ high⟩
      refine ⟨tids, used, cancelled, table, sameMax.trans owns.sameMax,
        List.Perm.trans ?_ owns.divided⟩
      simp only [State.ids, list, List.map_append, List.map_cons, List.append_assoc,
        List.cons_append, List.nil_append]
      refine List.Perm.append_left _ ?_
      have moved : (after.map TimerRecord.id ++ free ++ record.id :: leaked).Perm
          (record.id :: (after.map TimerRecord.id ++ free ++ leaked)) := List.perm_middle
      simpa only [List.append_assoc] using moved

/-- `timer_stop` takes exactly the timer with the id off the list and gives its id
back, or there is no such timer and it changes nothing. -/
theorem Owns.stopped {s : State} {free leaked : List Int} {used : List TidEntry}
    (owns : Owns s free leaked used) (timerId : Int) (mode : StopMode) :
    (∃ before record after tids remaining, s.list = before ++ record :: after ∧
        record.id = timerId ∧
        timerStop s timerId mode = some (0, { s with list := before ++ after, tids }) ∧
        Owns { s with list := before ++ after, tids } (free ++ [timerId]) leaked remaining) ∨
      (timerId ∉ s.ids ∧ timerStop s timerId mode = some (-1, s)) := by
  by_cases valid : timerId < 1 ∨ timerId > s.maxTmrNum
  · refine Or.inr ⟨fun member => ?_, by rw [timerStop, if_pos valid]⟩
    have := owns.ids_valid (List.mem_append_left _ member)
    omega
  · cases found : searchTimerList s.list timerId with
    | none =>
        refine Or.inr ⟨searchTimerList_none.mp found, ?_⟩
        have positive : ¬ timerId ≤ 0 := by omega
        rw [timerStop, if_neg valid]
        simp [deleteTimerList, found, positive]
    | some record =>
        obtain ⟨before, after, list, same, earlier⟩ := searchTimerList_some found
        obtain ⟨tids, remaining, cancelled, kept⟩ := owns.cancelled list
        have deleted : deleteTimerList s.list timerId = (0, before ++ after) := by
          rw [list, ← same]
          exact deleteTimerList_first (by omega) earlier
        rw [same] at cancelled kept
        refine Or.inl ⟨before, record, after, tids, remaining, list, same, ?_, kept⟩
        rw [timerStop, if_neg valid]
        simp [deleted, cancelled]

theorem timerStop_spec {s : State} (sound : Sound s) (timerId : Int) (mode : StopMode) :
    (∃ before record after tids, s.list = before ++ record :: after ∧ record.id = timerId ∧
        timerStop s timerId mode = some (0, { s with list := before ++ after, tids }) ∧
        Allocatable tids timerId ∧ Sound { s with list := before ++ after, tids }) ∨
      (timerId ∉ s.ids ∧ timerStop s timerId mode = some (-1, s)) := by
  obtain ⟨free, leaked, used, owns⟩ := sound
  refine (owns.stopped timerId mode).imp_left ?_
  rintro ⟨before, record, after, tids, remaining, list, same, done, kept⟩
  exact ⟨before, record, after, tids, list, same, done, kept.table.allocatable (by simp),
    _, _, _, kept⟩

theorem resetTimerList_ids (id : Int) (period : Int32) (tp : Timeval)
    (list : List TimerRecord) :
    (resetTimerList id period tp list).map TimerRecord.id = list.map TimerRecord.id := by
  induction list with
  | nil => rfl
  | cons record rest ih =>
      unfold resetTimerList
      split
      · rename_i same
        simp [same]
      · simp [ih]

/-- A reset changes the first record with the id. -/
theorem resetTimerList_first {before : List TimerRecord} {record : TimerRecord}
    (period : Int32) (tp : Timeval) (earlier : ∀ other ∈ before, other.id ≠ record.id)
    (after : List TimerRecord) :
    resetTimerList record.id period tp (before ++ record :: after) =
      before ++ { record with period, tvSec := Int32.ofInt tp.tvSec,
                              tvUsec := Int32.ofInt tp.tvUsec } :: after := by
  induction before with
  | nil => rw [List.nil_append, resetTimerList, if_pos rfl, List.nil_append]
  | cons first before ih =>
      rw [List.cons_append, resetTimerList, if_neg (earlier first List.mem_cons_self),
        ih fun other member => earlier other (List.mem_cons_of_mem _ member)]
      rfl

/-- The timer that a reset finds waits from now on. -/
theorem resetTimerList_armed {id : Int} {msecs : Int32} {tp : Timeval}
    {list : List TimerRecord} {record : TimerRecord}
    (found : searchTimerList (resetTimerList id (periodOf msecs) tp list) id = some record) :
    record.ArmedFor msecs tp := by
  induction list with
  | nil => cases found
  | cons first rest ih =>
      unfold resetTimerList at found
      split at found
      · rw [searchTimerList, List.find?_cons_of_pos (by simp)] at found
        cases found
        exact ⟨rfl, rfl, rfl⟩
      · rename_i other
        rw [searchTimerList, List.find?_cons_of_neg (by simpa using other)] at found
        exact ih found

theorem Owns.reset {s : State} {free leaked : List Int} {used : List TidEntry}
    (owns : Owns s free leaked used) (timerId : Int) (msecs : Int32)
    (gettimeofday : Option Timeval) :
    Owns (timerReset s timerId msecs gettimeofday).2 free leaked used ∧
      (timerReset s timerId msecs gettimeofday).2.maxTmrNum = s.maxTmrNum := by
  unfold timerReset
  split
  · exact ⟨owns, rfl⟩
  split
  · exact ⟨owns, rfl⟩
  dsimp only
  split
  · split
    · exact ⟨owns, rfl⟩
    · refine ⟨⟨owns.table, owns.sameMax, ?_⟩, rfl⟩
      simpa only [State.ids, resetTimerList_ids] using owns.divided
  · exact ⟨owns, rfl⟩

theorem timerStop_sound {s next : State} (sound : Sound s) {timerId ret : Int} {mode : StopMode}
    (stopped : timerStop s timerId mode = some (ret, next)) :
    Sound next ∧ next.maxTmrNum = s.maxTmrNum := by
  rcases timerStop_spec sound timerId mode with
    ⟨before, record, after, tids, _, _, done, _, kept⟩ | ⟨_, unchanged⟩
  · cases done.symm.trans stopped
    exact ⟨kept, rfl⟩
  · cases unchanged.symm.trans stopped
    exact ⟨sound, rfl⟩

/-- A visit changes nothing, or stops the timer whose action it runs. -/
theorem cmpTimerValue_cases {s next : State} {k : Nat} {gettimeofday : Option Timeval}
    {fired : Option TimerRecord}
    (visited : cmpTimerValue s k gettimeofday = some (next, fired)) :
    (∀ ent ∈ fired, ent.id ∈ s.ids) ∧
      (next = s ∨ ∃ id ret, timerStop s id .timerUsed = some (ret, next)) := by
  unfold cmpTimerValue at visited
  split at visited
  · cases visited
  rename_i ent here
  have listed : ent.id ∈ s.ids := List.mem_map_of_mem (List.mem_of_getElem? here)
  split at visited
  · cases visited
    exact ⟨nofun, Or.inl rfl⟩
  split at visited
  · split at visited
    · split at visited
      · cases visited
        exact ⟨fun other same => by cases same; exact listed, Or.inl rfl⟩
      · obtain ⟨⟨ret, stopped⟩, done, same⟩ := Option.map_eq_some_iff.mp visited
        cases same
        exact ⟨fun other same => by cases same; exact listed, Or.inr ⟨_, ret, done⟩⟩
    · cases visited
      exact ⟨nofun, Or.inl rfl⟩
  · cases visited
    exact ⟨nofun, Or.inl rfl⟩

theorem cmpTimerValue_sound {s next : State} (sound : Sound s) {k : Nat}
    {gettimeofday : Option Timeval} {fired : Option TimerRecord}
    (visited : cmpTimerValue s k gettimeofday = some (next, fired)) :
    Sound next ∧ next.maxTmrNum = s.maxTmrNum := by
  rcases (cmpTimerValue_cases visited).2 with rfl | ⟨id, ret, stopped⟩
  · exact ⟨sound, rfl⟩
  · exact timerStop_sound sound stopped

/-- The only timer that `timer_start` adds is the one it returns. -/
theorem timerStart_ids {s next : State} {call : StartCall} {ret : Int}
    (started : timerStart s call = some (ret, next)) {id : Int} (member : id ∈ next.ids) :
    id ∈ s.ids ∨ id = ret := by
  by_cases accepted : call.Accepted
  · cases assigned : funcAssignTid s.tids with
    | none =>
        rw [timerStart, if_neg accepted.1, if_neg accepted.2, assigned] at started
        cases started
    | some pair =>
        obtain ⟨idx, tids⟩ := pair
        by_cases valid : idx = -1
        · subst valid
          cases (timerStart_noId accepted assigned).symm.trans started
          exact Or.inl member
        · rcases timerStart_taken accepted assigned valid with
            ⟨_, record, same, _, done⟩ | ⟨_, _, done⟩ | ⟨_, _, done⟩
          · cases done.symm.trans started
            simpa [State.ids, same] using member
          · cases done.symm.trans started
            exact Or.inl member
          · cases done.symm.trans started
            exact Or.inl member
  · cases (timerStart_refused accepted).symm.trans started
    exact Or.inl member

theorem timerStop_ids {s next : State} (sound : Sound s) {timerId ret : Int} {mode : StopMode}
    (stopped : timerStop s timerId mode = some (ret, next)) {id : Int} (member : id ∈ next.ids) :
    id ∈ s.ids := by
  rcases timerStop_spec sound timerId mode with
    ⟨before, record, after, tids, list, _, done, _, _⟩ | ⟨_, unchanged⟩
  · cases done.symm.trans stopped
    simp only [State.ids, list, List.map_append, List.mem_append] at member ⊢
    exact member.imp_right (List.mem_cons_of_mem _)
  · cases unchanged.symm.trans stopped
    exact member

/-- A visit takes at most timers off the list, and runs the action of one that was on it. -/
theorem cmpTimerValue_ids {s next : State} (sound : Sound s) {k : Nat}
    {gettimeofday : Option Timeval} {fired : Option TimerRecord}
    (visited : cmpTimerValue s k gettimeofday = some (next, fired)) :
    (∀ id ∈ next.ids, id ∈ s.ids) ∧ ∀ ent ∈ fired, ent.id ∈ s.ids := by
  obtain ⟨listed, rfl | ⟨id, ret, stopped⟩⟩ := cmpTimerValue_cases visited
  · exact ⟨fun _ => id, listed⟩
  · exact ⟨fun _ => timerStop_ids sound stopped, listed⟩

theorem step_sound {s next : State} {event : Event} (sound : Sound s)
    (stepped : step s event = some next) : Sound next ∧ next.maxTmrNum = s.maxTmrNum := by
  cases event with
  | start call =>
      obtain ⟨ret, after, started, kept, sameMax, _⟩ := timerStart_spec sound call
      simp only [step, started, Option.map_some, Option.some.injEq] at stepped
      exact stepped ▸ ⟨kept, sameMax⟩
  | stop timerId mode =>
      obtain ⟨⟨ret, after⟩, stopped, rfl⟩ := Option.map_eq_some_iff.mp stepped
      exact timerStop_sound sound stopped
  | reset timerId msecs gettimeofday =>
      cases stepped
      obtain ⟨free, leaked, used, owns⟩ := sound
      obtain ⟨kept, sameMax⟩ := owns.reset timerId msecs gettimeofday
      exact ⟨⟨_, _, _, kept⟩, sameMax⟩
  | expire k gettimeofday =>
      obtain ⟨⟨after, fired⟩, visited, rfl⟩ := Option.map_eq_some_iff.mp stepped
      exact cmpTimerValue_sound sound visited

/-- The timer API over every run: distinct valid ids, fresh ids from `timer_start`,
and a `timer_stop` that removes its timer whole or does nothing. -/
theorem run_timers {max : Nat} {start : State} (started : timerInit max = some start)
    {events : List Event} {final : State} (reached : run step start events = some final) :
    (final.ids.Nodup ∧ ∀ id ∈ final.ids, 1 ≤ id ∧ id ≤ max) ∧
      (∀ call, ∃ ret next, timerStart final call = some (ret, next) ∧
        (ret ≠ -1 → ret ∉ final.ids)) ∧
      ∀ timerId mode, ∃ ret next, timerStop final timerId mode = some (ret, next) ∧
        (ret = 0 ↔ timerId ∈ final.ids) ∧
        (ret = 0 → Allocatable next.tids timerId ∧
          ∃ before record after, final.list = before ++ record :: after ∧
            record.id = timerId ∧ next.list = before ++ after) ∧
        (ret ≠ 0 → ret = -1 ∧ next = final) := by
  obtain ⟨initial, sameMax⟩ := timerInit_sound started
  obtain ⟨sound, bound⟩ := run_invariant (fun s => Sound s ∧ s.maxTmrNum = max)
    (fun s event next before stepped => by
      obtain ⟨kept, unchanged⟩ := step_sound before.1 stepped
      exact ⟨kept, unchanged.trans before.2⟩)
    ⟨initial, sameMax⟩ reached
  obtain ⟨free, leaked, used, owns⟩ := sound
  refine ⟨⟨(List.nodup_append.mp owns.nodup).1, fun id member => ?_⟩, fun call => ?_,
    fun timerId mode => ?_⟩
  · exact bound ▸ owns.ids_valid (List.mem_append_left _ member)
  · obtain ⟨ret, next, done, _, _, fresh⟩ := timerStart_spec ⟨free, leaked, used, owns⟩ call
    exact ⟨ret, next, done, fresh⟩
  · rcases timerStop_spec ⟨free, leaked, used, owns⟩ timerId mode with
      ⟨before, record, after, tids, list, same, done, allocatable, _⟩ | ⟨absent, unchanged⟩
    · refine ⟨_, _, done, ?_, fun _ => ⟨allocatable, before, record, after, list, same, rfl⟩,
        by simp⟩
      simp [State.ids, list, same]
    · exact ⟨_, _, unchanged, by simp [absent], by simp, by simp⟩

/-- Two timers of at most three, one of them stopped again. -/
theorem run_timers_two :
    ∃ start final, timerInit 3 = some start ∧
      run step start
        [.start ⟨100, none, 0, 0, 0, 3, true, some ⟨5, 0⟩⟩,
          .start ⟨200, none, 0, 0, 0, 3, true, some ⟨5, 0⟩⟩,
          .stop 1 .stackUsed] = some final ∧ final.ids = [2] ∧ final.ids.Nodup := by
  obtain ⟨final, reached, ids⟩ : ∃ final, run step ⟨3, funcInitTid 3, []⟩
      [.start ⟨100, none, 0, 0, 0, 3, true, some ⟨5, 0⟩⟩,
        .start ⟨200, none, 0, 0, 0, 3, true, some ⟨5, 0⟩⟩,
        .stop 1 .stackUsed] = some final ∧ final.ids = [2] := ⟨_, rfl, by decide⟩
  exact ⟨_, final, rfl, reached, ids, (run_timers (show timerInit 3 = some _ from rfl) reached).1.1⟩

end VnfMonitoring.Timer
