import VnfMonitoring.Timer
import VnfMonitoring.Lib.Wrap

set_option autoImplicit false

/- When `cmp_timer_value` takes a timer for expired: its period and the elapsed time are
`int`s, so both are the exact numbers of microseconds modulo 2^32. -/
namespace VnfMonitoring.TimerClock

open VnfMonitoring.TimerIds VnfMonitoring.Timer VnfMonitoring.Wrap

/-- An `int` is smaller. -/
def intEnd : Nat := 2147483648

/-- A reading of `gettimeofday` whose seconds fit an `int`. -/
structure Clock (tp : Timeval) : Prop where
  secLow : -intEnd ≤ tp.tvSec
  secHigh : tp.tvSec < intEnd
  usecLow : 0 ≤ tp.tvUsec
  usecHigh : tp.tvUsec < 1000000

/-- Microseconds between two readings. -/
def elapsed (start now : Timeval) : Int :=
  (now.tvSec - start.tvSec) * 1000000 + (now.tvUsec - start.tvUsec)

/-- The elapsed time with the compensation of 10 ms. -/
def delay (start now : Timeval) : Int := elapsed start now + 10000

/-- The record was made by `timer_start`, or set again by `timer_reset`, with this period
at this time. -/
inductive Armed (ent : TimerRecord) (msecs : Int32) (start : Timeval) : Prop where
  | started {s next : State} {call : StartCall} {id : Int}
      (done : timerStart s call = some (id, next)) (added : next.list = s.list ++ [ent])
      (period : call.msecs = msecs) (clock : call.gettimeofday = some start)
  | again {s next : State} {id : Int} (done : timerReset s id msecs (some start) = (0, next))
      (found : searchTimerList next.list id = some ent)

/-- The test of `cmp_timer_value`. -/
def Expired (ent : TimerRecord) (now : Timeval) : Prop := elapsedUsecs ent now > ent.period

instance (ent : TimerRecord) (now : Timeval) : Decidable (Expired ent now) :=
  inferInstanceAs (Decidable (_ > _))

/-- The test is that of the exact numbers. -/
def OnTime (ent : TimerRecord) (msecs : Int32) (start now : Timeval) : Prop :=
  Expired ent now ↔ 1000 * msecs.toInt < delay start now

/-- A visit runs the action of its timer exactly when the test succeeds. -/
theorem cmpTimerValue_expired {s : State} (sound : Sound s) {k : Nat} {ent : TimerRecord}
    (here : s.list[k]? = some ent) (acts : ent.action ≠ none) (now : Timeval) :
    ∃ next fired, cmpTimerValue s k (some now) = some (next, fired) ∧
      (fired = some ent ↔ Expired ent now) := by
  obtain ⟨action, some_⟩ := Option.ne_none_iff_exists'.mp acts
  unfold cmpTimerValue Expired
  simp only [here, some_]
  split
  · rename_i expired
    split
    · exact ⟨_, _, rfl, by simp [expired]⟩
    · rcases timerStop_spec sound ent.id .timerUsed with
        ⟨_, _, _, _, _, _, done, _⟩ | ⟨_, done⟩
      · rw [done]
        exact ⟨_, _, rfl, by simp [expired]⟩
      · rw [done]
        exact ⟨_, _, rfl, by simp [expired]⟩
  · rename_i waiting
    exact ⟨_, _, rfl, by simp [waiting]⟩

/-- What both calls leave in a record; neither accepts a negative number. -/
theorem Armed.record {ent : TimerRecord} {msecs : Int32} {start : Timeval}
    (armed : Armed ent msecs start) : ¬ msecs < 0 ∧ ent.ArmedFor msecs start := by
  cases armed with
  | @started s next call id done added period clock =>
      subst period
      by_cases accepted : call.Accepted
      · refine ⟨accepted.1, ?_⟩
        cases assigned : funcAssignTid s.tids with
        | none =>
            rw [timerStart, if_neg accepted.1, if_neg accepted.2, assigned] at done
            cases done
        | some pair =>
            obtain ⟨idx, tids⟩ := pair
            by_cases valid : idx = -1
            · subst valid
              cases (timerStart_noId accepted assigned).symm.trans done
              simp at added
            · rcases timerStart_taken accepted assigned valid with
                ⟨_, record, _, armed, also⟩ | ⟨_, _, also⟩ | ⟨_, _, also⟩
              · cases also.symm.trans done
                have same : record = ent := by simpa using added
                exact same ▸ armed start clock
              · cases also.symm.trans done
                simp at added
              · cases also.symm.trans done
                simp at added
      · cases (timerStart_refused accepted).symm.trans done
        simp at added
  | @again s next id done found =>
      have period : (if msecs ≠ 0 then periodOf msecs else 0) = periodOf msecs := by
        split
        · rfl
        · rename_i zero
          rw [not_not.mp zero]
          rfl
      unfold timerReset at done
      rw [period] at done
      split at done
      · cases done
      split at done
      · cases done
      rename_i _ accepted
      refine ⟨accepted, ?_⟩
      cases old : searchTimerList s.list id with
      | none =>
          rw [old] at done
          cases done
          rw [old] at found
          cases found
      | some record =>
          rw [old] at done
          cases done
          exact resetTimerList_armed found

section Arithmetic

variable {msecs : Int32} {ent : TimerRecord} {start now : Timeval}

theorem bmod_of_fits {value : Int} (low : -intEnd ≤ value) (high : value < intEnd) :
    value.bmod (2 * intEnd) = value := by
  apply Int.bmod_eq_of_le_mul_two
  · push_cast
    omega
  · push_cast
    omega

theorem ofInt_bmod (value : Int) : (Int32.ofInt value).toInt = value.bmod (2 * intEnd) :=
  Int32.toInt_ofInt

/-- The seconds and the rest of a period are exact; their products wrap. -/
theorem periodOf_eq (nonneg : ¬ msecs < 0) :
    periodOf msecs = Int32.ofInt (1000 * msecs.toInt) := by
  have positive : 0 ≤ msecs.toInt := by
    rw [Int32.lt_iff_toInt_lt] at nonneg
    exact not_lt.mp nonneg
  have whole : msecs / 1000 = Int32.ofInt (msecs.toInt / 1000) := by
    rw [← Int32.ofInt_toInt (msecs / 1000), Int32.toInt_div_of_ne_right _ _ (by decide)]
    exact congrArg Int32.ofInt (Int.tdiv_eq_ediv_of_nonneg positive)
  have rest : msecs % 1000 = Int32.ofInt (msecs.toInt % 1000) := by
    rw [← Int32.ofInt_toInt (msecs % 1000), Int32.toInt_mod]
    exact congrArg Int32.ofInt (Int.tmod_eq_emod_of_nonneg positive)
  rw [periodOf, whole, rest]
  have sum : 1000 * msecs.toInt =
      msecs.toInt / 1000 * 1000000 + msecs.toInt % 1000 * 1000 := by omega
  rw [sum, Int32.ofInt_add, Int32.ofInt_mul, Int32.ofInt_mul]
  rfl

/-- The stored start time is exact. -/
theorem stored (armed : ent.ArmedFor msecs start) (clock : Clock start) :
    ent.tvSec.toInt = start.tvSec ∧ ent.tvUsec.toInt = start.tvUsec := by
  have low := clock.secLow
  have high := clock.secHigh
  have usecLow := clock.usecLow
  have usecHigh := clock.usecHigh
  rw [armed.tvSec, armed.tvUsec]
  unfold intEnd at low high
  exact ⟨Int32.toInt_ofInt_of_le low high, Int32.toInt_ofInt_of_le (by omega) (by omega)⟩

theorem elapsedUsecs_eq (armed : ent.ArmedFor msecs start) (clock : Clock start)
    (nowClock : Clock now) (later : 0 ≤ elapsed start now) :
    elapsedUsecs ent now = Int32.ofInt (delay start now) := by
  obtain ⟨sec, usec⟩ := stored armed clock
  have secLow := clock.secLow
  have nowHigh := nowClock.secHigh
  have usecLow := clock.usecLow
  have usecHigh := clock.usecHigh
  have nowUsecLow := nowClock.usecLow
  have nowUsecHigh := nowClock.usecHigh
  unfold intEnd at secLow nowHigh
  unfold elapsed at later
  unfold elapsedUsecs
  rw [sec]
  dsimp only
  split
  · rename_i after
    have second : (ent.tvSec + 1).toInt = start.tvSec + 1 := by
      rw [Int32.toInt_add, sec, show Int32.toInt 1 = 1 from rfl]
      exact bmod_of_fits (by unfold intEnd; omega) (by unfold intEnd; omega)
    have borrow : (1000000 - ent.tvUsec).toInt = 1000000 - start.tvUsec := by
      rw [Int32.toInt_sub, usec, show Int32.toInt 1000000 = 1000000 from rfl]
      exact bmod_of_fits (by unfold intEnd; omega) (by unfold intEnd; omega)
    have sum : (now.tvSec - (start.tvSec + 1)) * 1000000 +
        (1000000 - start.tvUsec + (now.tvUsec + 10000)) = delay start now := by
      unfold delay elapsed
      omega
    rw [second, borrow, Int32.ofInt_add, Int32.ofInt_toInt, ← Int32.ofInt_add, sum]
  · have same : now.tvUsec + 10000 - start.tvUsec = delay start now := by
      unfold delay elapsed
      omega
    rw [usec, same]

theorem expired_iff (armed : Armed ent msecs start) (clock : Clock start)
    (nowClock : Clock now) (later : 0 ≤ elapsed start now) :
    Expired ent now ↔
      (1000 * msecs.toInt).bmod (2 * intEnd) < (delay start now).bmod (2 * intEnd) := by
  obtain ⟨nonneg, record⟩ := armed.record
  unfold Expired
  rw [elapsedUsecs_eq record clock nowClock later, record.period, periodOf_eq nonneg, gt_iff_lt,
    Int32.lt_iff_toInt_lt, ofInt_bmod, ofInt_bmod]

/-- Every microsecond between two readings is a reading. -/
theorem instant_of_delay (clock : Clock start) (nowClock : Clock now) {value : Int}
    (low : 10000 ≤ value) (high : value ≤ delay start now) :
    ∃ instant, Clock instant ∧ delay start instant = value := by
  have usecLow := clock.usecLow
  have nowHigh := nowClock.secHigh
  have nowUsecHigh := nowClock.usecHigh
  have secLow := clock.secLow
  unfold delay elapsed at high
  refine ⟨⟨start.tvSec + (start.tvUsec + (value - 10000)) / 1000000,
    (start.tvUsec + (value - 10000)) % 1000000⟩, ⟨?_, ?_, ?_, ?_⟩, ?_⟩
  · dsimp only
    omega
  · dsimp only
    omega
  · dsimp only
    omega
  · dsimp only
    omega
  · simp only [delay, elapsed]
    omega

end Arithmetic

/-- A period of whole milliseconds is never the last number of a window. -/
theorem period_not_last (msecs : Int) :
    (1000 * msecs).bmod (2 * intEnd) ≠ intEnd - 1 := by
  intro last
  have sum := Int.bdiv_add_bmod (1000 * msecs) (2 * intEnd)
  unfold intEnd at last sum
  omega

/-- The test is right at one time exactly when wrapping keeps the order of the period and
the delay, and at every time from the start on exactly when the delay stays below 2^31
and so does the period, or its remainder is not reached. -/
theorem expired_onTime {ent : TimerRecord} {msecs : Int32} {start now : Timeval}
    (armed : Armed ent msecs start) (clock : Clock start) (nowClock : Clock now)
    (later : 0 ≤ elapsed start now) :
    (OnTime ent msecs start now ↔
        OrderKept (2 * intEnd) (1000 * msecs.toInt) (delay start now)) ∧
      ((∀ instant, Clock instant → 0 ≤ elapsed start instant →
          elapsed start instant ≤ elapsed start now → OnTime ent msecs start instant) ↔
        delay start now < intEnd ∧ (1000 * msecs.toInt < intEnd ∨
          delay start now ≤ (1000 * msecs.toInt).bmod (2 * intEnd))) := by
  constructor
  · rw [OnTime, expired_iff armed clock nowClock later]
    exact bmod_lt_exact (by decide)
  · have positive : 0 ≤ msecs.toInt := by
      have nonneg := armed.record.1
      rw [Int32.lt_iff_toInt_lt] at nonneg
      exact not_lt.mp nonneg
    have delayed : 10000 ≤ delay start now := by
      unfold delay
      omega
    rw [← passes_exact (by decide) (by decide) delayed (by omega) (period_not_last msecs.toInt)]
    constructor
    · intro right value low high
      obtain ⟨instant, instantClock, same⟩ := instant_of_delay clock nowClock low high
      have early : 0 ≤ elapsed start instant := by
        unfold delay at same
        omega
      have bounded : elapsed start instant ≤ elapsed start now := by
        unfold delay at same high
        omega
      have test := right instant instantClock early bounded
      rwa [OnTime, expired_iff armed clock instantClock early, same] at test
    · intro passes instant instantClock early bounded
      rw [OnTime, expired_iff armed clock instantClock early]
      apply passes
      · unfold delay
        omega
      · unfold delay
        omega

/-- The record of a timer that starts at second 5 as the first of one. -/
def fromFive (msecs : Int32) : TimerRecord :=
  ⟨1, periodOf msecs, 5, 0, 0, 0, 0, some .tmrExpireFunc⟩

theorem fromFive_armed {msecs : Int32} (nonneg : ¬ msecs < 0) :
    Armed (fromFive msecs) msecs ⟨5, 0⟩ := by
  have done : timerStart ⟨1, funcInitTid 1, []⟩ ⟨msecs, none, 0, 0, 0, 3, true, some ⟨5, 0⟩⟩ =
      some (1, ⟨1, ⟨0, 0, true, 1, 0, [⟨true, 1⟩]⟩, [fromFive msecs]⟩) := by
    rw [timerStart, if_neg nonneg]
    rfl
  exact .started done rfl rfl rfl

/-- A tenth of a second: the test succeeds 10 ms before its end, and not before that. -/
theorem expired_onTime_tenth :
    OnTime (fromFive 100) 100 ⟨5, 0⟩ ⟨5, 90001⟩ ∧
      ∀ instant, Clock instant → 0 ≤ elapsed ⟨5, 0⟩ instant →
        elapsed ⟨5, 0⟩ instant ≤ elapsed ⟨5, 0⟩ ⟨5, 90001⟩ →
          OnTime (fromFive 100) 100 ⟨5, 0⟩ instant := by
  have clock : Clock ⟨5, 90001⟩ := ⟨by decide, by decide, by decide, by decide⟩
  obtain ⟨here, before⟩ := expired_onTime (fromFive_armed (show ¬ (100 : Int32) < 0 by decide))
    ⟨by decide, by decide, by decide, by decide⟩ clock (by decide)
  exact ⟨here.mpr (by decide), before.mpr (by decide)⟩

/-- A period of 2147484 ms is negative as an `int`: the timer expires at once. -/
theorem expired_early :
    ¬ ∀ (ent : TimerRecord) (msecs : Int32) (start now : Timeval), Armed ent msecs start →
      Clock start → Clock now → 0 ≤ elapsed start now → OnTime ent msecs start now := by
  intro all
  have right := all _ 2147484 ⟨5, 0⟩ ⟨5, 0⟩ (fromFive_armed (by decide))
    ⟨by decide, by decide, by decide, by decide⟩ ⟨by decide, by decide, by decide, by decide⟩
    (by decide)
  exact absurd (right.mp (by decide)) (by decide)

end VnfMonitoring.TimerClock
