import VnfMonitoring.ConfPeriod
import VnfMonitoring.Kutil
import VnfMonitoring.Lib.Pulses

set_option autoImplicit false

/- The tasks of `host_task.c` that look at the clock in a loop and work at certain seconds:
the seconds they are called for, and those they miss. -/
namespace VnfMonitoring.HostPeriodic

open VnfMonitoring.DbmbStatus VnfMonitoring.Timer VnfMonitoring.Kutil VnfMonitoring.ConfPeriod
  VnfMonitoring.Pulses

/-- `"%04d-%02d-%02d, %02d:%02d:%02d"`, with its last argument. The `MAX_TIME_LENGTH` bytes of
the buffer take every such text. -/
def ttime (ctime : Tm) (sec : Int) : List UInt8 :=
  printInt 4 (ctime.tmYear + 1900) ++ chars "-" ++ printInt 2 (ctime.tmMon + 1) ++ chars "-" ++
    printInt 2 ctime.tmMday ++ chars ", " ++ printInt 2 ctime.tmHour ++ chars ":" ++
    printInt 2 ctime.tmMin ++ chars ":" ++ printInt 2 sec

/-- One round of `ProcessVmStateTask`: the flag it leaves, and the argument of
`ProcessVmProcStateInfo` when it is called. -/
def processVmStateRound (localtime : Int → Tm) (check5sec : Bool) (tv : Timeval) :
    Bool × Option (List UInt8) :=
  let ctime := localtime tv.tvSec
  if ctime.tmSec.tmod 5 = 2 then
    if check5sec then (check5sec, none)
    else (true, some (ttime ctime (ctime.tmSec - 2)))
  else (false, none)

/-- One round of `CheckVmStatusTask`: the flag it leaves, and whether it calls
`CheckVmcStatus`. -/
def checkVmStatusRound (localtime : Int → Tm) (checkVmcstatusSec : Int) (fiveSecCheck : Bool)
    (tv : Timeval) : Option (Bool × Bool) :=
  let ctime := localtime tv.tvSec
  (remainder ctime.tmSec checkVmcstatusSec).map fun rest =>
    if rest = 0 then
      if fiveSecCheck then (fiveSecCheck, false)
      else (true, true)
    else (false, false)

/-- One round of `CheckTcpStatusTask`: the flag it leaves, and whether it calls
`CheckTcpStatus`. -/
def checkTcpStatusRound (localtime : Int → Tm) (check1min : Bool) (tv : Timeval) : Bool × Bool :=
  let ctime := localtime tv.tvSec
  if ctime.tmSec = 15 then
    if check1min ≠ true then (true, true) else (check1min, false)
  else (false, false)

/-- The calls of `ProcessVmStateTask`, with the times of the rounds that make them. -/
def processVmStateTask (localtime : Int → Tm) :
    Bool → List Timeval → List (Timeval × List UInt8)
  | _, [] => []
  | check5sec, tv :: rest =>
      let (check5sec, call) := processVmStateRound localtime check5sec tv
      let later := processVmStateTask localtime check5sec rest
      match call with
      | some ttime => (tv, ttime) :: later
      | none => later

/-- The times at which `CheckVmStatusTask` calls; a division by 0 has no value. -/
def checkVmStatusTask (localtime : Int → Tm) (checkVmcstatusSec : Int) :
    Bool → List Timeval → Option (List Timeval)
  | _, [] => some []
  | fiveSecCheck, tv :: rest =>
      (checkVmStatusRound localtime checkVmcstatusSec fiveSecCheck tv).bind
        fun (fiveSecCheck, called) =>
          (checkVmStatusTask localtime checkVmcstatusSec fiveSecCheck rest).map fun later =>
            if called then tv :: later else later

/-- The times at which `CheckTcpStatusTask` calls. -/
def checkTcpStatusTask (localtime : Int → Tm) : Bool → List Timeval → List Timeval
  | _, [] => []
  | check1min, tv :: rest =>
      let (check1min, called) := checkTcpStatusRound localtime check1min tv
      let later := checkTcpStatusTask localtime check1min rest
      if called then tv :: later else later

/-- The seconds for `ProcessVmProcStateInfo`. -/
def processSecond (localtime : Int → Tm) (second : Int) : Bool :=
  (localtime second).tmSec.tmod 5 = 2

/-- The seconds for `CheckVmcStatus`. -/
def vmcSecond (localtime : Int → Tm) (checkVmcstatusSec second : Int) : Bool :=
  remainder (localtime second).tmSec checkVmcstatusSec = some 0

/-- The seconds for `CheckTcpStatus`. -/
def tcpSecond (localtime : Int → Tm) (second : Int) : Bool := (localtime second).tmSec = 15

/-- The first of two readings of the clock is the earlier one. -/
def Earlier (one other : Timeval) : Prop :=
  one.tvSec < other.tvSec ∨ one.tvSec = other.tvSec ∧ one.tvUsec < other.tvUsec

instance (one other : Timeval) : Decidable (Earlier one other) :=
  inferInstanceAs (Decidable (_ ∨ _))

/-- The seconds that readings of the clock show. -/
def seconds (samples : List Timeval) : List Int := samples.map Timeval.tvSec

/-- Each second for `ProcessVmProcStateInfo` that is read has one call, no other second has
any, and each call is passed the text of the five seconds that its second lies in. -/
def ProcessedOnce (localtime : Int → Tm) (samples : List Timeval)
    (calls : List (Timeval × List UInt8)) : Prop :=
  OncePerMoment (processSecond localtime) (seconds samples) (seconds (calls.map Prod.fst)) ∧
    ∀ call ∈ calls, call.2 =
      ttime (localtime call.1.tvSec) (5 * ((localtime call.1.tvSec).tmSec / 5))

section Rounds

variable {localtime : Int → Tm}

theorem processVmStateRound_cases (localtime : Int → Tm) (check5sec : Bool) (tv : Timeval) :
    (processSecond localtime tv.tvSec = false ∧
        processVmStateRound localtime check5sec tv = (false, none)) ∨
      (processSecond localtime tv.tvSec = true ∧ check5sec = true ∧
        processVmStateRound localtime check5sec tv = (true, none)) ∨
      (processSecond localtime tv.tvSec = true ∧ check5sec = false ∧
        processVmStateRound localtime check5sec tv = (true, some
          (ttime (localtime tv.tvSec) (5 * ((localtime tv.tvSec).tmSec / 5))))) := by
  by_cases here : (localtime tv.tvSec).tmSec.tmod 5 = 2
  · have kind : processSecond localtime tv.tvSec = true := decide_eq_true here
    cases check5sec with
    | true => exact Or.inr (Or.inl ⟨kind, rfl, by simp [processVmStateRound, here]⟩)
    | false =>
        have valid := (localtime tv.tvSec).secValid
        have start : (localtime tv.tvSec).tmSec - 2 = 5 * ((localtime tv.tvSec).tmSec / 5) := by
          rw [Int.tmod_eq_emod_of_nonneg valid.1] at here
          omega
        exact Or.inr (Or.inr ⟨kind, rfl, by simp [processVmStateRound, here, start]⟩)
  · exact Or.inl ⟨decide_eq_false here, by simp [processVmStateRound, here]⟩

theorem processVmStateTask_pulses (check5sec : Bool) (samples : List Timeval) :
    seconds ((processVmStateTask localtime check5sec samples).map Prod.fst) =
      pulses (processSecond localtime) check5sec (seconds samples) := by
  induction samples generalizing check5sec with
  | nil => rfl
  | cons tv rest ih =>
      rcases processVmStateRound_cases localtime check5sec tv with
        ⟨kind, round⟩ | ⟨kind, rfl, round⟩ | ⟨kind, rfl, round⟩
      · simpa [processVmStateTask, round, seconds, pulses, kind] using ih false
      · simpa [processVmStateTask, round, seconds, pulses, kind] using ih true
      · simpa [processVmStateTask, round, seconds, pulses, kind] using ih true

/-- A call is passed the text of the five seconds that its second lies in. -/
theorem processVmStateTask_ttime {check5sec : Bool} {samples : List Timeval}
    {call : Timeval × List UInt8} (called : call ∈ processVmStateTask localtime check5sec samples) :
    call.2 = ttime (localtime call.1.tvSec) (5 * ((localtime call.1.tvSec).tmSec / 5)) := by
  induction samples generalizing check5sec with
  | nil => cases called
  | cons tv rest ih =>
      rcases processVmStateRound_cases localtime check5sec tv with
        ⟨_, round⟩ | ⟨_, _, round⟩ | ⟨_, _, round⟩
      · simp only [processVmStateTask, round] at called
        exact ih called
      · simp only [processVmStateTask, round] at called
        exact ih called
      · simp only [processVmStateTask, round] at called
        rcases List.mem_cons.mp called with here | later
        · rw [here]
        · exact ih later

theorem checkVmStatusTask_pulses {checkVmcstatusSec : Int} {fiveSecCheck : Bool}
    {samples calls : List Timeval}
    (done : checkVmStatusTask localtime checkVmcstatusSec fiveSecCheck samples = some calls) :
    seconds calls =
      pulses (vmcSecond localtime checkVmcstatusSec) fiveSecCheck (seconds samples) := by
  induction samples generalizing fiveSecCheck calls with
  | nil =>
      cases done
      rfl
  | cons tv rest ih =>
      obtain ⟨⟨flag, called⟩, round, later⟩ := Option.bind_eq_some_iff.mp done
      obtain ⟨others, further, rfl⟩ := Option.map_eq_some_iff.mp later
      obtain ⟨value, remains, round⟩ := Option.map_eq_some_iff.mp round
      have kind : vmcSecond localtime checkVmcstatusSec tv.tvSec = decide (value = 0) := by
        simp [vmcSecond, remains]
      have behind := ih further
      by_cases here : value = 0
      · rw [if_pos here] at round
        cases fiveSecCheck with
        | true =>
            cases round
            simpa [seconds, pulses, kind, here] using behind
        | false =>
            cases round
            simpa [seconds, pulses, kind, here] using behind
      · rw [if_neg here] at round
        cases round
        simpa [seconds, pulses, kind, here] using behind

theorem checkTcpStatusTask_pulses (check1min : Bool) (samples : List Timeval) :
    seconds (checkTcpStatusTask localtime check1min samples) =
      pulses (tcpSecond localtime) check1min (seconds samples) := by
  induction samples generalizing check1min with
  | nil => rfl
  | cons tv rest ih =>
      by_cases here : (localtime tv.tvSec).tmSec = 15
      · have kind : tcpSecond localtime tv.tvSec = true := decide_eq_true here
        have later := ih true
        cases check1min with
        | true =>
            simpa [checkTcpStatusTask, checkTcpStatusRound, here, seconds, pulses, kind] using later
        | false =>
            simpa [checkTcpStatusTask, checkTcpStatusRound, here, seconds, pulses, kind] using later
      · have kind : tcpSecond localtime tv.tvSec = false := decide_eq_false here
        simpa [checkTcpStatusTask, checkTcpStatusRound, here, seconds, pulses, kind] using ih false

/-- The seconds of readings that get later do not go back. -/
theorem seconds_sorted {samples : List Timeval} (increasing : samples.Pairwise Earlier) :
    (seconds samples).Pairwise (· ≤ ·) := by
  apply List.pairwise_map.mpr
  apply increasing.imp
  intro one other earlier
  unfold Earlier at earlier
  omega

end Rounds

/-- Each task works once for each second of its kind that it reads exactly when it never reads
two different ones of them in a row. -/
theorem tasks_once_iff (localtime : Int → Tm) (checkVmcstatusSec : Int) {samples : List Timeval}
    (increasing : samples.Pairwise Earlier) :
    (ProcessedOnce localtime samples (processVmStateTask localtime false samples) ↔
        Separated (processSecond localtime) (seconds samples)) ∧
      (∀ calls, checkVmStatusTask localtime checkVmcstatusSec false samples = some calls →
        (OncePerMoment (vmcSecond localtime checkVmcstatusSec) (seconds samples)
            (seconds calls) ↔
          Separated (vmcSecond localtime checkVmcstatusSec) (seconds samples))) ∧
      (OncePerMoment (tcpSecond localtime) (seconds samples)
          (seconds (checkTcpStatusTask localtime false samples)) ↔
        Separated (tcpSecond localtime) (seconds samples)) := by
  have sorted := seconds_sorted increasing
  refine ⟨?_, ?_, ?_⟩
  · rw [ProcessedOnce, processVmStateTask_pulses, oncePerMoment_iff _ sorted]
    constructor
    · intro once
      exact once.1
    · intro separated
      exact ⟨separated, fun call called => processVmStateTask_ttime called⟩
  · intro calls done
    rw [checkVmStatusTask_pulses done]
    exact oncePerMoment_iff _ sorted
  · rw [checkTcpStatusTask_pulses]
    exact oncePerMoment_iff _ sorted

/-- A clock of which only the seconds run. -/
def minute (tvSec : Int) : Tm :=
  { juneNoon with
    tmSec := tvSec % 60
    secValid := by omega }

/-- With a look at the clock between them, both seconds have their call. -/
theorem tasks_once_between :
    ProcessedOnce minute [⟨2, 0⟩, ⟨4, 0⟩, ⟨7, 0⟩]
        (processVmStateTask minute false [⟨2, 0⟩, ⟨4, 0⟩, ⟨7, 0⟩]) := by
  have increasing : ([⟨2, 0⟩, ⟨4, 0⟩, ⟨7, 0⟩] : List Timeval).Pairwise Earlier := by decide
  apply (tasks_once_iff minute 5 increasing).1.mpr
  decide

/-- Work of five seconds, or a pause of a minute, and the next second has no call. -/
theorem tasks_skip :
    ([⟨2, 0⟩, ⟨7, 0⟩] : List Timeval).Pairwise Earlier ∧
      ¬ ProcessedOnce minute [⟨2, 0⟩, ⟨7, 0⟩]
        (processVmStateTask minute false [⟨2, 0⟩, ⟨7, 0⟩]) ∧
      checkVmStatusTask minute 5 false [⟨0, 0⟩, ⟨5, 0⟩] = some [⟨0, 0⟩] ∧
      checkTcpStatusTask minute false [⟨15, 0⟩, ⟨75, 0⟩] = [⟨15, 0⟩] := by
  refine ⟨by decide, ?_, by decide, by decide⟩
  intro processed
  have once := processed.1 7
  rw [processVmStateTask_pulses] at once
  exact absurd once (by decide)

end VnfMonitoring.HostPeriodic
