import VnfMonitoring.Lib.Runs

set_option autoImplicit false

/- The lines that `xprint` writes to the log file while the rotation of `logdir.c` opens and
closes it. Both hold `print_mutex`, so a call is one step. -/
namespace VnfMonitoring.Xprint

open VnfMonitoring.Runs

def dbgTerminal : UInt32 := 0x00000001

def dbgFile : UInt32 := 0x00000002

def dbgThis : UInt32 := 0x00000004

def dbgMaxMsgLen : Nat := 65536

def rowPrint : UInt32 := 0x80000000

def traceMask : UInt32 := 0x7FFFFFF0

def trcLevelMask : UInt32 := 0x0000000F

def timeOn : UInt8 := 1

/-- The flags `FMS_CLB` to `FMS_PQM` with their names. -/
def modules : List (UInt32 × String) :=
  [(0x10, "[ CLB ] "), (0x20, "[ DBM ] "), (0x40, "[ HST ] "), (0x80, "[ VMC ] "),
    (0x100, "[ BPT ] "), (0x200, "[ PQM ] ")]

/-- The levels `FMS_LOOKS` to `FMS_INFO5` with their names. -/
def levels : List (UInt32 × String) :=
  [(1, "[ LOOKS ] "), (2, "[ FATAL ] "), (3, "[  BUG  ] "), (4, "[ ERROR ] "), (5, "[WARNING] "),
    (6, "[ INFO1 ] "), (7, "[ INFO2 ] "), (8, "[ INFO3 ] "), (9, "[ INFO4 ] "), (10, "[ INFO5 ] ")]

def newline : UInt8 := 10

/-- The globals that `init_xprint` sets, and `gbPrintTime`. -/
structure Settings where
  gbDebugLevel : UInt8
  glTaskTraceMask : UInt32
  gbTrace : UInt32
  gbPrintTime : UInt8

def Settings.traces (g : Settings) (flag : UInt32) : Bool := g.gbTrace &&& flag ≠ 0

/-- A call: its level, the text it formats into `dbgstr`, and the one that the clock of this
call gives for `timestr`, absent when `localtime` fails. -/
structure Call where
  msgLevel : UInt32
  dbgstr : List UInt8
  stamp : Option (List UInt8)

def Call.isRow (call : Call) : Bool := call.msgLevel &&& rowPrint ≠ 0

/-- What an `fprintf` to the log file writes: `timestr` with the value it was given in this
call, if any, and the stamp of the call; `stackstr`; or the message. -/
inductive Write where
  | timestr (value stamp : Option (List UInt8))
  | stackstr (value : Option String)
  | dbgstr (text : List UInt8)
  deriving DecidableEq, Repr

/-- The static variables, `logfp`, and all that has been written to log files. -/
structure Logger where
  lastc : UInt8
  lastcFile : UInt8
  logfp : Bool
  written : List Write
  deriving DecidableEq, Repr

def start : Logger := ⟨newline, newline, false, []⟩

/-- The test in front of the whole body. -/
def shown (g : Settings) (msgLevel : UInt32) : Bool :=
  (msgLevel &&& trcLevelMask).toNat ≤ g.gbDebugLevel.toNat ∧
    traceMask &&& msgLevel &&& g.glTaskTraceMask ≠ 0

/-- `timestr` as the call leaves it in front of the output; nothing when it was not set. -/
def timestr (g : Settings) (s : Logger) (call : Call) : Option (List UInt8) :=
  if ¬ call.isRow ∧ g.gbPrintTime = timeOn ∧ s.lastc = newline ∧ g.traces dbgThis then call.stamp
  else none

/-- `stackstr` with the last module that the level names, and then with its level. -/
def stackModule (msgLevel : UInt32) : Option String :=
  ((modules.filter fun named => msgLevel &&& named.1 ≠ 0).getLast?).map Prod.snd

def stackLevel (msgLevel : UInt32) : Option String :=
  ((levels.find? fun named => msgLevel &&& trcLevelMask = named.1).map Prod.snd).or
    (stackModule msgLevel)

/-- What is written at the start of a line of the file. -/
def lineHead (g : Settings) (s : Logger) (call : Call) : List Write :=
  .timestr (timestr g s call) call.stamp ::
    if call.isRow then []
    else [.stackstr (stackModule call.msgLevel), .stackstr (stackLevel call.msgLevel)]

/-- `if (len) lastc = dbgstr[len - 1]`. -/
def lastOf (old : UInt8) (text : List UInt8) : UInt8 := text.getLast?.getD old

/-- The body of `xprint` behind `vsprintf`. -/
def print (g : Settings) (s : Logger) (call : Call) : Logger :=
  let terminal := if g.traces dbgTerminal then lastOf s.lastc call.dbgstr else s.lastc
  let lastc := if g.traces dbgThis then lastOf terminal call.dbgstr else terminal
  if g.traces dbgFile ∧ s.logfp then
    { lastc
      lastcFile := lastOf s.lastcFile call.dbgstr
      logfp := s.logfp
      written := s.written ++ (if s.lastcFile = newline then lineHead g s call else []) ++
        [.dbgstr call.dbgstr] }
  else { s with lastc }

/-- `xprint`; no value when `vsprintf` writes past `dbgstr`. -/
def xprint (g : Settings) (s : Logger) (call : Call) : Option Logger :=
  if shown g call.msgLevel then
    if call.dbgstr.length < dbgMaxMsgLen then some (print g s call) else none
  else some s

inductive Event where
  | xprint (call : Call)
  | closeLog
  | createLog (opened : Bool)

def step (g : Settings) (s : Logger) : Event → Option Logger
  | .xprint call => Xprint.xprint g s call
  | .closeLog => some { s with logfp := false }
  | .createLog opened => some { s with logfp := opened }

/-- A stamp that was formatted in the call that writes it. -/
def Write.Fresh : Write → Prop
  | .timestr value stamp => value.isSome ∧ value = stamp
  | _ => True

instance : DecidablePred Write.Fresh
  | .timestr value stamp => inferInstanceAs (Decidable (value.isSome ∧ value = stamp))
  | .stackstr _ => .isTrue trivial
  | .dbgstr _ => .isTrue trivial

def Stamped (s : Logger) : Prop := ∀ write ∈ s.written, write.Fresh

/-- A call that starts a line of the file also meets the guard of the stamp. -/
def StampSet (g : Settings) (s : Logger) : Event → Prop
  | .xprint call =>
      shown g call.msgLevel → g.traces dbgFile → s.logfp → s.lastcFile = newline →
        ¬ call.isRow ∧ g.gbPrintTime = timeOn ∧ s.lastc = newline ∧ g.traces dbgThis ∧
          call.stamp.isSome
  | _ => True

section Lines

variable {g : Settings} {s next : Logger} {call : Call}

theorem timestr_fresh_iff :
    (Write.timestr (timestr g s call) call.stamp).Fresh ↔
      ¬ call.isRow ∧ g.gbPrintTime = timeOn ∧ s.lastc = newline ∧ g.traces dbgThis ∧
        call.stamp.isSome := by
  change (timestr g s call).isSome ∧ timestr g s call = call.stamp ↔ _
  unfold timestr
  split
  · rename_i guard
    simp [guard]
  · rename_i guard
    simp only [Option.isSome_none, Bool.false_eq_true, false_and, false_iff]
    exact fun all => guard ⟨all.1, all.2.1, all.2.2.1, all.2.2.2.1⟩

theorem lineHead_fresh_iff :
    (∀ write ∈ lineHead g s call, write.Fresh) ↔
      (Write.timestr (timestr g s call) call.stamp).Fresh := by
  unfold lineHead
  split <;> simp [Write.Fresh]

theorem print_stamped_iff (stamped : Stamped s) :
    Stamped (print g s call) ↔
      (g.traces dbgFile → s.logfp → s.lastcFile = newline →
        (Write.timestr (timestr g s call) call.stamp).Fresh) := by
  unfold print Stamped
  by_cases written : g.traces dbgFile ∧ s.logfp
  · have last : (Write.dbgstr call.dbgstr).Fresh := trivial
    by_cases begins : s.lastcFile = newline
    · simp only [written, and_self, if_true, begins, List.forall_mem_append,
        List.forall_mem_singleton, last, and_true, true_imp_iff, lineHead_fresh_iff]
      exact and_iff_right stamped
    · simp only [written, and_self, if_true, begins, if_false, List.append_nil,
        List.forall_mem_append, List.forall_mem_singleton, last, and_true, false_imp_iff,
        implies_true, iff_true]
      exact stamped
  · rw [if_neg written]
    exact iff_of_true stamped fun file opened => absurd ⟨file, opened⟩ written

theorem step_stamped_iff {event : Event} (stamped : Stamped s)
    (stepped : step g s event = some next) : Stamped next ↔ StampSet g s event := by
  cases event with
  | closeLog | createLog opened =>
      cases stepped
      exact iff_of_true stamped trivial
  | xprint call =>
      simp only [step, xprint] at stepped
      split at stepped
      · rename_i visible
        split at stepped
        · cases stepped
          rw [print_stamped_iff stamped, timestr_fresh_iff]
          simp only [StampSet, visible, true_imp_iff]
        · cases stepped
      · rename_i hidden
        cases stepped
        exact iff_of_true stamped fun visible => absurd visible hidden

/-- Every line of the log starts with a stamp of its own call exactly if every call that
starts one meets the guard of the stamp. -/
theorem log_stamped_iff (g : Settings) (events : List Event) :
    (∀ taken, taken <+: events → ∀ middle, run (step g) start taken = some middle →
        Stamped middle) ↔
      AllSteps (step g) (StampSet g) start events :=
  run_exact Stamped Stamped (fun _ stamped => stamped)
    (fun _ _ _ stamped set stepped => (step_stamped_iff stamped stepped).mpr set)
    (fun _ _ _ stamped unset stepped => mt (step_stamped_iff stamped stepped).mp unset)
    (by simp [Stamped, start]) events

/-- A call with a complete line, at a time that `localtime` knows. -/
def Plain : Event → Prop
  | .xprint call => ¬ call.isRow ∧ call.stamp.isSome ∧ call.dbgstr.getLast? = some newline
  | _ => True

/-- Both outputs are at the start of a line. -/
def LinesEnded (s : Logger) : Prop := s.lastc = newline ∧ s.lastcFile = newline

theorem step_linesEnded {event : Event} (ended : LinesEnded s) (plain : Plain event)
    (stepped : step g s event = some next) : LinesEnded next := by
  cases event with
  | closeLog | createLog opened =>
      cases stepped
      exact ended
  | xprint call =>
      have last (old : UInt8) : lastOf old call.dbgstr = newline := by
        rw [lastOf, plain.2.2, Option.getD_some]
      simp only [step, xprint] at stepped
      split at stepped
      · split at stepped
        · cases stepped
          unfold print LinesEnded
          simp only [last, ended.1]
          split_ifs <;> simp [ended.2]
        · cases stepped
      · cases stepped
        exact ended

/-- Complete lines are stamped afresh however the file is rotated. -/
theorem plain_log_stamped (time : g.gbPrintTime = timeOn) (this : g.traces dbgThis)
    {events : List Event} {final : Logger} (plain : ∀ event ∈ events, Plain event)
    (reached : run (step g) start events = some final) : Stamped final := by
  have both := run_invariant_of (fun s => Stamped s ∧ LinesEnded s)
    (fun s event next inv plain stepped => ?_) ⟨by simp [Stamped, start], rfl, rfl⟩
    (allSteps_of_forall plain) reached
  · exact both.1
  · obtain ⟨stamped, ended⟩ := inv
    refine ⟨(step_stamped_iff stamped stepped).mpr ?_, step_linesEnded ended plain stepped⟩
    cases event with
    | closeLog | createLog opened => trivial
    | xprint call => exact fun _ _ _ _ => ⟨plain.1, time, ended.1, this, plain.2.1⟩

end Lines

/-- A call at level `FMS_CLB | FMS_ERROR`, all within one second. -/
def errorCall (text : List UInt8) : Call := ⟨0x14, text, some [91, 49, 93]⟩

/-- `DBG_FILE | DBG_THIS`. -/
def fileAndThis : Settings := ⟨4, 0xFFFFFFFF, 6, timeOn⟩

/-- A message without a newline between two log files, and the next line. -/
def rotation : List Event :=
  [.createLog true, .xprint (errorCall [97, 10]), .closeLog, .xprint (errorCall [98]),
    .createLog true, .xprint (errorCall [99, 10])]

theorem rotation_unstamped :
    ∃ final, run (step fileAndThis) start rotation = some final ∧
      Write.timestr none (some [91, 49, 93]) ∈ final.written ∧ ¬ Stamped final := by
  have evaluated : (run (step fileAndThis) start rotation).any (fun final =>
      decide (Write.timestr none (some [91, 49, 93]) ∈ final.written)) = true := by
    decide
  obtain ⟨final, reached, member⟩ := exists_of_any evaluated
  exact ⟨final, reached, member, fun stamped => absurd (stamped _ member).1 (by decide)⟩

end VnfMonitoring.Xprint
