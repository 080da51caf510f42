import VnfMonitoring.Kutil
import VnfMonitoring.Lib.Runs

set_option autoImplicit false

/- The log rotation of `logdir.c`: a directory for each date and a file in it for each hour,
both found by comparing the texts of `time_stamp`. -/
namespace VnfMonitoring.Logdir

open VnfMonitoring.DbmbStatus VnfMonitoring.Timer VnfMonitoring.Kutil VnfMonitoring.Runs

/-- What `strtol` makes of a number, assigned to an `int`. -/
def intOf (value : Int) : Int :=
  (Int32.ofInt (max (-9223372036854775808) (min value 9223372036854775807))).toInt

/-- `%d` in `sscanf`, with the largest width of `%02d` and the like: the number and the text
behind it. -/
def scanInt (width : Option Nat) (text : List UInt8) : Option (Int × List UInt8) :=
  let text := text.dropWhile isSpace
  let field := (width.map text.take).getD text
  let sign := if field.head? = some 43 ∨ field.head? = some 45 then 1 else 0
  let digits := (field.drop sign).takeWhile isDigit
  if digits = [] then none
  else
    let value : Int := digitsValue digits
    some (intOf (if field.head? = some 45 then -value else value),
      text.drop (sign + digits.length))

/-- A character of a format that stands for itself. -/
def scanChar (c : UInt8) (text : List UInt8) : Option (List UInt8) :=
  if text.head? = some c then some text.tail else none

/-- The variables of one reading of the clock. -/
structure Ymdh where
  year : Int
  month : Int
  date : Int
  hour : Int
  deriving DecidableEq

/-- `sscanf` with `"%d-%d-%d, %02d"`. A text that does not fill all variables has no value. -/
def scanYmdh (text : List UInt8) : Option Ymdh := do
  let (year, text) ← scanInt none text
  let (month, text) ← (scanChar 45 text).bind (scanInt none)
  let (date, text) ← (scanChar 45 text).bind (scanInt none)
  let text ← scanChar 44 text
  let (hour, _) ← scanInt (some 2) text
  some ⟨year, month, date, hour⟩

/-- The static variables. The log file is known by its path. -/
structure Log where
  baseLogPath : List UInt8
  oYear : Int
  oMonth : Int
  oDate : Int
  oHour : Int
  logfp : Option (List UInt8)
  deriving DecidableEq

/-- `BaseLogPath` and `init_ymdh`. -/
def initializeLog (logPath : List UInt8) : Log := ⟨logPath, 0, 0, 0, 0, none⟩

/-- `comp_ymdh`, with the text of `time_stamp`. -/
def compYmdh (s : Log) (stamp : List UInt8) : Option Int :=
  (scanYmdh stamp).map fun n =>
    if s.oYear ≠ n.year then 0
    else if s.oMonth ≠ n.month then 0
    else if s.oDate ≠ n.date then 0
    else if s.oHour ≠ n.hour then 0
    else -1

/-- `"%s/%d.%02d.%02d"`. -/
def directoryPath (base : List UInt8) (year month date : Int) : List UInt8 :=
  base ++ chars "/" ++ printInt 0 year ++ chars "." ++ printInt 2 month ++ chars "." ++
    printInt 2 date

/-- `"%s/%02d.LOG"`. -/
def filePath (logPath : List UInt8) (hour : Int) : List UInt8 :=
  logPath ++ chars "/" ++ printInt 2 hour ++ chars ".LOG"

/-- The size of the buffers for paths. A text that is longer has no value. -/
def pathSize : Nat := 1024

def stored (path : List UInt8) : Option (List UInt8) :=
  if path.length < pathSize then some path else none

/-- `createDirectory`, with the path it writes. `mkdirOk` says that the directory is there
after `mkdir`. -/
def createDirectory (s : Log) (stamp : List UInt8) (mkdirOk : Bool) :
    Option (Int × List UInt8 × Log) :=
  (scanYmdh stamp).bind fun n =>
    let logPath :=
      if n.date ≠ s.oDate then
        if n.year ≠ s.oYear then
          if n.month ≠ s.oMonth then directoryPath s.baseLogPath n.year n.month n.date
          else directoryPath s.baseLogPath n.year s.oMonth n.date
        else
          if n.month ≠ s.oMonth then directoryPath s.baseLogPath s.oYear n.month n.date
          else directoryPath s.baseLogPath s.oYear s.oMonth n.date
      else
        if n.year ≠ s.oYear then
          if n.month ≠ s.oMonth then directoryPath s.baseLogPath n.year n.month s.oDate
          else directoryPath s.baseLogPath n.year s.oMonth s.oDate
        else
          if n.month ≠ s.oMonth then directoryPath s.baseLogPath s.oYear n.month s.oDate
          else directoryPath s.baseLogPath s.oYear s.oMonth s.oDate
    (stored logPath).map fun logPath =>
      if mkdirOk then
        (0, logPath, { s with oYear := n.year, oMonth := n.month, oDate := n.date,
                              oHour := n.hour })
      else (-1, logPath, s)

/-- `createLog`. `fopenOk` says that `fopen` opens the file. -/
def createLog (s : Log) (logPath stamp : List UInt8) (fopenOk : Bool) : Option (Int × Log) :=
  (scanYmdh stamp).bind fun n =>
    (stored (filePath logPath n.hour)).map fun logfile =>
      if fopenOk then (0, { s with logfp := some logfile }) else (-1, { s with logfp := none })

/-- `closeLog`. -/
def closeLog (s : Log) : Log := { s with logfp := none }

/-- One call of `compareLog`: the clock as the three functions read it one after the other,
and what the file system does. -/
structure Call where
  compare : Timeval
  directory : Timeval
  log : Timeval
  mkdirOk : Bool
  fopenOk : Bool

/-- `compareLog`. -/
def compareLog (localtime : Int → Tm) (s : Log) (call : Call) : Option Log :=
  (compYmdh s (timeStamp localtime call.compare)).bind fun result =>
    if result = 0 then
      (createDirectory (closeLog s) (timeStamp localtime call.directory) call.mkdirOk).bind
        fun (ret, logPath, s) =>
          if ret = 0 then
            (createLog s logPath (timeStamp localtime call.log) call.fopenOk).map Prod.snd
          else some s
    else some s

section Scan

theorem digitsValue_zeros (k : Nat) (digits : List UInt8) :
    digitsValue (List.replicate k 48 ++ digits) = digitsValue digits := by
  induction k with
  | zero => rfl
  | succ k ih => exact ih

/-- A number with zeros in front of it. -/
theorem padded_digits (k n : Nat) :
    List.replicate k 48 ++ decimal n ≠ [] ∧
      (∀ c ∈ List.replicate k 48 ++ decimal n, isDigit c = true) ∧
      digitsValue (List.replicate k 48 ++ decimal n) = n := by
  obtain ⟨some_, digits, value⟩ := decimal_digits n
  refine ⟨?_, ?_, (digitsValue_zeros k _).trans value⟩
  · simp [some_]
  · intro c member
    rcases List.mem_append.mp member with zero | inside
    · rw [List.eq_of_mem_replicate zero]
      decide
    · exact digits c inside

/-- Digits up to something else are read to their end. -/
theorem takeWhile_digits {digits rest : List UInt8} (all : ∀ c ∈ digits, isDigit c = true)
    (stop : ∀ c ∈ rest.head?, isDigit c = false) : (digits ++ rest).takeWhile isDigit = digits := by
  rw [List.takeWhile_append_of_pos all]
  cases rest with
  | nil => simp
  | cons c rest => simp [stop c rfl]

theorem intOf_eq {value : Int} (low : -2147483648 ≤ value) (high : value ≤ 2147483647) :
    intOf value = value := by
  have inside : max (-9223372036854775808) (min value 9223372036854775807) = value := by omega
  rw [intOf, inside]
  exact Int32.toInt_ofInt_of_le low (Int.lt_of_le_of_lt high (by decide))

theorem scanInt_digits {width : Option Nat} {digits rest : List UInt8} (some_ : digits ≠ [])
    (all : ∀ c ∈ digits, isDigit c = true) (stop : ∀ c ∈ rest.head?, isDigit c = false)
    (fits : ∀ w ∈ width, w = digits.length) :
    scanInt width (digits ++ rest) = some (intOf (digitsValue digits), rest) := by
  obtain ⟨behind, field, ends⟩ : ∃ behind : List UInt8,
      (width.map (digits ++ rest).take).getD (digits ++ rest) = digits ++ behind ∧
        ∀ c ∈ behind.head?, isDigit c = false := by
    cases width with
    | none => exact ⟨rest, rfl, stop⟩
    | some w =>
        refine ⟨[], ?_, by simp⟩
        rw [fits w rfl]
        simp
  obtain ⟨first, more, rfl⟩ := List.exists_cons_of_ne_nil some_
  obtain ⟨plain, noPlus, noMinus⟩ := isDigit_plain (all first List.mem_cons_self)
  have blanks : (first :: more ++ rest).dropWhile isSpace = first :: more ++ rest := by
    rw [List.cons_append, List.dropWhile_cons_of_neg (by simp [plain])]
  have head : (first :: more ++ behind).head? = some first := rfl
  unfold scanInt
  simp only [blanks, field, head, Option.some.injEq, noPlus, noMinus, or_self, if_false,
    List.drop_zero, takeWhile_digits all ends, if_neg some_, Nat.zero_add, List.drop_left]

theorem scanInt_negative {digits rest : List UInt8} (some_ : digits ≠ [])
    (all : ∀ c ∈ digits, isDigit c = true) (stop : ∀ c ∈ rest.head?, isDigit c = false) :
    scanInt none (45 :: digits ++ rest) = some (intOf (-digitsValue digits), rest) := by
  have blanks : (45 :: digits ++ rest).dropWhile isSpace = 45 :: digits ++ rest := by
    rw [List.cons_append, List.dropWhile_cons_of_neg (by decide)]
  have head : (45 :: digits ++ rest).head? = some 45 := rfl
  have behind : (45 :: digits ++ rest).drop 1 = digits ++ rest := rfl
  unfold scanInt
  simp only [blanks, Option.map_none, Option.getD_none, head, or_true, if_true, behind,
    takeWhile_digits all stop, if_neg some_]
  rw [← List.drop_drop, behind, List.drop_left]

/-- `%d` reads what `%d` printed. -/
theorem scanInt_printInt {width : Nat} {value : Int} {rest : List UInt8}
    (low : -2147483648 ≤ value) (high : value ≤ 2147483647)
    (stop : ∀ c ∈ rest.head?, isDigit c = false) :
    scanInt none (printInt width value ++ rest) = some (value, rest) := by
  unfold printInt
  split
  · obtain ⟨some_, all, number⟩ :=
      padded_digits (width - 1 - (decimal value.natAbs).length) value.natAbs
    have same : -((value.natAbs : Nat) : Int) = value := by omega
    rw [scanInt_negative some_ all stop, number, same, intOf_eq low high]
  · obtain ⟨some_, all, number⟩ :=
      padded_digits (width - (decimal value.natAbs).length) value.natAbs
    have same : ((value.natAbs : Nat) : Int) = value := by omega
    rw [scanInt_digits some_ all stop (by simp), number, same, intOf_eq low high]

/-- Two digits are printed for a number that has no more. -/
theorem scanInt_two {value : Int} {rest : List UInt8} (low : 0 ≤ value) (high : value < 100)
    (stop : ∀ c ∈ rest.head?, isDigit c = false) :
    scanInt (some 2) (printInt 2 value ++ rest) = some (value, rest) := by
  have nonneg : ¬ value < 0 := by omega
  obtain ⟨some_, all, number⟩ := padded_digits (2 - (decimal value.natAbs).length) value.natAbs
  have short : (decimal value.natAbs).length ≤ 2 := by
    unfold decimal
    split
    · exact Nat.le_succ 1
    · unfold decimal
      rw [if_pos (by omega)]
      exact Nat.le_refl 2
  have width : (List.replicate (2 - (decimal value.natAbs).length) 48 ++
      decimal value.natAbs).length = 2 := by
    rw [List.length_append, List.length_replicate]
    omega
  have fits : ∀ w ∈ some 2, w = (List.replicate (2 - (decimal value.natAbs).length) 48 ++
      decimal value.natAbs).length := by
    intro w member
    cases member
    exact width.symm
  have same : ((value.natAbs : Nat) : Int) = value := by omega
  rw [printInt, if_neg nonneg, scanInt_digits some_ all stop fits, number, same,
    intOf_eq (by omega) (by omega)]

theorem scanInt_blank (width : Option Nat) (text : List UInt8) :
    scanInt width (32 :: text) = scanInt width text := rfl

end Scan

/-- The variables of a time. -/
def ymdhOf (ctime : Tm) : Ymdh :=
  ⟨ctime.tmYear + 1900, ctime.tmMon + 1, ctime.tmMday, ctime.tmHour⟩

/-- The text of `time_stamp` is read back. -/
theorem scanYmdh_timeStamp (localtime : Int → Tm) (tv : Timeval) :
    scanYmdh (timeStamp localtime tv) = some (ymdhOf (localtime tv.tvSec)) := by
  let ctime := localtime tv.tvSec
  have years := ctime.yearValid
  have months := ctime.monValid
  have days := ctime.mdayValid
  have hours := ctime.hourValid
  let behind := chars ":" ++ (printInt 2 ctime.tmMin ++ (chars ":" ++ (printInt 2 ctime.tmSec ++
    (chars "." ++ printInt 3 (tv.tvUsec.tdiv 1000)))))
  have text : timeStamp localtime tv =
      printInt 0 (ctime.tmYear + 1900) ++ (45 :: (printInt 2 (ctime.tmMon + 1) ++
        (45 :: (printInt 2 ctime.tmMday ++ (44 :: 32 :: (printInt 2 ctime.tmHour ++
          behind)))))) := by
    unfold timeStamp
    simp only [List.append_assoc]
    rfl
  have year : scanInt none (printInt 0 (ctime.tmYear + 1900) ++ (45 :: (printInt 2
      (ctime.tmMon + 1) ++ (45 :: (printInt 2 ctime.tmMday ++ (44 :: 32 ::
        (printInt 2 ctime.tmHour ++ behind))))))) = some (ctime.tmYear + 1900, _) :=
    scanInt_printInt years.1 years.2 (by simp [isDigit])
  have month : scanInt none (printInt 2 (ctime.tmMon + 1) ++
      (45 :: (printInt 2 ctime.tmMday ++ (44 :: 32 :: (printInt 2 ctime.tmHour ++ behind))))) =
      some (ctime.tmMon + 1, _) := scanInt_printInt (by omega) (by omega) (by simp [isDigit])
  have date : scanInt none (printInt 2 ctime.tmMday ++
      (44 :: 32 :: (printInt 2 ctime.tmHour ++ behind))) = some (ctime.tmMday, _) :=
    scanInt_printInt (by omega) (by omega) (by simp [isDigit])
  have hour : scanInt (some 2) (32 :: (printInt 2 ctime.tmHour ++ behind)) =
      some (ctime.tmHour, behind) := by
    rw [scanInt_blank]
    exact scanInt_two hours.1 (by omega) (by simp [behind, chars, isDigit])
  have minus (rest : List UInt8) : scanChar 45 (45 :: rest) = some rest := rfl
  have comma (rest : List UInt8) : scanChar 44 (44 :: rest) = some rest := rfl
  rw [text, scanYmdh]
  simp only [Option.bind_eq_bind, year, Option.bind_some, minus, month, date, comma, hour]
  rfl

/-- `o_year`, `o_month`, `o_date` and `o_hour`. -/
def Log.recorded (s : Log) : Ymdh := ⟨s.oYear, s.oMonth, s.oDate, s.oHour⟩

/-- The open file is the one of the recorded hour, in the directory of the recorded date. -/
def Named (s : Log) : Prop :=
  s.logfp = some (filePath (directoryPath s.baseLogPath s.oYear s.oMonth s.oDate) s.oHour)

/-- The directory of a time. -/
def Ymdh.directory (n : Ymdh) (base : List UInt8) : List UInt8 :=
  directoryPath base n.year n.month n.date

/-- The call finds another hour, or another date, and opens a file for it. -/
def Rotates (localtime : Int → Tm) (s : Log) (call : Call) : Prop :=
  ymdhOf (localtime call.compare.tvSec) ≠ s.recorded ∧ call.mkdirOk = true ∧ call.fopenOk = true

/-- No hour begins between the readings for the directory and for the file. -/
def SameHour (localtime : Int → Tm) (call : Call) : Prop :=
  (localtime call.log.tvSec).tmHour = (localtime call.directory.tvSec).tmHour

section Calls

variable {localtime : Int → Tm} {s next : Log} {call : Call}

theorem stored_eq {path buffer : List UInt8} (fits : stored path = some buffer) :
    buffer = path := by
  unfold stored at fits
  split at fits
  · exact (Option.some.inj fits).symm
  · cases fits

theorem compYmdh_eq (localtime : Int → Tm) (s : Log) (tv : Timeval) :
    compYmdh s (timeStamp localtime tv) =
      some (if ymdhOf (localtime tv.tvSec) = s.recorded then -1 else 0) := by
  rw [compYmdh, scanYmdh_timeStamp, Option.map_some]
  congr 1
  by_cases same : ymdhOf (localtime tv.tvSec) = s.recorded
  · rw [if_pos same, same]
    simp [Log.recorded]
  · rw [if_neg same]
    by_contra kept
    apply same
    split at kept
    · exact absurd rfl kept
    split at kept
    · exact absurd rfl kept
    split at kept
    · exact absurd rfl kept
    split at kept
    · exact absurd rfl kept
    · rename_i year month date hour
      rw [Log.recorded, Decidable.not_not.mp year, Decidable.not_not.mp month,
        Decidable.not_not.mp date, Decidable.not_not.mp hour]

/-- Whichever fields are old and whichever are new, they spell the new date. -/
theorem createDirectory_eq (localtime : Int → Tm) (s : Log) (tv : Timeval) (mkdirOk : Bool) :
    createDirectory s (timeStamp localtime tv) mkdirOk =
      (stored ((ymdhOf (localtime tv.tvSec)).directory s.baseLogPath)).map fun logPath =>
        if mkdirOk then
          (0, logPath,
            { s with oYear := (ymdhOf (localtime tv.tvSec)).year,
                     oMonth := (ymdhOf (localtime tv.tvSec)).month,
                     oDate := (ymdhOf (localtime tv.tvSec)).date,
                     oHour := (ymdhOf (localtime tv.tvSec)).hour })
        else (-1, logPath, s) := by
  rw [createDirectory, scanYmdh_timeStamp, Option.bind_some, Ymdh.directory]
  by_cases date : (ymdhOf (localtime tv.tvSec)).date = s.oDate <;>
    by_cases year : (ymdhOf (localtime tv.tvSec)).year = s.oYear <;>
    by_cases month : (ymdhOf (localtime tv.tvSec)).month = s.oMonth <;>
    simp [date, year, month]

/-- A call that finds nothing changed does nothing. -/
theorem compareLog_same (same : ymdhOf (localtime call.compare.tvSec) = s.recorded) :
    compareLog localtime s call = some s := by
  rw [compareLog, compYmdh_eq, if_pos same]
  rfl

/-- The other calls close the file. They record the time of the second reading and take the
hour of the file from the third. -/
theorem compareLog_changed (changed : ymdhOf (localtime call.compare.tvSec) ≠ s.recorded)
    (done : compareLog localtime s call = some next) :
    next.baseLogPath = s.baseLogPath ∧
      ((call.mkdirOk = true ∧ call.fopenOk = true ∧
          next.recorded = ymdhOf (localtime call.directory.tvSec) ∧
          next.logfp = some (filePath
            (directoryPath next.baseLogPath next.oYear next.oMonth next.oDate)
            (localtime call.log.tvSec).tmHour)) ∨
        (¬ (call.mkdirOk = true ∧ call.fopenOk = true) ∧ next.logfp = none)) := by
  rw [compareLog, compYmdh_eq, if_neg changed, Option.bind_some, if_pos rfl,
    createDirectory_eq] at done
  obtain ⟨⟨ret, logPath, after⟩, made, rest⟩ := Option.bind_eq_some_iff.mp done
  obtain ⟨path, fits, made⟩ := Option.map_eq_some_iff.mp made
  cases stored_eq fits
  by_cases mkdirOk : call.mkdirOk
  · rw [if_pos mkdirOk] at made
    cases made
    dsimp only at rest
    rw [if_pos rfl, createLog, scanYmdh_timeStamp, Option.bind_some] at rest
    obtain ⟨⟨ret, last⟩, opened, rfl⟩ := Option.map_eq_some_iff.mp rest
    obtain ⟨file, fits, opened⟩ := Option.map_eq_some_iff.mp opened
    cases stored_eq fits
    by_cases fopenOk : call.fopenOk
    · rw [if_pos fopenOk] at opened
      cases opened
      exact ⟨rfl, Or.inl ⟨mkdirOk, fopenOk, rfl, rfl⟩⟩
    · rw [if_neg fopenOk] at opened
      cases opened
      exact ⟨rfl, Or.inr ⟨fun both => fopenOk both.2, rfl⟩⟩
  · rw [if_neg mkdirOk] at made
    cases made
    dsimp only at rest
    rw [if_neg (show ¬ (-1 : Int) = 0 by decide)] at rest
    cases rest
    exact ⟨rfl, Or.inr ⟨fun both => mkdirOk both.1, rfl⟩⟩

/-- A rotation whose path fits its buffer finishes. -/
theorem compareLog_opens (rotates : Rotates localtime s call)
    (fits : (filePath ((ymdhOf (localtime call.directory.tvSec)).directory s.baseLogPath)
      (localtime call.log.tvSec).tmHour).length < pathSize) :
    ∃ next, compareLog localtime s call = some next := by
  obtain ⟨changed, mkdirOk, fopenOk⟩ := rotates
  have shorter (logPath : List UInt8) (hour : Int) :
      logPath.length ≤ (filePath logPath hour).length := by
    unfold filePath
    rw [List.append_assoc, List.append_assoc, List.length_append]
    omega
  let path := (ymdhOf (localtime call.directory.tvSec)).directory s.baseLogPath
  have made : stored path = some path := if_pos (Nat.lt_of_le_of_lt (shorter path _) fits)
  have opened : stored (filePath path (localtime call.log.tvSec).tmHour) = some _ := if_pos fits
  rw [← Option.isSome_iff_exists]
  rw [compareLog, compYmdh_eq, if_neg changed, Option.bind_some, if_pos rfl, createDirectory_eq,
    show stored ((ymdhOf (localtime call.directory.tvSec)).directory (closeLog s).baseLogPath) =
      some path from made, Option.map_some, Option.bind_some, if_pos mkdirOk]
  dsimp only
  rw [if_pos rfl, createLog, scanYmdh_timeStamp, Option.bind_some]
  simp only [ymdhOf, opened, Option.map_some]
  rfl

/-- The file of an hour is the file of no other hour. -/
theorem filePath_inj {logPath : List UInt8} {one other : Int} (oneValid : 0 ≤ one ∧ one ≤ 23)
    (otherValid : 0 ≤ other ∧ other ≤ 23) (same : filePath logPath one = filePath logPath other) :
    one = other := by
  unfold filePath at same
  have printed : printInt 2 one ++ chars ".LOG" = printInt 2 other ++ chars ".LOG" := by
    simpa using same
  have stop : ∀ c ∈ (chars ".LOG").head?, isDigit c = false := by simp [chars, isDigit]
  have read := scanInt_two oneValid.1 (by omega) stop
  rw [printed, scanInt_two otherValid.1 (by omega) stop] at read
  cases read
  rfl

/-- A rotation names the file right exactly when no hour began before it was opened. -/
theorem named_iff (rotates : Rotates localtime s call)
    (done : compareLog localtime s call = some next) : Named next ↔ SameHour localtime call := by
  obtain ⟨changed, mkdirOk, fopenOk⟩ := rotates
  obtain ⟨_, ⟨_, _, recorded, opened⟩ | ⟨failed, _⟩⟩ := compareLog_changed changed done
  · have hour : next.oHour = (localtime call.directory.tvSec).tmHour := congrArg Ymdh.hour recorded
    unfold Named SameHour
    rw [opened, hour]
    constructor
    · intro same
      exact filePath_inj (localtime _).hourValid (localtime _).hourValid (Option.some.inj same)
    · intro same
      rw [same]
  · exact absurd ⟨mkdirOk, fopenOk⟩ failed

/-- A call leaves the file open, opens one, or leaves none. -/
theorem compareLog_logfp (before : s.logfp = none ∨ Named s)
    (together : Rotates localtime s call → SameHour localtime call)
    (done : compareLog localtime s call = some next) : next.logfp = none ∨ Named next := by
  by_cases same : ymdhOf (localtime call.compare.tvSec) = s.recorded
  · rw [compareLog_same same] at done
    cases done
    exact before
  · obtain ⟨_, ⟨mkdirOk, fopenOk, _⟩ | ⟨_, closed⟩⟩ := compareLog_changed same done
    · have rotates : Rotates localtime s call := ⟨same, mkdirOk, fopenOk⟩
      exact Or.inr ((named_iff rotates done).mpr (together rotates))
    · exact Or.inl closed

end Calls

/-- Over any calls, each rotation names its file right exactly when no hour begins between its
second and its third reading of the clock. Then every file that is open is named right, and a
call at which nothing changed leaves it open. -/
theorem run_named_iff (localtime : Int → Tm) (logPath : List UInt8) (calls : List Call) :
    (AllSteps (compareLog localtime)
        (fun s call => Rotates localtime s call →
          ∀ next, compareLog localtime s call = some next → Named next)
        (initializeLog logPath) calls ↔
      AllSteps (compareLog localtime)
        (fun s call => Rotates localtime s call → SameHour localtime call)
        (initializeLog logPath) calls) ∧
      (AllSteps (compareLog localtime)
          (fun s call => Rotates localtime s call → SameHour localtime call)
          (initializeLog logPath) calls →
        ∀ final, run (compareLog localtime) (initializeLog logPath) calls = some final →
          final.logfp = none ∨ Named final) ∧
      ∀ s call, ymdhOf (localtime call.compare.tvSec) = s.recorded →
        compareLog localtime s call = some s := by
  refine ⟨?_, ?_, fun s call same => compareLog_same same⟩
  · apply allSteps_congr
    intro s call next done
    constructor
    · intro named rotates
      exact (named_iff rotates done).mp (named rotates next done)
    · intro together rotates other also
      exact (named_iff rotates also).mpr (together rotates)
  · intro together final reached
    apply run_invariant_of (fun s => s.logfp = none ∨ Named s) _ (Or.inl rfl) together reached
    intro s call next before allowed done
    exact compareLog_logfp before allowed done

/-- The clock around the midnight that begins the second of June of 2015. -/
def aroundMidnight (tvSec : Int) : Tm :=
  if tvSec < 1433203200 then
    { juneNoon with
      tmSec := 59
      tmMin := 59
      tmHour := 23
      secValid := by decide
      minValid := by decide
      hourValid := by decide }
  else
    { juneNoon with
      tmHour := 0
      tmMday := 2
      hourValid := by decide
      mdayValid := by decide }

/-- The first call of a run, whose last reading of the clock comes after midnight. -/
def late : Call := ⟨⟨1433203199, 0⟩, ⟨1433203199, 500000⟩, ⟨1433203200, 0⟩, true, true⟩

/-- The file of the new hour is opened in the directory of the old date. -/
theorem compareLog_late :
    late.compare.tvSec ≤ late.directory.tvSec ∧ late.directory.tvSec ≤ late.log.tvSec ∧
      Rotates aroundMidnight (initializeLog (chars "log")) late ∧
      ∃ next, compareLog aroundMidnight (initializeLog (chars "log")) late = some next ∧
        next.recorded = ⟨2015, 6, 1, 23⟩ ∧
        next.logfp = some (filePath (directoryPath (chars "log") 2015 6 1) 0) ∧ ¬ Named next := by
  have rotates : Rotates aroundMidnight (initializeLog (chars "log")) late := by
    refine ⟨?_, rfl, rfl⟩
    decide
  have path : (ymdhOf (aroundMidnight late.directory.tvSec)).directory (chars "log") =
      directoryPath (chars "log") 2015 6 1 := rfl
  have hour : (aroundMidnight late.log.tvSec).tmHour = 0 := rfl
  have fits : (filePath ((ymdhOf (aroundMidnight late.directory.tvSec)).directory (chars "log"))
      (aroundMidnight late.log.tvSec).tmHour).length < pathSize := by
    rw [path, hour]
    simp [filePath, directoryPath, printInt, decimal, chars, pathSize]
  obtain ⟨next, done⟩ := compareLog_opens rotates fits
  refine ⟨by decide, by decide, rotates, next, done, ?_⟩
  obtain ⟨base, ⟨_, _, recorded, opened⟩ | ⟨failed, _⟩⟩ := compareLog_changed rotates.1 done
  · have date : next.recorded = ⟨2015, 6, 1, 23⟩ := recorded
    refine ⟨date, ?_, ?_⟩
    · cases next
      cases date
      cases base
      exact opened
    · rw [named_iff rotates done]
      exact show ¬ (0 : Int) = 23 by decide
  · exact absurd rotates.2 failed

end VnfMonitoring.Logdir
