import Mathlib.Tactic.IntervalCases
import VnfMonitoring.DbmbStatus
import VnfMonitoring.Timer
import VnfMonitoring.Lib.Calendar

set_option autoImplicit false

/- The times of `kutil.c`: what `localtime_r` gives, the texts that are made of it, and the
day of the week. -/
namespace VnfMonitoring.Kutil

open VnfMonitoring.DbmbStatus VnfMonitoring.Timer VnfMonitoring.Calendar

/-- A `struct tm` from `localtime_r`. -/
structure Tm where
  tmSec : Int
  tmMin : Int
  tmHour : Int
  tmMday : Int
  tmMon : Int
  tmYear : Int
  secValid : 0 ≤ tmSec ∧ tmSec ≤ 60
  minValid : 0 ≤ tmMin ∧ tmMin ≤ 59
  hourValid : 0 ≤ tmHour ∧ tmHour ≤ 23
  mdayValid : 1 ≤ tmMday ∧ tmMday ≤ 31
  monValid : 0 ≤ tmMon ∧ tmMon ≤ 11
  yearValid : -2147483648 ≤ tmYear + 1900 ∧ tmYear + 1900 ≤ 2147483647

/-- `%d` in `sprintf`, with the zeros of `%02d` and the like up to a width. -/
def printInt (width : Nat) (value : Int) : List UInt8 :=
  let digits := decimal value.natAbs
  if value < 0 then 45 :: (List.replicate (width - 1 - digits.length) 48 ++ digits)
  else List.replicate (width - digits.length) 48 ++ digits

/-- `time_stamp`; its buffer of 64 bytes takes every such text. -/
def timeStamp (localtime : Int → Tm) (tv : Timeval) : List UInt8 :=
  let ctime := localtime tv.tvSec
  printInt 0 (ctime.tmYear + 1900) ++ chars "-" ++ printInt 2 (ctime.tmMon + 1) ++ chars "-" ++
    printInt 2 ctime.tmMday ++ chars ", " ++ printInt 2 ctime.tmHour ++ chars ":" ++
    printInt 2 ctime.tmMin ++ chars ":" ++ printInt 2 ctime.tmSec ++ chars "." ++
    printInt 3 (tv.tvUsec.tdiv 1000)

/-- One for January and February. -/
def ucL (mon : Int) : Int := if mon = 1 ∨ mon = 2 then 1 else 0

/-- The day number of both functions, an `unsigned short`. The products by 365.25 and 30.6001
are truncated toward zero. -/
def usMJD (year mon mday : Int) : UInt16 :=
  UInt16.ofInt (14956 + mday +
    (UInt16.ofInt (((year - 1900 - ucL mon) * 36525).tdiv 100)).toNat +
    (UInt16.ofInt (((mon + 1 + ucL mon * 12) * 306001).tdiv 10000)).toNat)

def ucDayOfWeek (year mon mday : Int) : UInt16 :=
  UInt16.ofNat (((usMJD year mon mday).toNat + 2) % 7 + 1)

/-- `FindDayOfWeek`, with the time it reads. -/
def findDayOfWeek (localtime : Int → Tm) (tv : Timeval) : UInt16 :=
  let ctime := localtime tv.tvSec
  ucDayOfWeek (ctime.tmYear + 1900) (ctime.tmMon + 1) ctime.tmMday

/-- `GetDateDayWeek`, with the time it reads and the text it writes. Seconds that are no `int`
have no value. -/
def getDateDayWeek (localtime : Int → Tm) (tv : Timeval) (day : Int) :
    Option (UInt16 × List UInt8) :=
  if -2147483648 ≤ 86400 * day ∧ 86400 * day ≤ 2147483647 then
    let ctime := localtime (tv.tvSec - 86400 * day)
    let year := ctime.tmYear + 1900
    let mon := ctime.tmMon + 1
    some (ucDayOfWeek year mon ctime.tmMday,
      printInt 4 year ++ printInt 2 mon ++ printInt 2 ctime.tmMday)
  else none

/-- The date that a `struct tm` shows. -/
structure Tm.Shows (tm : Tm) (d : Date) : Prop where
  year : tm.tmYear + 1900 = d.year
  month : tm.tmMon + 1 = d.month
  day : tm.tmMday = d.day

/-- The last date of the calendar that the formula is made for. -/
def lastDate : Date := ⟨2100, 2, 28, by decide, by decide⟩

/-- The date with the day number 65536. -/
def wrapDate : Date := ⟨2038, 4, 23, by decide, by decide⟩

/-- What `usMJD` holds before it is cut to 16 bits. -/
def modifiedJulian (d : Date) : Nat :=
  let shift := if d.month ≤ 2 then 1 else 0
  14956 + d.day + (d.year - 1900 - shift) * 36525 / 100 +
    (d.month + 1 + shift * 12) * 306001 / 10000

/-- The months from March on. -/
theorem daysBeforeMonth_march (year : Nat) {month : Nat} (march : 3 ≤ month) (last : month ≤ 12) :
    daysBeforeMonth year month + 122 =
      59 + (if Leap year then 1 else 0) + (month + 1) * 306001 / 10000 := by
  by_cases leap : Leap year <;> interval_cases month <;>
    simp [daysBeforeMonth, daysInMonth, leap]

/-- The two months before. -/
theorem daysBeforeMonth_january (year : Nat) {month : Nat} (january : 1 ≤ month)
    (february : month ≤ 2) :
    daysBeforeMonth year month + 428 = (month + 13) * 306001 / 10000 := by
  interval_cases month <;> simp [daysBeforeMonth, daysInMonth]

/-- Around 2000 every fourth year is a leap year. -/
theorem leap_near {year : Nat} (first : 1970 ≤ year) (last : year ≤ 2099) :
    Leap year ↔ year % 4 = 0 := by
  unfold Leap
  by_cases century : year = 2000
  · subst century
    decide
  · have common : year % 100 ≠ 0 := by omega
    simp [common]

theorem daysBeforeYear_near {year : Nat} (first : 1970 ≤ year) (last : year ≤ 2100) :
    daysBeforeYear year + 14 = 365 * year + (year - 1) / 4 := by
  have years := daysBeforeYear_succ (year - 1)
  rw [Nat.sub_add_cancel (by omega)] at years
  have hundreds : (year - 1) / 100 = (year - 1) / 400 + 15 := by
    by_cases century : year ≤ 2000
    · have nineteen : (year - 1) / 100 = 19 := by omega
      have four : (year - 1) / 400 = 4 := by omega
      omega
    · have twenty : (year - 1) / 100 = 20 := by omega
      have five : (year - 1) / 400 = 5 := by omega
      omega
  omega

theorem year_bounds {d : Date} (since : ¬ Before d epoch) (until_ : ¬ Before lastDate d) :
    1970 ≤ d.year ∧ (d.year ≤ 2099 ∨ d.year = 2100 ∧ d.month ≤ 2) := by
  constructor
  · by_contra earlier
    exact since (Or.inl (Nat.not_le.mp earlier))
  · by_contra later
    apply until_
    unfold Before lastDate
    simp only
    omega

/-- The formula counts the days, as long as every fourth year is a leap year. -/
theorem modifiedJulian_eq {d : Date} (since : ¬ Before d epoch) (until_ : ¬ Before lastDate d) :
    modifiedJulian d + dayNumber epoch = dayNumber d + 40587 := by
  have months := d.monthValid
  have days := d.dayValid
  obtain ⟨first, last⟩ := year_bounds since until_
  have years := daysBeforeYear_near first (by omega)
  have quarters (n : Nat) : n * 36525 / 100 = 365 * n + n / 4 := by omega
  rw [dayNumber_epoch]
  unfold modifiedJulian dayNumber
  by_cases march : 3 ≤ d.month
  · have table := daysBeforeMonth_march d.year march months.2
    have shift : ¬ d.month ≤ 2 := by omega
    have leap := leap_near first (by omega)
    have extra : (if Leap d.year then 1 else 0) = d.year / 4 - (d.year - 1) / 4 := by
      split
      · rename_i here
        have byFour := leap.mp here
        omega
      · rename_i common
        have notFour : ¬ d.year % 4 = 0 := fun byFour => common (leap.mpr byFour)
        omega
    simp only [if_neg shift, Nat.zero_mul, Nat.add_zero, Nat.sub_zero, quarters]
    omega
  · have table := daysBeforeMonth_january d.year months.1 (by omega)
    have shift : d.month ≤ 2 := by omega
    simp only [if_pos shift, Nat.one_mul, quarters]
    omega

theorem ofInt_toNat (n : Nat) : (UInt16.ofInt n).toNat = n % 65536 := by
  simp only [UInt16.ofInt, UInt16.toNat_ofNat']
  omega

/-- The products of a year from 1900 on are not negative. -/
theorem product_toNat (n scale unit : Nat) :
    (UInt16.ofInt (((n : Int) * scale).tdiv unit)).toNat = n * scale / unit % 65536 := by
  rw [← ofInt_toNat]
  congr 2

theorem usMJD_toNat {d : Date} (first : 1970 ≤ d.year) :
    (usMJD d.year d.month d.day).toNat = modifiedJulian d % 65536 := by
  have months := d.monthValid
  let shift := if d.month ≤ 2 then 1 else 0
  have shifted : ucL d.month = (shift : Nat) := by
    simp only [ucL, shift]
    split <;> split <;> omega
  have small : shift ≤ 1 := by
    simp only [shift]
    split <;> omega
  have years : (d.year : Int) - 1900 - ucL d.month = ((d.year - 1900 - shift : Nat) : Int) := by
    omega
  have monthsFrom : (d.month : Int) + 1 + ucL d.month * 12 =
      ((d.month + 1 + shift * 12 : Nat) : Int) := by
    omega
  have yearPart := product_toNat (d.year - 1900 - shift) 36525 100
  have monthPart := product_toNat (d.month + 1 + shift * 12) 306001 10000
  have whole : usMJD d.year d.month d.day = UInt16.ofInt ((14956 + d.day +
      (d.year - 1900 - shift) * 36525 / 100 % 65536 +
      (d.month + 1 + shift * 12) * 306001 / 10000 % 65536 : Nat) : Int) := by
    rw [← yearPart, ← monthPart, usMJD, years, monthsFrom]
    push_cast
    rfl
  rw [whole, ofInt_toNat]
  change _ = (14956 + d.day + (d.year - 1900 - shift) * 36525 / 100 +
    (d.month + 1 + shift * 12) * 306001 / 10000) % 65536
  omega

theorem dayNumber_wrapDate : dayNumber wrapDate = 744477 := by
  have years := daysBeforeYear_succ 2037
  have number : dayNumber wrapDate = daysBeforeYear (2037 + 1) + 112 := by
    simp [dayNumber, wrapDate, daysBeforeMonth, daysInMonth, Leap]
  omega

/-- The day number leaves its 16 bits on the wrap date. -/
theorem ucDayOfWeek_iff {d : Date} (since : ¬ Before d epoch) (until_ : ¬ Before lastDate d) :
    (ucDayOfWeek d.year d.month d.day).toNat = weekday d ↔ Before d wrapDate := by
  have number := modifiedJulian_eq since until_
  have bounded : modifiedJulian d < 131072 := by
    have years := year_bounds since until_
    have months := d.monthValid
    have days := Nat.le_trans d.dayValid.2 (daysInMonth_le d.year d.month)
    unfold modifiedJulian
    simp only
    split <;> omega
  have value : (ucDayOfWeek d.year d.month d.day).toNat =
      (modifiedJulian d % 65536 + 2) % 7 + 1 := by
    have small : (modifiedJulian d % 65536 + 2) % 7 + 1 < 65536 := by omega
    rw [ucDayOfWeek, usMJD_toNat (year_bounds since until_).1, UInt16.toNat_ofNat']
    omega
  rw [value, before_iff, dayNumber_wrapDate]
  rw [dayNumber_epoch] at number
  unfold weekday
  omega

/-- Both functions give the true weekday exactly of the dates before the wrap date. -/
theorem dayOfWeek_right_iff (localtime : Int → Tm) {d : Date} (since : ¬ Before d epoch)
    (until_ : ¬ Before lastDate d) :
    (∀ tv, (localtime tv.tvSec).Shows d →
      ((findDayOfWeek localtime tv).toNat = weekday d ↔ Before d wrapDate)) ∧
      ∀ tv day week date, getDateDayWeek localtime tv day = some (week, date) →
        (localtime (tv.tvSec - 86400 * day)).Shows d →
        (week.toNat = weekday d ↔ Before d wrapDate) := by
  have right := ucDayOfWeek_iff since until_
  constructor
  · intro tv shows
    rw [findDayOfWeek]
    simp only [shows.year, shows.month, shows.day]
    exact right
  · intro tv day week date done shows
    unfold getDateDayWeek at done
    split at done
    · cases done
      simp only [shows.year, shows.month, shows.day]
      exact right
    · cases done

/-- Noon of a date. -/
def noon (d : Date) (fits : d.year ≤ 2147483647) : Tm where
  tmSec := 0
  tmMin := 0
  tmHour := 12
  tmMday := d.day
  tmMon := d.month - 1
  tmYear := d.year - 1900
  secValid := by decide
  minValid := by decide
  hourValid := by decide
  mdayValid := by
    have days := Nat.le_trans d.dayValid.2 (daysInMonth_le d.year d.month)
    have first := d.dayValid.1
    omega
  monValid := by
    have months := d.monthValid
    omega
  yearValid := by omega

theorem noon_shows (d : Date) (fits : d.year ≤ 2147483647) : (noon d fits).Shows d := by
  refine ⟨?_, ?_, rfl⟩
  · change (d.year : Int) - 1900 + 1900 = d.year
    omega
  · change (d.month : Int) - 1 + 1 = d.month
    omega

/-- The first of June of 2015. -/
def june : Date := ⟨2015, 6, 1, by decide, by decide⟩

def juneNoon : Tm := noon june (by decide)

/-- Asked on that day, and on the day after for the day before. -/
theorem dayOfWeek_right_june :
    (findDayOfWeek (fun _ => juneNoon) ⟨1433160000, 0⟩).toNat = weekday june ∧
      ∃ week date, getDateDayWeek (fun _ => juneNoon) ⟨1433246400, 0⟩ 1 = some (week, date) ∧
        week.toNat = weekday june := by
  have early : Before june wrapDate := by decide
  have shows : juneNoon.Shows june := noon_shows june (by decide)
  obtain ⟨today, later⟩ := dayOfWeek_right_iff (fun _ => juneNoon)
    (show ¬ Before june epoch by decide) (by decide)
  obtain ⟨week, date, done⟩ : ∃ week date,
      getDateDayWeek (fun _ => juneNoon) ⟨1433246400, 0⟩ 1 = some (week, date) := ⟨_, _, rfl⟩
  exact ⟨(today _ shows).mpr early, week, date, done, (later _ _ _ _ done shows).mpr early⟩

/-- The wrap date is a Friday, for which both functions give Wednesday. -/
theorem dayOfWeek_wraps :
    ¬ Before wrapDate epoch ∧ ¬ Before lastDate wrapDate ∧ weekday wrapDate = 5 ∧
      (noon wrapDate (by decide)).Shows wrapDate ∧
      findDayOfWeek (fun _ => noon wrapDate (by decide)) ⟨2155636800, 0⟩ = 3 ∧
      ∃ date, getDateDayWeek (fun _ => noon wrapDate (by decide)) ⟨2155636800, 0⟩ 0 =
        some (3, date) := by
  refine ⟨by decide, by decide, ?_, noon_shows .., by decide, _, rfl⟩
  rw [weekday, dayNumber_wrapDate]

end VnfMonitoring.Kutil
