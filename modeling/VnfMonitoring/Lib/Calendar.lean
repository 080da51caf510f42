import Mathlib.Data.Nat.Init
import Mathlib.Order.Monotone.Basic

set_option autoImplicit false

/- The Gregorian calendar: its dates, their succession and order, the days counted from
the first of January of the year 0, and the weekdays. -/
namespace VnfMonitoring.Calendar

def Leap (year : Nat) : Prop := year % 4 = 0 ∧ (year % 100 ≠ 0 ∨ year % 400 = 0)

instance (year : Nat) : Decidable (Leap year) := inferInstanceAs (Decidable (_ ∧ _))

/-- The days of a month; there are none in what is no month. -/
def daysInMonth (year month : Nat) : Nat :=
  if month = 2 then if Leap year then 29 else 28
  else if month = 4 ∨ month = 6 ∨ month = 9 ∨ month = 11 then 30
  else if 1 ≤ month ∧ month ≤ 12 then 31
  else 0

def daysInYear (year : Nat) : Nat := if Leap year then 366 else 365

/-- A date of the calendar. -/
structure Date where
  year : Nat
  month : Nat
  day : Nat
  monthValid : 1 ≤ month ∧ month ≤ 12
  dayValid : 1 ≤ day ∧ day ≤ daysInMonth year month
  deriving DecidableEq

def daysBeforeYear : Nat → Nat
  | 0 => 0
  | year + 1 => daysBeforeYear year + daysInYear year

def daysBeforeMonth (year : Nat) : Nat → Nat
  | 0 => 0
  | month + 1 => daysBeforeMonth year month + daysInMonth year month

/-- The days before a date. -/
def dayNumber (d : Date) : Nat :=
  daysBeforeYear d.year + daysBeforeMonth d.year d.month + (d.day - 1)

/-- The first date is earlier than the second. -/
def Before (d e : Date) : Prop :=
  d.year < e.year ∨ d.year = e.year ∧ (d.month < e.month ∨ d.month = e.month ∧ d.day < e.day)

instance (d e : Date) : Decidable (Before d e) := inferInstanceAs (Decidable (_ ∨ _))

/-- 1 for Monday to 7 for Sunday. -/
def weekday (d : Date) : Nat := (dayNumber d + 5) % 7 + 1

theorem daysInMonth_pos (year : Nat) {month : Nat} (first : 1 ≤ month) (last : month ≤ 12) :
    1 ≤ daysInMonth year month := by
  unfold daysInMonth
  split
  · split <;> omega
  split
  · omega
  · rw [if_pos ⟨first, last⟩]
    omega

theorem daysInMonth_le (year month : Nat) : daysInMonth year month ≤ 31 := by
  unfold daysInMonth
  split
  · split <;> omega
  split
  · omega
  · split <;> omega

/-- The date of the day after. -/
def Date.next (d : Date) : Date :=
  if more : d.day < daysInMonth d.year d.month then
    ⟨d.year, d.month, d.day + 1, d.monthValid, by omega, more⟩
  else if month : d.month < 12 then
    ⟨d.year, d.month + 1, 1, by omega, Nat.le_refl 1,
      daysInMonth_pos d.year (by omega) month⟩
  else
    ⟨d.year + 1, 1, 1, by omega, Nat.le_refl 1,
      daysInMonth_pos (d.year + 1) (by omega) (by omega)⟩

/-- The months of a year are its days. -/
theorem daysBeforeMonth_thirteen (year : Nat) : daysBeforeMonth year 13 = daysInYear year := by
  by_cases leap : Leap year <;> simp [daysBeforeMonth, daysInMonth, daysInYear, leap]

theorem leap_iff (year : Nat) : Leap year ↔ 4 ∣ year ∧ (¬ 100 ∣ year ∨ 400 ∣ year) := by
  rw [Nat.dvd_iff_mod_eq_zero, Nat.dvd_iff_mod_eq_zero, Nat.dvd_iff_mod_eq_zero]
  rfl

theorem daysBeforeYear_mono : Monotone daysBeforeYear :=
  monotone_nat_of_le_succ fun _ => Nat.le_add_right _ _

theorem daysBeforeMonth_mono (year : Nat) : Monotone (daysBeforeMonth year) :=
  monotone_nat_of_le_succ fun _ => Nat.le_add_right _ _

/-- Every fourth year has a day more, every hundredth has not, every four hundredth has. -/
theorem daysInYear_leaps (year : Nat) :
    daysInYear year + (if 100 ∣ year then 1 else 0) =
      365 + (if 4 ∣ year then 1 else 0) + (if 400 ∣ year then 1 else 0) := by
  have hundred : 400 ∣ year → 100 ∣ year := Nat.dvd_trans (by decide)
  have four : 100 ∣ year → 4 ∣ year := Nat.dvd_trans (by decide)
  unfold daysInYear
  by_cases leap : Leap year
  · obtain ⟨byFour, common⟩ := (leap_iff year).mp leap
    rw [if_pos leap, if_pos byFour]
    by_cases byHundred : 100 ∣ year
    · rw [if_pos byHundred, if_pos (common.resolve_left fun away => away byHundred)]
    · rw [if_neg byHundred, if_neg fun all => byHundred (hundred all)]
  · rw [if_neg leap]
    rw [leap_iff] at leap
    by_cases byHundred : 100 ∣ year
    · have notAll : ¬ 400 ∣ year := fun all => leap ⟨four byHundred, Or.inr all⟩
      rw [if_pos byHundred, if_pos (four byHundred), if_neg notAll]
    · have notFour : ¬ 4 ∣ year := fun byFour => leap ⟨byFour, Or.inl byHundred⟩
      rw [if_neg byHundred, if_neg notFour, if_neg fun all => byHundred (hundred all)]

/-- The recursion over the leap years, closed. -/
theorem daysBeforeYear_succ (year : Nat) :
    daysBeforeYear (year + 1) + year / 100 = 365 * (year + 1) + year / 4 + year / 400 + 1 := by
  induction year with
  | zero => rfl
  | succ year ih =>
      have unfolded : daysBeforeYear (year + 1 + 1) =
          daysBeforeYear (year + 1) + daysInYear (year + 1) := rfl
      have leaps := daysInYear_leaps (year + 1)
      rw [unfolded, Nat.succ_div, Nat.succ_div, Nat.succ_div]
      omega

/-- The days of the month before a date, and those of the year. -/
theorem dayNumber_bounds (d : Date) :
    daysBeforeYear d.year + daysBeforeMonth d.year d.month ≤ dayNumber d ∧
      dayNumber d < daysBeforeYear d.year + daysBeforeMonth d.year (d.month + 1) ∧
      daysBeforeMonth d.year (d.month + 1) ≤ daysInYear d.year := by
  have valid := d.dayValid
  have next : daysBeforeMonth d.year (d.month + 1) =
      daysBeforeMonth d.year d.month + daysInMonth d.year d.month := rfl
  have inYear : daysBeforeMonth d.year (d.month + 1) ≤ daysBeforeMonth d.year 13 :=
    daysBeforeMonth_mono d.year (Nat.succ_le_succ d.monthValid.2)
  rw [daysBeforeMonth_thirteen] at inYear
  unfold dayNumber
  omega

theorem dayNumber_next (d : Date) : dayNumber d.next = dayNumber d + 1 := by
  have valid := d.dayValid
  have months := d.monthValid
  unfold Date.next
  split
  · simp only [dayNumber]
    omega
  · rename_i last
    split
    · have month : daysBeforeMonth d.year (d.month + 1) =
          daysBeforeMonth d.year d.month + daysInMonth d.year d.month := rfl
      simp only [dayNumber]
      omega
    · have december : d.month = 12 := by omega
      have whole := daysBeforeMonth_thirteen d.year
      have month : daysBeforeMonth d.year 13 =
          daysBeforeMonth d.year 12 + daysInMonth d.year 12 := rfl
      have year : daysBeforeYear (d.year + 1) = daysBeforeYear d.year + daysInYear d.year := rfl
      have january : daysBeforeMonth (d.year + 1) 1 = 0 := rfl
      simp only [dayNumber, december, year, january]
      rw [december] at valid last
      omega

theorem weekday_next (d : Date) : weekday d.next = weekday d % 7 + 1 := by
  unfold weekday
  rw [dayNumber_next]
  omega

theorem dayNumber_lt_of_before {d e : Date} (before : Before d e) : dayNumber d < dayNumber e := by
  have lower := dayNumber_bounds e
  have upper := dayNumber_bounds d
  rcases before with year | ⟨year, month | ⟨month, day⟩⟩
  · have years := daysBeforeYear_mono (Nat.succ_le_of_lt year)
    have next : daysBeforeYear (d.year + 1) = daysBeforeYear d.year + daysInYear d.year := rfl
    rw [Nat.succ_eq_add_one] at years
    omega
  · have months := daysBeforeMonth_mono e.year (Nat.succ_le_of_lt month)
    rw [year] at upper
    rw [Nat.succ_eq_add_one] at months
    omega
  · have valid := d.dayValid
    unfold dayNumber
    rw [year, month]
    omega

/-- One of two different dates is the earlier one. -/
theorem before_total (d e : Date) : Before d e ∨ d = e ∨ Before e d := by
  unfold Before
  rcases Nat.lt_trichotomy d.year e.year with year | year | year
  · omega
  · rcases Nat.lt_trichotomy d.month e.month with month | month | month
    · omega
    · rcases Nat.lt_trichotomy d.day e.day with day | day | day
      · omega
      · have same : d = e := by
          cases d
          cases e
          simp_all
        exact Or.inr (Or.inl same)
      · omega
    · omega
  · omega

theorem before_iff {d e : Date} : Before d e ↔ dayNumber d < dayNumber e := by
  refine ⟨dayNumber_lt_of_before, ?_⟩
  intro less
  rcases before_total d e with before | same | after
  · exact before
  · rw [same] at less
    omega
  · have more := dayNumber_lt_of_before after
    omega

theorem dayNumber_injective : Function.Injective dayNumber := by
  intro d e same
  rcases before_total d e with before | equal | after
  · have less := dayNumber_lt_of_before before
    omega
  · exact equal
  · have less := dayNumber_lt_of_before after
    omega

theorem dayNumber_iterate_next (d : Date) (k : Nat) :
    dayNumber (Date.next^[k] d) = dayNumber d + k := by
  induction k with
  | zero => rfl
  | succ k ih =>
      rw [Function.iterate_succ_apply', dayNumber_next, ih]
      rfl

/-- The first of January of 1970, a Thursday. -/
def epoch : Date := ⟨1970, 1, 1, by decide, by decide⟩

theorem dayNumber_epoch : dayNumber epoch = 719528 := by
  have years := daysBeforeYear_succ 1969
  have number : dayNumber epoch = daysBeforeYear (1969 + 1) := by
    simp [dayNumber, epoch, daysBeforeMonth, daysInMonth]
  omega

theorem weekday_epoch : weekday epoch = 4 := by
  rw [weekday, dayNumber_epoch]

/-- The weekdays from 1970 on are the ones that follow each other from that Thursday on. -/
theorem weekday_unique {f : Date → Nat} (start : f epoch = 4)
    (follows : ∀ d, f d.next = f d % 7 + 1) {d : Date} (since : ¬ Before d epoch) :
    f d = weekday d := by
  rw [before_iff, Nat.not_lt] at since
  obtain ⟨k, number⟩ := Nat.exists_eq_add_of_le since
  have reached : d = Date.next^[k] epoch := by
    apply dayNumber_injective
    rw [dayNumber_iterate_next, number]
  rw [reached]
  clear number reached since
  induction k with
  | zero => exact start.trans weekday_epoch.symm
  | succ k ih => rw [Function.iterate_succ_apply', follows, weekday_next, ih]

end VnfMonitoring.Calendar
