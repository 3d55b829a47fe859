import Mathlib.Algebra.Order.Ring.Int
import Mathlib.Logic.Function.Iterate
import Mathlib.Tactic.IntervalCases

/-!
# `CodexInfo.Lib.Calendar`: the proleptic Gregorian calendar

A date is a year, a month and a day of that month. The calendar is given by the day after a date,
and a date is so many days after another one where so many steps lead there.

* `Date`, `Date.next`: the dates and the day after.
* `dayNumber`: the days up to a date, counted over years and months.
* `isDaysAfter_iff`: the distance of two dates is the difference of their day numbers.

Nothing here names a component of the repository.
-/

set_option autoImplicit false

namespace CodexInfo.Lib.Calendar

/-- A year with a 29th of February. -/
def IsLeapYear (year : Int) : Prop := 4 ∣ year ∧ (¬ 100 ∣ year ∨ 400 ∣ year)

instance (year : Int) : Decidable (IsLeapYear year) := inferInstanceAs (Decidable (_ ∧ _))

def daysInMonth (year month : Int) : Int :=
  if month = 2 then if IsLeapYear year then 29 else 28
  else if month = 4 ∨ month = 6 ∨ month = 9 ∨ month = 11 then 30
  else 31

@[ext] structure Date where
  year : Int
  month : Int
  day : Int
  month_pos : 1 ≤ month
  month_le : month ≤ 12
  day_pos : 1 ≤ day
  day_le : day ≤ daysInMonth year month
  deriving DecidableEq

theorem daysInMonth_pos (year month : Int) : 1 ≤ daysInMonth year month := by
  unfold daysInMonth
  split_ifs <;> decide

namespace Date

/-- The day after. -/
def next (date : Date) : Date :=
  if hday : date.day < daysInMonth date.year date.month then
    { date with day := date.day + 1, day_pos := by have := date.day_pos; omega, day_le := hday }
  else if hmonth : date.month < 12 then
    { year := date.year, month := date.month + 1, day := 1
      month_pos := by have := date.month_pos; omega
      month_le := hmonth
      day_pos := le_rfl
      day_le := daysInMonth_pos _ _ }
  else
    { year := date.year + 1, month := 1, day := 1
      month_pos := le_rfl
      month_le := by decide
      day_pos := le_rfl
      day_le := daysInMonth_pos _ _ }

/-- So many days after a start, or before it where the number is negative. -/
def IsDaysAfter (start : Date) (days : Int) (date : Date) : Prop :=
  if 0 ≤ days then next^[days.toNat] start = date else next^[(-days).toNat] date = start

end Date

/-! ### Day numbers -/

def leapDays (year : Int) : Int := if IsLeapYear year then 1 else 0

/-- The days before the first of January, from year one on. -/
def daysBeforeYear (year : Int) : Int :=
  365 * (year - 1) + (year - 1) / 4 - (year - 1) / 100 + (year - 1) / 400

/-- The days of a year before a month. From March on, five months have 153 days. -/
def daysBeforeMonth (year month : Int) : Int :=
  if month ≤ 2 then 31 * (month - 1)
  else (153 * (month - 3) + 2) / 5 + 59 + leapDays year

def Date.dayNumber (date : Date) : Int :=
  daysBeforeYear date.year + daysBeforeMonth date.year date.month + date.day

theorem daysBeforeYear_succ (year : Int) :
    daysBeforeYear (year + 1) = daysBeforeYear year + 365 + leapDays year := by
  unfold daysBeforeYear leapDays
  split_ifs with hleap <;> unfold IsLeapYear at hleap <;> omega

theorem daysBeforeYear_le {first second : Int} (h : first ≤ second) :
    daysBeforeYear first ≤ daysBeforeYear second := by
  unfold daysBeforeYear
  omega

theorem daysBeforeMonth_succ {year month : Int} (hpos : 1 ≤ month) (hle : month ≤ 11) :
    daysBeforeMonth year (month + 1) = daysBeforeMonth year month + daysInMonth year month := by
  unfold daysBeforeMonth daysInMonth leapDays
  interval_cases month <;> split_ifs <;> first | rfl | omega

/-- December ends with the year. -/
theorem daysBeforeMonth_twelve (year : Int) :
    daysBeforeMonth year 12 + daysInMonth year 12 = 365 + leapDays year := by
  unfold daysBeforeMonth daysInMonth
  norm_num
  omega

theorem daysBeforeMonth_le {year first second : Int} (hpos : 1 ≤ first) (h : first ≤ second)
    (hle : second ≤ 12) : daysBeforeMonth year first ≤ daysBeforeMonth year second := by
  unfold daysBeforeMonth leapDays
  split_ifs <;> omega

namespace Date

theorem dayNumber_next (date : Date) : date.next.dayNumber = date.dayNumber + 1 := by
  have hpos := date.month_pos
  have hle := date.month_le
  have hday := date.day_le
  unfold next
  split
  · simp only [dayNumber]
    omega
  · next hlast =>
      split
      · next hmonth =>
          have hsucc : daysBeforeMonth date.year (date.month + 1) = _ :=
            daysBeforeMonth_succ hpos (by omega)
          simp only [dayNumber]
          omega
      · next hmonth =>
          have htwelve : date.month = 12 := by omega
          have hyear := daysBeforeYear_succ date.year
          have hdecember := daysBeforeMonth_twelve date.year
          have hjanuary : daysBeforeMonth (date.year + 1) 1 = 0 := rfl
          rw [htwelve] at hday hlast
          simp only [dayNumber, htwelve, hjanuary]
          omega

theorem dayNumber_iterate (steps : Nat) (date : Date) :
    (next^[steps] date).dayNumber = date.dayNumber + steps := by
  induction steps with
  | zero => simp
  | succ steps ih =>
      rw [Function.iterate_succ_apply', dayNumber_next, ih]
      push_cast
      omega

/-- A date lies within its year. -/
theorem dayNumber_bounds (date : Date) :
    daysBeforeYear date.year < date.dayNumber ∧
      date.dayNumber ≤ daysBeforeYear (date.year + 1) := by
  have hfirst : daysBeforeMonth date.year 1 ≤ daysBeforeMonth date.year date.month :=
    daysBeforeMonth_le le_rfl date.month_pos date.month_le
  have hzero : daysBeforeMonth date.year 1 = 0 := rfl
  have hday := date.day_le
  have hday' := date.day_pos
  have hle := date.month_le
  have hpos := date.month_pos
  have hyear := daysBeforeYear_succ date.year
  have hdecember := daysBeforeMonth_twelve date.year
  refine ⟨by unfold dayNumber; omega, ?_⟩
  unfold dayNumber
  rcases Int.lt_or_eq_of_le hle with hmonth | hmonth
  · have hsucc : daysBeforeMonth date.year (date.month + 1) = _ :=
      daysBeforeMonth_succ hpos (by omega)
    have hlast : daysBeforeMonth date.year (date.month + 1) ≤ daysBeforeMonth date.year 12 :=
      daysBeforeMonth_le (by omega) (by omega) le_rfl
    have hdays := daysInMonth_pos date.year 12
    omega
  · rw [hmonth] at hday ⊢
    omega

/-- Two dates of one day number are equal: they lie in one year, in one month of it and on one
day of that month. -/
theorem dayNumber_injective {first second : Date} (h : first.dayNumber = second.dayNumber) :
    first = second := by
  have hone := first.dayNumber_bounds
  have htwo := second.dayNumber_bounds
  have hyear : first.year = second.year := by
    rcases lt_trichotomy first.year second.year with hlt | heq | hgt
    · have hnext : first.year + 1 ≤ second.year := hlt
      have := daysBeforeYear_le hnext
      omega
    · exact heq
    · have hnext : second.year + 1 ≤ first.year := hgt
      have := daysBeforeYear_le hnext
      omega
  obtain ⟨year, month, day, hmonth, hmonth', hday, hday'⟩ := first
  obtain ⟨year', month', day', hsecond, hsecond', hlast, hlast'⟩ := second
  obtain rfl : year = year' := hyear
  simp only [dayNumber] at h
  have hmonths : month = month' := by
    rcases lt_trichotomy month month' with hlt | heq | hgt
    · have hsucc : daysBeforeMonth year (month + 1) = _ := daysBeforeMonth_succ hmonth (by omega)
      have : daysBeforeMonth year (month + 1) ≤ daysBeforeMonth year month' :=
        daysBeforeMonth_le (by omega) hlt hsecond'
      omega
    · exact heq
    · have hsucc : daysBeforeMonth year (month' + 1) = _ := daysBeforeMonth_succ hsecond (by omega)
      have : daysBeforeMonth year (month' + 1) ≤ daysBeforeMonth year month :=
        daysBeforeMonth_le (by omega) hgt hmonth'
      omega
  subst hmonths
  obtain rfl : day = day' := by omega
  rfl

/-- The distance of two dates is the difference of their day numbers. -/
theorem isDaysAfter_iff {start date : Date} {days : Int} :
    start.IsDaysAfter days date ↔ date.dayNumber = start.dayNumber + days := by
  have hsteps : ∀ (steps : Nat) (a b : Date), next^[steps] a = b ↔
      b.dayNumber = a.dayNumber + steps := by
    intro steps a b
    rw [← dayNumber_iterate]
    exact ⟨fun h => h ▸ rfl, fun h => dayNumber_injective h.symm⟩
  unfold IsDaysAfter
  split
  · rw [hsteps]
    omega
  · rw [hsteps]
    omega

end Date

end CodexInfo.Lib.Calendar
