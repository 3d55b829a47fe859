import CodexInfo.Lib.Calendar
import CodexInfo.Reader.PeriodLabels

/-!
# `CodexInfo.Proofs.Reader.CivilDate`: days as dates

The reader counts years from the first of March, so that the 29th of February is the last day of a
year. A day of an era of 400 years is a century, a cycle of four years, a year and a day of it, and
only the last year of a cycle or of the era has 366 days.

* `exists_cycle`, `yearOfEra_eq`: the four parts, and the year that the source computes.
* `civilDateFromDays_spec`: the date is so many days after the first of January 1970.
-/

set_option autoImplicit false

namespace CodexInfo.Reader.PeriodLabels

open CodexInfo.Contract (i64Max)
open CodexInfo.Lib.Calendar

/-- A day of an era: its century, its cycle of four years, its year and its day from March on. -/
structure IsCycle (dayOfEra century cycle year day : Int) : Prop where
  century_bounds : 0 ≤ century ∧ century ≤ 3
  cycle_bounds : 0 ≤ cycle ∧ cycle ≤ 24
  year_bounds : 0 ≤ year ∧ year ≤ 3
  day_bounds : 0 ≤ day ∧ day ≤ 365
  leap : day = 365 → year = 3 ∧ (cycle = 24 → century = 3)
  eq : dayOfEra = 36524 * century + 1461 * cycle + 365 * year + day

/-- The last day of an era, of a cycle and of a leap year would start one more part. -/
theorem exists_cycle {dayOfEra : Int} (hpos : 0 ≤ dayOfEra) (hlt : dayOfEra < 146097) :
    ∃ century cycle year day, IsCycle dayOfEra century cycle year day := by
  obtain ⟨century, rest, hcentury, hrest, hdays⟩ : ∃ century rest : Int,
      (0 ≤ century ∧ century ≤ 3) ∧ (0 ≤ rest ∧ rest ≤ 36524 ∧ (rest = 36524 → century = 3)) ∧
        dayOfEra = 36524 * century + rest :=
    ⟨min 3 (dayOfEra / 36524), dayOfEra - 36524 * min 3 (dayOfEra / 36524), by omega, by omega,
      by omega⟩
  obtain ⟨year, day, hyear, hday, hcycle⟩ : ∃ year day : Int,
      (0 ≤ year ∧ year ≤ 3) ∧ (0 ≤ day ∧ day ≤ 365 ∧ (day = 365 → year = 3)) ∧
        rest % 1461 = 365 * year + day :=
    ⟨min 3 (rest % 1461 / 365), rest % 1461 - 365 * min 3 (rest % 1461 / 365), by omega, by omega,
      by omega⟩
  exact ⟨century, rest / 1461, year, day, hcentury, by omega, hyear, ⟨hday.1, hday.2.1⟩,
    fun hleap => by omega, by omega⟩

variable {dayOfEra century cycle year day : Int}

/-- The quotient by 1460 runs one ahead towards the end of a leap year. The quotients of the last
day of the era run one ahead together. -/
theorem yearOfEra_eq (h : IsCycle dayOfEra century cycle year day) :
    (dayOfEra - dayOfEra / 1460 + dayOfEra / 36524 - dayOfEra / 146096) / 365 =
      100 * century + 4 * cycle + year := by
  obtain ⟨hcentury, hcycle, hyear, hday, hleap, hdays⟩ := h
  have hcenturies : dayOfEra / 36524 - dayOfEra / 146096 = century := by
    obtain ⟨rest, hrest⟩ : ∃ rest, rest = 1461 * cycle + 365 * year + day := ⟨_, rfl⟩
    have hfull : rest ≤ 36523 ∨ rest = 36524 ∧ century = 3 := by
      by_cases hlast : day = 365
      · have hthree := (hleap hlast).1
        have hera := (hleap hlast).2
        omega
      · omega
    have hlow : 0 ≤ rest := by omega
    have hdays' : dayOfEra = 36524 * century + rest := by omega
    clear hdays hrest
    omega
  obtain ⟨ahead, hcycles, hahead⟩ : ∃ ahead : Int,
      dayOfEra / 1460 = 25 * century + cycle + ahead ∧ 0 ≤ day - ahead ∧ day - ahead ≤ 364 :=
    ⟨dayOfEra / 1460 - (25 * century + cycle), by omega, by omega, by omega⟩
  have hsplit : dayOfEra - dayOfEra / 1460 + dayOfEra / 36524 - dayOfEra / 146096 =
      365 * (100 * century + 4 * cycle + year) + (day - ahead) := by
    omega
  rw [hsplit]
  omega

/-- The day of a year is what the days before that year leave. -/
theorem dayOfYear_eq (h : IsCycle dayOfEra century cycle year day) :
    dayOfEra - (365 * (100 * century + 4 * cycle + year) +
      (100 * century + 4 * cycle + year) / 4 - (100 * century + 4 * cycle + year) / 100) = day := by
  obtain ⟨hcentury, hcycle, hyear, -, -, hdays⟩ := h
  omega

/-! ### Months from March on -/

/-- The day number of the first of March. -/
def marchStart (year : Int) : Int := daysBeforeYear year + leapDays year + 60

/-- A day from March on is a day of a month, of the next year from January on. A 366th day is the
29th of February of a leap year. -/
theorem exists_date_of_march {year day : Int} (hpos : 0 ≤ day) (hle : day ≤ 365)
    (hleap : day = 365 → IsLeapYear (year + 1)) :
    let monthPart := (5 * day + 2) / 153
    let month := monthPart + if monthPart < 10 then 3 else -9
    ∃ date : Date, date.year = year + (if month ≤ 2 then 1 else 0) ∧ date.month = month ∧
      date.day = day - (153 * monthPart + 2) / 5 + 1 ∧ date.dayNumber = marchStart year + day := by
  intro monthPart month
  obtain ⟨hfirst, hlast, hpart⟩ : 0 ≤ monthPart ∧ monthPart ≤ 11 ∧
      monthPart = (5 * day + 2) / 153 := ⟨by omega, by omega, rfl⟩
  have hsucc := daysBeforeYear_succ year
  have hmonth : month = monthPart + if monthPart < 10 then 3 else -9 := rfl
  clear_value month monthPart
  have hyear : month ≤ 2 ↔ 10 ≤ monthPart := by split at hmonth <;> omega
  have hday : day - (153 * monthPart + 2) / 5 + 1 ≤
      daysInMonth (year + if month ≤ 2 then 1 else 0) month := by
    unfold daysInMonth
    subst hmonth
    interval_cases monthPart <;> norm_num <;> first | omega | skip
    split_ifs with hcommon
    · omega
    · have hne : day ≠ 365 := fun hlate => hcommon (hleap hlate)
      omega
  refine ⟨⟨_, month, _, by split at hmonth <;> omega, by split at hmonth <;> omega, ?_, hday⟩,
    rfl, rfl, rfl, ?_⟩
  · omega
  · simp only [Date.dayNumber, daysBeforeMonth, marchStart]
    split at hmonth
    · rw [if_neg (by omega), if_neg (by omega)]
      simp only [Int.add_zero]
      omega
    · rw [if_pos (by omega), if_pos (by omega)]
      omega

/-! ### The date of a day -/

theorem january_le : (1 : Int) ≤ 12 := by decide

theorem one_le_january : 1 ≤ daysInMonth 1970 1 := by decide

/-- The first of January 1970. -/
def unixEpoch : Date where
  year := 1970
  month := 1
  day := 1
  month_pos := Int.le_refl 1
  month_le := january_le
  day_pos := Int.le_refl 1
  day_le := one_le_january

theorem marchStart_eq (h : IsCycle dayOfEra century cycle year day) (era : Int) :
    marchStart (100 * century + 4 * cycle + year + era * 400) + day =
      146097 * era + dayOfEra - 305 := by
  obtain ⟨hcentury, hcycle, hbounds, -, -, hdays⟩ := h
  obtain ⟨marchYear, hmarch⟩ :
      ∃ marchYear, marchYear = 100 * century + 4 * cycle + year + era * 400 := ⟨_, rfl⟩
  have hnext : daysBeforeYear (marchYear + 1) =
      365 * marchYear + marchYear / 4 - marchYear / 100 + marchYear / 400 := by
    rw [daysBeforeYear, add_sub_cancel_right]
  have hfour : marchYear / 4 = 25 * century + cycle + 100 * era := by omega
  have hhundred : marchYear / 100 = century + 4 * era := by omega
  have hera : marchYear / 400 = era := by omega
  have hsucc := daysBeforeYear_succ marchYear
  unfold marchStart
  rw [← hmarch]
  omega

/-- The date of a day count, as long as the count plus the days before 1970 is an `i64`. -/
theorem civilDateFromDays_spec {days : Int} (hlow : -719468 ≤ days)
    (hhigh : days + 719468 ≤ i64Max) :
    ∃ date : Date, civilDateFromDays days = (date.year, date.month, date.day) ∧
      unixEpoch.IsDaysAfter days date := by
  have hz : wrappingAdd days 719468 = days + 719468 := by
    have hmax : ((i64Max : Nat) : Int) = 2 ^ 63 - 1 := by decide
    exact Int.bmod_eq_of_le (by omega) (by omega)
  have hpos : 0 ≤ days + 719468 := by omega
  obtain ⟨dayOfEra, hday⟩ : ∃ dayOfEra, dayOfEra =
      days + 719468 - (days + 719468) / 146097 * 146097 := ⟨_, rfl⟩
  have hera : 0 ≤ dayOfEra ∧ dayOfEra < 146097 := by omega
  obtain ⟨century, cycle, year, day, hcycle⟩ := exists_cycle hera.1 hera.2
  have hleap : day = 365 → IsLeapYear
      (100 * century + 4 * cycle + year + (days + 719468) / 146097 * 400 + 1) := by
    intro hlast
    obtain ⟨hthree, hlastCycle⟩ := hcycle.leap hlast
    have hcentury := hcycle.century_bounds
    have hbounds := hcycle.cycle_bounds
    unfold IsLeapYear
    omega
  obtain ⟨date, hyear, hmonth, hdate, hnumber⟩ :=
    exists_date_of_march hcycle.day_bounds.1 hcycle.day_bounds.2 hleap
  refine ⟨date, ?_, ?_⟩
  · unfold civilDateFromDays
    dsimp only
    rw [hz, if_pos hpos, ← hday, yearOfEra_eq hcycle, dayOfYear_eq hcycle, hyear, hmonth, hdate]
  · have hstart : unixEpoch.dayNumber = 719163 := by decide
    rw [Date.isDaysAfter_iff, hnumber, marchStart_eq hcycle, hstart]
    omega

/-- A count at the end of the range wraps to a year long before 1970. -/
theorem civilDateFromDays_overflow :
    ¬ ∃ date : Date, civilDateFromDays i64Max = (date.year, date.month, date.day) ∧
      unixEpoch.IsDaysAfter i64Max date := by
  rintro ⟨date, heq, hafter⟩
  have hyear : date.year < 0 := by
    rw [show date.year = (civilDateFromDays i64Max).1 from heq ▸ rfl]
    decide +kernel
  have hstart : unixEpoch.dayNumber = 719163 := by decide
  have hbounds := date.dayNumber_bounds
  have hnext : date.year + 1 ≤ 1 := by omega
  have hzero := daysBeforeYear_le hnext
  have hfirst : daysBeforeYear 1 = 0 := rfl
  rw [Date.isDaysAfter_iff, hstart] at hafter
  omega

end CodexInfo.Reader.PeriodLabels
