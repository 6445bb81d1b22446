import TransitQuery.Time.Instant
import Mathlib.Algebra.Order.Ring.Int
import Mathlib.Tactic.IntervalCases

/-!
# Days and dates

Every day has a date: `Instant.dateFromDays` gives a month of the year and a day of the month, and
`Instant.daysFromDate` leads back from them (`Instant.daysFromDate_dateFromDays`). Both count years
from March, so that the days before a year are `365 * y + y / 4 - y / 100 + y / 400`.

The year of a day is found by a division that is not exact. That it is right is seen from its
values at the first and the last day of each of the 400 years of an era, between which it cannot
fall.

* `Instant.daysBefore_yearOfDay`: every day lies between the first day of its year and that of the
  next one.
* `Instant.isDate_dateFromDays`: the date of a day is one that the calendar has, with a month from
  1 to 12 and a day that is not beyond the end of the month, leap years included.
* `Instant.year_dateFromDays`: a day between the starts of two years has a year between them. The
  reader of instants needs this, since it knows only years up to a bound.

Years may be negative. An era has 146097 days, and the rest of a day within its era is never
negative, so the division within an era is all there is to look at.
-/

namespace TransitQuery

namespace Instant

/-- The days before a year, from the year zero, where years start in March. -/
def daysBefore (year : Int) : Int :=
  365 * year + year / 4 - year / 100 + year / 400

/-- The year of an era that a day of the era lies in. -/
def yearOfEra (day : Int) : Int :=
  (day - day / 1460 + day / 36524 - day / 146096) / 365

/-! ### The year of a day -/

private theorem daysBefore_mono {a b : Int} (h : a ≤ b) : daysBefore a ≤ daysBefore b := by
  simp only [daysBefore]
  omega

/-- The year does not fall from one day to a later one. -/
theorem yearOfEra_mono {a b : Int} (ha : 0 ≤ a) (hab : a ≤ b) (hb : b < 146097) :
    yearOfEra a ≤ yearOfEra b := by
  have hshort : a - a / 1460 ≤ b - b / 1460 := by omega
  have hlong : a / 36524 - a / 146096 ≤ b / 36524 - b / 146096 := by omega
  simp only [yearOfEra]
  omega

/-- The first and the last day of each year of an era lie in it. -/
theorem yearOfEra_ends {year : Int} (h0 : 0 ≤ year) (h : year < 400) :
    yearOfEra (daysBefore year) = year ∧ yearOfEra (daysBefore (year + 1) - 1) = year := by
  obtain ⟨n, rfl⟩ := Int.eq_ofNat_of_zero_le h0
  have hall : ∀ n : Fin 400, yearOfEra (daysBefore (n.val : Int)) = (n.val : Int) ∧
      yearOfEra (daysBefore ((n.val : Int) + 1) - 1) = (n.val : Int) := by decide +kernel
  exact hall ⟨n, by omega⟩

/-- A day of an era lies between the ends of its year. -/
theorem daysBefore_yearOfEra {day : Int} (h0 : 0 ≤ day) (h : day < 146097) :
    (0 ≤ yearOfEra day ∧ yearOfEra day < 400) ∧
      daysBefore (yearOfEra day) ≤ day ∧ day < daysBefore (yearOfEra day + 1) := by
  have hfirst : yearOfEra 0 = 0 := by decide
  have hlast : yearOfEra 146096 = 399 := by decide
  have hstart : daysBefore 0 = 0 := by decide
  have hend : daysBefore 400 = 146097 := by decide
  have hlow := yearOfEra_mono le_rfl h0 h
  have hhigh := yearOfEra_mono h0 (by omega : day ≤ 146096) (by decide)
  refine ⟨by omega, ?_, ?_⟩
  · -- a day before the first of its year would lie in the year before at the latest
    by_contra hbefore
    have hpos : 1 ≤ yearOfEra day := by
      by_contra hzero
      have hzero : yearOfEra day = 0 := by omega
      rw [hzero, hstart] at hbefore
      exact hbefore h0
    have hmost := daysBefore_mono (by omega : yearOfEra day ≤ 400)
    have hends := (yearOfEra_ends (by omega : 0 ≤ yearOfEra day - 1) (by omega)).2
    rw [sub_add_cancel] at hends
    have hmono := yearOfEra_mono h0 (by omega : day ≤ daysBefore (yearOfEra day) - 1) (by omega)
    omega
  · -- and one behind its last in the next year at the earliest
    by_contra hbehind
    have hlt : yearOfEra day + 1 < 400 := by
      by_contra hlarge
      have hlarge : yearOfEra day + 1 = 400 := by omega
      rw [hlarge, hend] at hbehind
      exact hbehind h
    have hleast := daysBefore_mono (by omega : 0 ≤ yearOfEra day + 1)
    have hends := (yearOfEra_ends (by omega) hlt).1
    have hmono := yearOfEra_mono (by omega) (by omega : daysBefore (yearOfEra day + 1) ≤ day) h
    omega

/-! ### Months -/

/-- The days of a year before a month, where months count from March. -/
def daysBeforeMonth (month : Int) : Int :=
  (153 * month + 2) / 5

/-- The month of a year that a day of the year lies in. -/
def monthOfDay (day : Int) : Int :=
  (5 * day + 2) / 153

/-- A year that starts in March has a leap day at its end if the next one is a leap year. -/
theorem daysBefore_succ (year : Int) :
    daysBefore (year + 1) = daysBefore year + if isLeapYear (year + 1) then 366 else 365 := by
  cases hleap : isLeapYear (year + 1) <;>
    simp only [isLeapYear, Bool.and_eq_true, Bool.or_eq_true, Bool.and_eq_false_iff,
      Bool.or_eq_false_iff, decide_eq_true_eq, decide_eq_false_iff_not, bne_iff_ne,
      bne_eq_false_iff_eq] at hleap <;>
    simp only [daysBefore, if_true, Bool.false_eq_true, if_false] <;>
    omega

/-- A date is found from the days before its year and its month. -/
theorem daysFromDate_eq (year : Int) (month day : Nat) :
    daysFromDate year month day = daysBefore (if month ≤ 2 then year - 1 else year) +
      daysBeforeMonth ((month + 9) % 12 : Nat) + day - 1 - 719468 := by
  simp only [daysFromDate, daysBefore, daysBeforeMonth]
  omega

/-- The length of a month that is not the last of its year, which is February. -/
theorem daysInMonth_eq (year : Int) {month : Int} (h0 : 0 ≤ month) (h : month < 11) :
    (daysInMonth year ((month + 2) % 12 + 1).toNat : Int) =
      daysBeforeMonth (month + 1) - daysBeforeMonth month := by
  interval_cases month <;> rfl

/-- The date of a day of a year. -/
def dateOfYear (year day : Int) : Int × Nat × Nat :=
  let month := monthOfDay day
  (year + month / 10, ((month + 2) % 12 + 1).toNat, (day - daysBeforeMonth month + 1).toNat)

/-- A date that the calendar has. -/
def IsDate (date : Int × Nat × Nat) : Prop :=
  1 ≤ date.2.1 ∧ date.2.1 ≤ 12 ∧ 1 ≤ date.2.2 ∧ date.2.2 ≤ daysInMonth date.1 date.2.1

section DateOfYear

variable {year day : Int}

/-- A day of a year lies in its month. -/
private theorem monthOfDay_spec (h0 : 0 ≤ day) (h : day < 366) :
    (0 ≤ monthOfDay day ∧ monthOfDay day < 12) ∧
      daysBeforeMonth (monthOfDay day) ≤ day ∧ day < daysBeforeMonth (monthOfDay day + 1) := by
  simp only [daysBeforeMonth, monthOfDay]
  omega

/-- The date of a day of a year is one of the calendar. -/
theorem isDate_dateOfYear (h0 : 0 ≤ day) (h : daysBefore year + day < daysBefore (year + 1)) :
    IsDate (dateOfYear year day) := by
  rw [daysBefore_succ] at h
  obtain ⟨⟨hlow, hhigh⟩, hstart, hend⟩ := monthOfDay_spec h0 (by split at h <;> omega)
  rw [dateOfYear, IsDate]
  dsimp only
  refine ⟨by omega, by omega, by omega, ?_⟩
  by_cases hlast : monthOfDay day < 11
  · have hlength := daysInMonth_eq (year + monthOfDay day / 10) hlow hlast
    omega
  · have hmonth : monthOfDay day = 11 := by omega
    have hbefore : daysBeforeMonth 11 = 337 := by decide
    rw [hmonth, hbefore]
    have hlength : daysInMonth (year + 11 / 10) ((11 + 2) % 12 + 1 : Int).toNat =
        if isLeapYear (year + 1) then 29 else 28 := rfl
    rw [hlength]
    split at h
    · rw [if_pos ‹_›]
      omega
    · rw [if_neg ‹_›]
      omega

/-- It leads back to the day. -/
theorem daysFromDate_dateOfYear (h0 : 0 ≤ day) (h : daysBefore year + day < daysBefore (year + 1)) :
    daysFromDate (dateOfYear year day).1 (dateOfYear year day).2.1 (dateOfYear year day).2.2 =
      daysBefore year + day - 719468 := by
  rw [daysBefore_succ] at h
  obtain ⟨⟨hlow, hhigh⟩, hstart, -⟩ := monthOfDay_spec h0 (by split at h <;> omega)
  have hyear : (if ((monthOfDay day + 2) % 12 + 1).toNat ≤ 2 then year + monthOfDay day / 10 - 1
      else year + monthOfDay day / 10) = year := by
    split <;> omega
  have hmonth : (((((monthOfDay day + 2) % 12 + 1).toNat + 9) % 12 : Nat) : Int) =
      monthOfDay day := by omega
  rw [dateOfYear]
  dsimp only
  rw [daysFromDate_eq, hyear, hmonth]
  omega

end DateOfYear

/-! ### Dates of days -/

/-- The year that a day lies in, counted from the day that starts an era. -/
def yearOfDay (day : Int) : Int :=
  yearOfEra (day % 146097) + day / 146097 * 400

/-- Every day lies in its year. -/
theorem daysBefore_yearOfDay (day : Int) :
    daysBefore (yearOfDay day) ≤ day ∧ day < daysBefore (yearOfDay day + 1) := by
  have h0 := Int.emod_nonneg day (by decide : (146097 : Int) ≠ 0)
  have hlt := Int.emod_lt_of_pos day (by decide : (0 : Int) < 146097)
  have hera (n : Int) : daysBefore (n + day / 146097 * 400) =
      daysBefore n + day / 146097 * 146097 := by
    simp only [daysBefore]
    omega
  obtain ⟨-, hstart, hend⟩ := daysBefore_yearOfEra h0 hlt
  have hnext := hera (yearOfEra (day % 146097) + 1)
  rw [add_right_comm] at hnext
  rw [yearOfDay, hera, hnext]
  omega

/-- The date of a day is that of the day of its year. -/
theorem dateFromDays_eq (days : Int) : dateFromDays days =
    dateOfYear (yearOfDay (days + 719468))
      (days + 719468 - daysBefore (yearOfDay (days + 719468))) := by
  have h0 := Int.emod_nonneg (days + 719468) (by decide : (146097 : Int) ≠ 0)
  have hlt := Int.emod_lt_of_pos (days + 719468) (by decide : (0 : Int) < 146097)
  obtain ⟨hyear, -⟩ := daysBefore_yearOfEra h0 hlt
  obtain ⟨hstart, hend⟩ := daysBefore_yearOfDay (days + 719468)
  rw [daysBefore_succ] at hend
  obtain ⟨hmonth, -⟩ := monthOfDay_spec (sub_nonneg.mpr hstart) (by split at hend <;> omega)
  have hday : (days + 719468) % 146097 - (365 * yearOfEra ((days + 719468) % 146097) +
      yearOfEra ((days + 719468) % 146097) / 4 - yearOfEra ((days + 719468) % 146097) / 100) =
        days + 719468 - daysBefore (yearOfDay (days + 719468)) := by
    simp only [daysBefore, yearOfDay]
    omega
  -- Inside the computation a year starts in March.
  have hcivil (month : Int) (h : 0 ≤ month ∧ month < 12) :
      (if month < 10 then month + 3 else month - 9) = (month + 2) % 12 + 1 := by
    split <;> omega
  have hturn (month : Int) (h : 0 ≤ month ∧ month < 12) :
      (if (month + 2) % 12 + 1 ≤ 2 then 1 else 0) = month / 10 := by
    split <;> omega
  simp only [dateFromDays, dateOfYear]
  rw [← yearOfEra, hday, ← monthOfDay, ← daysBeforeMonth, hcivil _ hmonth, hturn _ hmonth,
    yearOfDay]

/-- The date of a day is one of the calendar. -/
theorem isDate_dateFromDays (days : Int) : IsDate (dateFromDays days) := by
  obtain ⟨hstart, hend⟩ := daysBefore_yearOfDay (days + 719468)
  rw [dateFromDays_eq]
  exact isDate_dateOfYear (sub_nonneg.mpr hstart) (by rwa [add_sub_cancel])

/-- The date of a day leads back to it. -/
theorem daysFromDate_dateFromDays (days : Int) :
    daysFromDate (dateFromDays days).1 (dateFromDays days).2.1 (dateFromDays days).2.2 = days := by
  obtain ⟨hstart, hend⟩ := daysBefore_yearOfDay (days + 719468)
  rw [dateFromDays_eq,
    daysFromDate_dateOfYear (sub_nonneg.mpr hstart) (by rwa [add_sub_cancel])]
  omega

/-! ### The order of years -/

/-- No month has more than 31 days. -/
theorem daysInMonth_le (year : Int) (month : Nat) : daysInMonth year month ≤ 31 := by
  unfold daysInMonth
  split
  · split <;> omega
  all_goals omega

/-- A date lies behind the start of its year and before that of the next. -/
theorem daysFromDate_bounds {date : Int × Nat × Nat} (h : IsDate date) :
    daysFromDate date.1 1 1 ≤ daysFromDate date.1 date.2.1 date.2.2 ∧
      daysFromDate date.1 date.2.1 date.2.2 < daysFromDate (date.1 + 1) 1 1 := by
  obtain ⟨year, month, day⟩ := date
  obtain ⟨hmonth1, hmonth12, hday1, hday⟩ := h
  have hlong := hday.trans (daysInMonth_le year month)
  dsimp only at hmonth1 hmonth12 hday1 hlong ⊢
  rw [daysFromDate_eq, daysFromDate_eq, daysFromDate_eq]
  have hsucc : daysBefore (year - 1) + 365 ≤ daysBefore year := by
    simp only [daysBefore]
    omega
  simp only [daysBeforeMonth, Nat.one_le_ofNat, if_true, add_sub_cancel_right]
  split
  all_goals omega

private theorem daysFromDate_mono {a b : Int} (h : a ≤ b) :
    daysFromDate a 1 1 ≤ daysFromDate b 1 1 := by
  have hmono := daysBefore_mono (by omega : a - 1 ≤ b - 1)
  rw [daysFromDate_eq, daysFromDate_eq, if_pos (by decide), if_pos (by decide)]
  omega

/-- A day between the starts of two years has a year between them. -/
theorem year_dateFromDays {days first last : Int} (hfirst : daysFromDate first 1 1 ≤ days)
    (hlast : days < daysFromDate (last + 1) 1 1) :
    first ≤ (dateFromDays days).1 ∧ (dateFromDays days).1 ≤ last := by
  obtain ⟨hlow, hhigh⟩ := daysFromDate_bounds (isDate_dateFromDays days)
  rw [daysFromDate_dateFromDays] at hlow hhigh
  constructor
  · by_contra hbefore
    have hmono := daysFromDate_mono (by omega : (dateFromDays days).1 + 1 ≤ first)
    omega
  · by_contra hbehind
    have hmono := daysFromDate_mono (by omega : last + 1 ≤ (dateFromDays days).1)
    omega

end Instant

end TransitQuery
