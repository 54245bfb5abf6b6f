/-
This file shows that the dates of an activity log are those of the calendar. They are computed from
a number of days by divisions, which say nothing of months and leap years. The calendar says what
the day after a day is, and that is how the dates are judged: day by day, from the first of January
1970 on.

A number of days is split in just one way into years that start in March and a day of the last of
them. So it is enough to follow such a pair from one day to the next.
-/

import FilterLists.Timestamp
import Mathlib.Logic.Function.Iterate
import Mathlib.Tactic.IntervalCases

namespace FilterLists.Timestamp

open Date (IsLeap daysInYear daysInYear_le daysInYear_pos daysInMonth)

variable {year day days : Nat}

/-! ### Years that start in March -/

/-- How many days there are from the first of March of the year 0 to that of a year. -/
def daysBeforeMarch (year : Nat) : Nat :=
  365 * year + year / 4 - year / 100 + year / 400

theorem daysBeforeMarch_succ (year : Nat) :
    daysBeforeMarch (year + 1) = daysBeforeMarch year + daysInYear (year + 1) := by
  have fewer : year / 100 ≤ year / 4 := Nat.div_le_div_left (by decide) (by decide)
  unfold daysBeforeMarch daysInYear
  rw [Nat.succ_div, Nat.succ_div, Nat.succ_div]
  by_cases isLeap : IsLeap (year + 1)
  · rw [if_pos isLeap]
    obtain ⟨byFour, byHundred⟩ := isLeap
    split_ifs <;> omega
  · rw [if_neg isLeap]
    unfold IsLeap at isLeap
    split_ifs <;> omega

/-- Every number of days ends on a day of some year. -/
theorem exists_eq_daysBeforeMarch_add (days : Nat) :
    ∃ year day, days = daysBeforeMarch year + day ∧ day < daysInYear (year + 1) := by
  induction days with
  | zero => exact ⟨0, 0, rfl, by decide⟩
  | succ days inductionHypothesis =>
    obtain ⟨year, day, split, inYear⟩ := inductionHypothesis
    by_cases isLast : day + 1 = daysInYear (year + 1)
    · refine ⟨year + 1, 0, ?_, daysInYear_pos _⟩
      rw [daysBeforeMarch_succ, ← isLast, split]
      rfl
    · exact ⟨year, day + 1, by omega, by omega⟩

/-- A year in units of 400, 100 and 4 years. -/
theorem exists_eq_units (year : Nat) :
    ∃ era century four rest, year = 400 * era + (100 * century + 4 * four + rest) ∧
      century < 4 ∧ four < 25 ∧ rest < 4 :=
  ⟨year / 400, year % 400 / 100, year % 100 / 4, year % 4, by omega, by omega, by omega, by omega⟩

section

variable {era century four rest : Nat}

theorem daysBeforeMarch_units (lastCentury : century < 4) (lastFour : four < 25)
    (lastRest : rest < 4) :
    daysBeforeMarch (400 * era + (100 * century + 4 * four + rest)) =
      146097 * era + (36524 * century + 1461 * four + 365 * rest) := by
  unfold daysBeforeMarch
  omega

/-- Only the last of four years can have 366 days, and among those that end a hundred years only the
one that ends 400 years. -/
theorem lt_or_eq_of_lt_daysInYear (lastCentury : century < 4) (lastRest : rest < 4)
    (inYear : day < daysInYear (400 * era + (100 * century + 4 * four + rest) + 1)) :
    day < 365 ∨ day = 365 ∧ rest = 3 ∧ (four = 24 → century = 3) := by
  unfold daysInYear at inYear
  split at inYear
  · rename_i isLeap
    obtain ⟨byFour, byHundred⟩ := isLeap
    omega
  · exact .inl inYear

theorem splitEra_units (lastCentury : century < 4) (lastFour : four < 25) (lastRest : rest < 4)
    (inYear : day < 365 ∨ day = 365 ∧ rest = 3 ∧ (four = 24 → century = 3)) :
    splitEra (36524 * century + 1461 * four + 365 * rest + day) =
      (100 * century + 4 * four + rest, day) := by
  have isCentury :
      min 3 ((36524 * century + 1461 * four + 365 * rest + day) / 36524) = century := by
    omega
  have isFour : (1461 * four + 365 * rest + day) / 1461 = four := by omega
  have isRest : min 3 ((365 * rest + day) / 365) = rest := by omega
  have dayOfCentury : 36524 * century + 1461 * four + 365 * rest + day - 36524 * century =
      1461 * four + 365 * rest + day := by
    omega
  have dayOfFour : (1461 * four + 365 * rest + day) % 1461 = 365 * rest + day := by omega
  simp only [splitEra, isCentury, dayOfCentury, isFour, dayOfFour, isRest, Nat.add_sub_cancel_left]

end

/-- A date is that of the day of the year on which the number of days ends. -/
theorem dateOfDays_eq (split : days + 719468 = daysBeforeMarch year + day)
    (inYear : day < daysInYear (year + 1)) : dateOfDays days = dateOfYearDay year day := by
  obtain ⟨era, century, four, rest, rfl, lastCentury, lastFour, lastRest⟩ := exists_eq_units year
  have shortOrLast := lt_or_eq_of_lt_daysInYear lastCentury lastRest inYear
  rw [daysBeforeMarch_units lastCentury lastFour lastRest] at split
  have isEra : (days + 719468) / 146097 = era := by omega
  have dayOfEra : (days + 719468) % 146097 =
      36524 * century + 1461 * four + 365 * rest + day := by
    omega
  simp only [dateOfDays, isEra, dayOfEra,
    splitEra_units lastCentury lastFour lastRest shortOrLast]

/-! ### From one day to the next -/

section

variable {month : Nat}

/-- The months but February, counted from March, have their lengths in every year. -/
theorem daysInMonth_of_lt (beforeLast : month < 11) (year : Nat) :
    daysInMonth year (if month < 10 then month + 3 else month - 9) =
      (153 * (month + 1) + 2) / 5 - (153 * month + 2) / 5 := by
  interval_cases month <;> rfl

/-- Within a month, the next day has the next date. -/
theorem dateOfYearDay_succ_of_eq (inYear : day + 1 < daysInYear (year + 1))
    (isMonth : (5 * day + 2) / 153 = month) (sameMonth : (5 * (day + 1) + 2) / 153 = month) :
    dateOfYearDay year (day + 1) = (dateOfYearDay year day).next := by
  have inMonth : (dateOfYearDay year day).day <
      daysInMonth (dateOfYearDay year day).year (dateOfYearDay year day).month := by
    simp only [dateOfYearDay, isMonth]
    by_cases beforeLast : month < 11
    · rw [daysInMonth_of_lt beforeLast]
      omega
    · have atMost := daysInYear_le (year + 1)
      obtain rfl : month = 11 := by omega
      show _ < if IsLeap (year + 1) then 29 else 28
      unfold daysInYear at inYear
      by_cases isLeap : IsLeap (year + 1)
      · rw [if_pos isLeap] at inYear ⊢
        omega
      · rw [if_neg isLeap] at inYear ⊢
        omega
  rw [Date.next, if_pos inMonth]
  simp only [dateOfYearDay, isMonth, sameMonth, Date.mk.injEq, true_and]
  omega

/-- The first day of a month has the next date after the last one of the month before. -/
theorem dateOfYearDay_succ_of_ne (beforeLast : month < 11)
    (isMonth : (5 * day + 2) / 153 = month) (nextMonth : (5 * (day + 1) + 2) / 153 = month + 1) :
    dateOfYearDay year (day + 1) = (dateOfYearDay year day).next := by
  have isLast : ¬(dateOfYearDay year day).day <
      daysInMonth (dateOfYearDay year day).year (dateOfYearDay year day).month := by
    simp only [dateOfYearDay, isMonth]
    rw [daysInMonth_of_lt beforeLast]
    omega
  rw [Date.next, if_neg isLast]
  have isFirst : day + 1 - (153 * (month + 1) + 2) / 5 + 1 = 1 := by omega
  simp only [dateOfYearDay, isMonth, nextMonth, isFirst]
  interval_cases month <;> rfl

end

/-- Within a year that starts in March, the next day has the next date. -/
theorem dateOfYearDay_succ (inYear : day + 1 < daysInYear (year + 1)) :
    dateOfYearDay year (day + 1) = (dateOfYearDay year day).next := by
  have atMost := daysInYear_le (year + 1)
  by_cases sameMonth : (5 * (day + 1) + 2) / 153 = (5 * day + 2) / 153
  · exact dateOfYearDay_succ_of_eq inYear rfl sameMonth
  · exact dateOfYearDay_succ_of_ne (by omega) rfl (by omega)

/-- The day after the last one of a year that starts in March has the next date. -/
theorem dateOfYearDay_zero (isLast : day + 1 = daysInYear (year + 1)) :
    dateOfYearDay (year + 1) 0 = (dateOfYearDay year day).next := by
  unfold daysInYear at isLast
  by_cases isLeap : IsLeap (year + 1)
  · rw [if_pos isLeap] at isLast
    obtain rfl : day = 365 := Nat.succ.inj isLast
    simp [dateOfYearDay, Date.next, daysInMonth, isLeap]
  · rw [if_neg isLeap] at isLast
    obtain rfl : day = 364 := Nat.succ.inj isLast
    simp [dateOfYearDay, Date.next, daysInMonth, isLeap]

theorem dateOfDays_zero : dateOfDays 0 = { year := 1970, month := 1, day := 1 } := by
  decide

/-- The date of the next day is the next one of the calendar. -/
theorem dateOfDays_succ (days : Nat) : dateOfDays (days + 1) = (dateOfDays days).next := by
  obtain ⟨year, day, split, inYear⟩ := exists_eq_daysBeforeMarch_add (days + 719468)
  rw [dateOfDays_eq split inYear]
  by_cases isLast : day + 1 = daysInYear (year + 1)
  · have onward : days + 1 + 719468 = daysBeforeMarch (year + 1) + 0 := by
      rw [daysBeforeMarch_succ]
      omega
    rw [dateOfDays_eq onward (daysInYear_pos _), dateOfYearDay_zero isLast]
  · have later : day + 1 < daysInYear (year + 1) := by omega
    rw [dateOfDays_eq (by omega) later, dateOfYearDay_succ later]

/-- The dates are those of the calendar, counted from the first of January 1970. -/
theorem dateOfDays_eq_iterate (days : Nat) :
    dateOfDays days = Date.next^[days] { year := 1970, month := 1, day := 1 } := by
  induction days with
  | zero => exact dateOfDays_zero
  | succ days inductionHypothesis =>
    rw [dateOfDays_succ, inductionHypothesis, Function.iterate_succ_apply']

example : render 1709251199 = "2024-02-29T23:59:59Z" := by decide +kernel

example : render 253402300800 = "+10000-01-01T00:00:00Z" := by decide +kernel

/-- Every date is one that the calendar has. -/
theorem isValid_dateOfDays (days : Nat) : (dateOfDays days).IsValid := by
  induction days with
  | zero => decide
  | succ days inductionHypothesis =>
    rw [dateOfDays_succ]
    exact inductionHypothesis.next

end FilterLists.Timestamp
