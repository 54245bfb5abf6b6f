/-
This file holds the rules of the Gregorian calendar: which years have a leap day, how long a month
is, and which date comes after a date.
-/

namespace FilterLists

/-- A date of the Gregorian calendar, where January is 1. -/
structure Date where
  year : Nat
  month : Nat
  day : Nat
  deriving DecidableEq, Repr

namespace Date

/-- Whether a year has a leap day. -/
def IsLeap (year : Nat) : Prop :=
  4 ∣ year ∧ (100 ∣ year → 400 ∣ year)

instance (year : Nat) : Decidable (IsLeap year) :=
  inferInstanceAs (Decidable (_ ∧ _))

def daysInYear (year : Nat) : Nat :=
  if IsLeap year then 366 else 365

/-- How many days a month of a year has. -/
def daysInMonth (year month : Nat) : Nat :=
  if month = 2 then if IsLeap year then 29 else 28
  else if month ∈ [4, 6, 9, 11] then 30 else 31

/-- Whether a year has the month of a date, and the month the day. -/
def IsValid (date : Date) : Prop :=
  1 ≤ date.month ∧ date.month ≤ 12 ∧ 1 ≤ date.day ∧ date.day ≤ daysInMonth date.year date.month

instance (date : Date) : Decidable date.IsValid :=
  inferInstanceAs (Decidable (_ ∧ _))

/-- The date of the day after. -/
def next (date : Date) : Date :=
  if date.day < daysInMonth date.year date.month then { date with day := date.day + 1 }
  else if date.month < 12 then { date with month := date.month + 1, day := 1 }
  else { year := date.year + 1, month := 1, day := 1 }

theorem daysInYear_le (year : Nat) : daysInYear year ≤ 366 := by
  unfold daysInYear
  split <;> decide

theorem daysInYear_pos (year : Nat) : 0 < daysInYear year := by
  unfold daysInYear
  split <;> decide

theorem one_le_daysInMonth (year month : Nat) : 1 ≤ daysInMonth year month := by
  unfold daysInMonth
  split
  · split <;> decide
  · split <;> decide

theorem IsValid.next {date : Date} (valid : date.IsValid) : date.next.IsValid := by
  obtain ⟨fromMonth, toMonth, fromDay, toDay⟩ := valid
  unfold Date.next
  split
  · rename_i inMonth
    exact ⟨fromMonth, toMonth, Nat.le_add_left 1 _, inMonth⟩
  · split
    · rename_i inYear
      exact ⟨Nat.le_add_left 1 _, inYear, Nat.le_refl 1, one_le_daysInMonth _ _⟩
    · exact ⟨Nat.le_refl 1, Nat.le_add_left 1 11, Nat.le_refl 1, one_le_daysInMonth _ _⟩

end Date

end FilterLists
