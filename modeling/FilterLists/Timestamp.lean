/-
This file writes points in time the way an activity log does: the date and the time of day in
universal time, to the second, as in `2024-02-29T23:59:59Z`.
-/

import FilterLists.Calendar

namespace FilterLists.Timestamp

/-! ### Dates

The calendar repeats every 400 years, which have 146097 days. Counted from the first of March of
the year 0, a leap day is the last day of its year. So the last of four years can be longer than
the others, the last four of a hundred can be shorter, and the last hundred of 400 is longer; and
the length of the months before a day of the year depends on nothing but that day. -/

/-- The year of 400 that a day of these years is in, and the day of the year, counted from 0. -/
def splitEra (dayOfEra : Nat) : Nat × Nat :=
  let century := min 3 (dayOfEra / 36524)
  let dayOfCentury := dayOfEra - 36524 * century
  let dayOfFour := dayOfCentury % 1461
  let yearOfFour := min 3 (dayOfFour / 365)
  (100 * century + 4 * (dayOfCentury / 1461) + yearOfFour, dayOfFour - 365 * yearOfFour)

/-- The date of a day, counted from 0, of a year that starts in March. -/
def dateOfYearDay (yearFromMarch dayOfYear : Nat) : Date :=
  -- The five months from March on have 153 days, and so have those from August on.
  let monthFromMarch := (5 * dayOfYear + 2) / 153
  let month := if monthFromMarch < 10 then monthFromMarch + 3 else monthFromMarch - 9
  { year := yearFromMarch + (if month ≤ 2 then 1 else 0)
    month
    day := dayOfYear - (153 * monthFromMarch + 2) / 5 + 1 }

/-- The date that lies a number of days after the first of January 1970. -/
def dateOfDays (days : Nat) : Date :=
  -- So many days lie between the first of March of the year 0 and the first of January 1970.
  let sinceMarch := days + 719468
  let (yearOfEra, dayOfYear) := splitEra (sinceMarch % 146097)
  dateOfYearDay (400 * (sinceMarch / 146097) + yearOfEra) dayOfYear

/-! ### Texts -/

/-- A number with zeros before it, up to a width. -/
def padded (width value : Nat) : String :=
  let digits := toString value
  String.ofList (List.replicate (width - digits.length) '0') ++ digits

/-- A year in four digits. With more digits it has a plus sign. -/
def yearText (year : Nat) : String :=
  if year ≤ 9999 then padded 4 year else "+" ++ toString year

/-- The text of a point in time that is given in seconds since the start of 1970. -/
def render (seconds : Nat) : String :=
  let date := dateOfDays (seconds / 86400)
  let second := seconds % 86400
  yearText date.year ++ "-" ++ padded 2 date.month ++ "-" ++ padded 2 date.day ++ "T"
    ++ padded 2 (second / 3600) ++ ":" ++ padded 2 (second / 60 % 60) ++ ":"
    ++ padded 2 (second % 60) ++ "Z"

end FilterLists.Timestamp
