/-
This file finds the numerals of JSON. No field of a rule or a manifest is a number; what counts
is only where a numeral ends.
-/

import FilterLists.Text.Decimal

namespace FilterLists.Json

open Text (digits)

/-- The whole part of a numeral: a zero, or digits that start with another digit. -/
def wholePart? : List Char → Option (List Char × List Char)
  | '0' :: rest => some (['0'], rest)
  | text =>
    match digits text with
    | ([], _) => none
    | found => some found

/-- The fraction of a numeral, if a point comes next. A point needs a digit after it. -/
def fraction? : List Char → Option (List Char × List Char)
  | '.' :: rest =>
    match digits rest with
    | ([], _) => none
    | (found, after) => some ('.' :: found, after)
  | text => some ([], text)

/-- The sign of an exponent, if one comes next. -/
def exponentSign : List Char → List Char × List Char
  | '+' :: rest => (['+'], rest)
  | '-' :: rest => (['-'], rest)
  | text => ([], text)

/-- The exponent of a numeral, if one comes next. It needs a digit. -/
def exponent? : List Char → Option (List Char × List Char)
  | [] => some ([], [])
  | mark :: rest =>
    if mark = 'e' ∨ mark = 'E' then
      match digits (exponentSign rest).2 with
      | ([], _) => none
      | (found, after) => some (mark :: (exponentSign rest).1 ++ found, after)
    else some ([], mark :: rest)

/-- The sign of a numeral, if one comes next. -/
def sign : List Char → List Char × List Char
  | '-' :: rest => (['-'], rest)
  | text => ([], text)

/-- The numeral that a text starts with, and what stands after it. -/
def numeral? (text : List Char) : Option (List Char × List Char) :=
  match wholePart? (sign text).2 with
  | none => none
  | some (whole, afterWhole) =>
    match fraction? afterWhole with
    | none => none
    | some (fraction, afterFraction) =>
      (exponent? afterFraction).map fun (exponent, after) =>
        ((sign text).1 ++ whole ++ fraction ++ exponent, after)

end FilterLists.Json
