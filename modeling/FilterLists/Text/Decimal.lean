/-
This file reads decimal digits and decimal numerals, and says which numerals are within the range
of double precision numbers.
-/

import FilterLists.Double

namespace FilterLists.Text

/-! ### Digits -/

/-- The digits that a text starts with, and what stands after them. -/
def digits (text : List Char) : List Char × List Char :=
  (text.takeWhile Char.isDigit, text.dropWhile Char.isDigit)

/-- The number that digits write after those of another number. -/
def appendDigit (value : Nat) (digit : Char) : Nat :=
  value * 10 + (digit.toNat - '0'.toNat)

/-- The number that digits write. -/
def digitsValue (text : List Char) : Nat :=
  text.foldl appendDigit 0

/-! ### Numerals -/

/-- The parts of a decimal numeral without its sign: the digits before and after the point, and
the power of ten that it is multiplied by. -/
structure Decimal where
  whole : List Char
  places : List Char
  exponent : Int

namespace Decimal

/-- The exponent that a text writes. The empty text stands for none. -/
def exponentOf (text : List Char) : Int :=
  let magnitude : Int := digitsValue (text.filter Char.isDigit)
  if text.head? = some '-' then -magnitude else magnitude

/-- The parts of a numeral. -/
def ofNumeral (numeral : String) : Decimal :=
  let isMantissa := fun character => character != 'e' && character != 'E'
  let mantissa := (numeral.toList.takeWhile isMantissa).filter (· != '-')
  { whole := mantissa.takeWhile (· != '.')
    places := (mantissa.dropWhile (· != '.')).drop 1
    exponent := exponentOf ((numeral.toList.dropWhile isMantissa).drop 1) }

/-- Whether a numeral is within the range of double precision numbers. A great exponent is not
computed: with a digit other than zero before it, it puts the number out of range or near zero
whatever the digits are. -/
def isInRange (decimal : Decimal) : Bool :=
  let value := digitsValue (decimal.whole ++ decimal.places)
  let shift := decimal.exponent - decimal.places.length
  if value = 0 then true
  else if shift < 0 then
    decimal.exponent ≤ -(decimal.whole.length : Int)
      || value < Double.limit * Nat.pow 10 (-shift).toNat
  else if 310 ≤ shift then false
  else value * Nat.pow 10 shift.toNat < Double.limit

end Decimal

end FilterLists.Text
