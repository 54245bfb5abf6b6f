/-
This file says which numbers of JSON are within range. A number is kept in double precision, as a
significand times a power of ten; the significand has no more digits than fit into 64 bits, and it
and the power are rounded before they are multiplied. So close to the limit a number can be in
range although it is too great, and out of range although it is not.
-/

import FilterLists.Text.Decimal

namespace FilterLists.Json

/-- A number as a significand times a power of ten. -/
structure Scaled where
  significand : Nat
  exponent : Int

/-- The least integer that is too great for a significand. -/
def significandLimit : Nat := Nat.pow 2 64

/-- A number with digits written after it, for as long as it stays below the limit, and the digits
that are left then. -/
def appendDigits (value : Nat) : List Char → Nat × List Char
  | [] => (value, [])
  | digit :: rest =>
    if Text.appendDigit value digit < significandLimit then
      appendDigits (Text.appendDigit value digit) rest
    else (value, digit :: rest)

namespace Scaled

/-- The number that a numeral writes. Digits of its whole part that are left out count for the
power of ten; those of its fraction do not count at all. -/
def ofDecimal (decimal : Text.Decimal) : Scaled :=
  let (start, skipped) := appendDigits 0 decimal.whole
  let (significand, ignored) := appendDigits start decimal.places
  { significand
    exponent := decimal.exponent + skipped.length + ignored.length - decimal.places.length }

/-- The greatest exponent for which a power of ten is a double precision number. -/
def greatestExponent : Int := 308

/-- Whether a number is within range. Division never leads out of it, and zero stays zero whatever
it is multiplied by. -/
def isInRange (number : Scaled) : Bool :=
  if number.exponent < 0 then true
  else if greatestExponent < number.exponent then number.significand == 0
  else
    Double.round number.significand * Double.round (Nat.pow 10 number.exponent.toNat)
      < Double.limit

end Scaled

/-- Whether the number that a numeral writes is within range. -/
def isInRange (numeral : String) : Bool :=
  (Scaled.ofDecimal (.ofNumeral numeral)).isInRange

end FilterLists.Json
