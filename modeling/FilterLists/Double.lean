/-
This file holds what is needed of double precision numbers to say whether a decimal numeral can be
kept as one: where their range ends, and how an integer is rounded to one of them. Both are exact
integer arithmetic.
-/

namespace FilterLists.Double

/-- The least integer that is out of range: halfway between the greatest double precision number
and the next power of two. -/
def limit : Nat := Nat.pow 2 1024 - Nat.pow 2 970

/-- An integer rounded to 53 binary digits, which is how many a double precision number has. A
half goes to the even neighbour. -/
def round (value : Nat) : Nat :=
  let unit := Nat.pow 2 (value.log2 - 52)
  let quotient := value / unit
  let rest := value % unit
  if unit < 2 * rest ∨ (unit = 2 * rest ∧ quotient % 2 = 1) then (quotient + 1) * unit
  else quotient * unit

end FilterLists.Double
