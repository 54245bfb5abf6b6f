/-
This file reads the values of TOML that are written without quotes: numbers, truth values, and
dates and times. Such a value is a run of letters, digits and a few marks; here it is decided what
a run stands for, if for anything.
-/

import FilterLists.Calendar
import FilterLists.Text.Decimal
import FilterLists.Toml.Value

namespace FilterLists.Toml

open Text (digitsValue)

/-! ### Digits -/

/-- The digits of a text without the underscores in it, each of which must stand between two
digits. There is at least one digit. -/
def ungrouped? (isDigit : Char → Bool) (text : List Char) : Option (List Char) :=
  go false text
where
  /-- `after` says whether a digit comes directly before. -/
  go (after : Bool) : List Char → Option (List Char)
    | [] => if after then some [] else none
    | character :: rest =>
      if isDigit character then (go true rest).map (character :: ·)
      else if character = '_' ∧ after then go false rest
      else none

/-- The value of a digit in a base up to sixteen. -/
def digitValue (digit : Char) : Nat :=
  if digit.isDigit then digit.toNat - '0'.toNat
  else if 'a' ≤ digit then digit.toNat - 'a'.toNat + 10
  else digit.toNat - 'A'.toNat + 10

/-- The number that digits write in a base. -/
def valueInBase (base : Nat) (digits : List Char) : Nat :=
  digits.foldl (fun value digit => value * base + digitValue digit) 0

def isHexDigit (character : Char) : Bool :=
  character.isDigit || ('a' ≤ character && character ≤ 'f')
    || ('A' ≤ character && character ≤ 'F')

def isOctalDigit (character : Char) : Bool :=
  '0' ≤ character && character ≤ '7'

def isBinaryDigit (character : Char) : Bool :=
  character == '0' || character == '1'

/-! ### Integers -/

/-- One more than the greatest integer that fits into 64 bits with a sign. -/
def wordLimit : Nat := Nat.pow 2 63

/-- An integer, if it fits into 64 bits with a sign. -/
def inWord? (value : Int) : Option Value :=
  if -(wordLimit : Int) ≤ value ∧ value < (wordLimit : Int) then some (.integer value) else none

/-- The sign that a text starts with, if it starts with one. -/
def splitSign : List Char → Option Char × List Char
  | '+' :: rest => (some '+', rest)
  | '-' :: rest => (some '-', rest)
  | text => (none, text)

/-- Decimal digits that may not start with a needless zero. -/
def wholeDigits? (text : List Char) : Option (List Char) := do
  let digits ← ungrouped? Char.isDigit text
  if digits.head? = some '0' ∧ digits.length ≠ 1 then none else some digits

/-- An integer, in decimal or with the mark of another base. -/
def integer? (text : List Char) : Option Value :=
  match text with
  | '0' :: 'x' :: rest => do inWord? (valueInBase 16 (← ungrouped? isHexDigit rest))
  | '0' :: 'o' :: rest => do inWord? (valueInBase 8 (← ungrouped? isOctalDigit rest))
  | '0' :: 'b' :: rest => do inWord? (valueInBase 2 (← ungrouped? isBinaryDigit rest))
  | _ => do
    let (sign, rest) := splitSign text
    let magnitude : Int := digitsValue (← wholeDigits? rest)
    inWord? (if sign = some '-' then -magnitude else magnitude)

/-! ### Floats -/

/-- The exponent of a float: a mark, perhaps a sign, and digits. -/
def exponentOfFloat? (text : List Char) : Option (List Char) :=
  match text with
  | [] => some []
  | mark :: rest => do
    if mark ≠ 'e' ∧ mark ≠ 'E' then none
    let (sign, digits) := splitSign rest
    let digits ← ungrouped? Char.isDigit digits
    some ('e' :: (if sign = some '-' then ['-'] else []) ++ digits)

/-- A float: a whole part, and a fraction or an exponent or both. One that is positive must be
within range. -/
def float? (text : List Char) : Option Value := do
  let (sign, unsigned) := splitSign text
  if unsigned = "inf".toList ∨ unsigned = "nan".toList then
    return .float (.ofList text)
  let isWhole := fun character => character != '.' && character != 'e' && character != 'E'
  let whole ← wholeDigits? (unsigned.takeWhile isWhole)
  let numeral ← match unsigned.dropWhile isWhole with
    | [] => none
    | '.' :: rest => do
      let isPlace := fun character => character != 'e' && character != 'E'
      let places ← ungrouped? Char.isDigit (rest.takeWhile isPlace)
      let exponent ← exponentOfFloat? (rest.dropWhile isPlace)
      some (whole ++ '.' :: places ++ exponent)
    | rest => do
      let exponent ← exponentOfFloat? rest
      some (whole ++ exponent)
  if sign = some '-' ∨ (Text.Decimal.ofNumeral (.ofList numeral)).isInRange then
    some (.float (.ofList text))
  else none

/-! ### Dates and times -/

/-- The number that exactly so many digits at the start of a text write, and what follows. -/
def fixedDigits? (count : Nat) (text : List Char) : Option (Nat × List Char) :=
  let digits := text.take count
  if digits.length = count ∧ digits.all Char.isDigit then
    some (digitsValue digits, text.drop count)
  else none

/-- A text without the character that it must start with. -/
def skip? (mark : Char) : List Char → Option (List Char)
  | character :: rest => if character = mark then some rest else none
  | [] => none

/-- What follows the date that a text starts with. -/
def afterDate? (text : List Char) : Option (List Char) := do
  let (year, text) ← fixedDigits? 4 text
  let (month, text) ← fixedDigits? 2 (← skip? '-' text)
  let (day, text) ← fixedDigits? 2 (← skip? '-' text)
  if ({ year, month, day } : Date).IsValid then some text else none

/-- What follows the hours and minutes that a text starts with. -/
def afterMinutes? (text : List Char) : Option (List Char) := do
  let (hour, text) ← fixedDigits? 2 text
  let (minute, text) ← fixedDigits? 2 (← skip? ':' text)
  if hour ≤ 23 ∧ minute ≤ 59 then some text else none

/-- What follows the time of day that a text starts with. A minute can have a leap second. -/
def afterTime? (text : List Char) : Option (List Char) := do
  let (second, text) ← fixedDigits? 2 (← skip? ':' (← afterMinutes? text))
  if 60 < second then none
  match text with
  | '.' :: rest =>
    if (Text.digits rest).1 = [] then none else some (Text.digits rest).2
  | rest => some rest

/-- Whether a text is nothing, or an offset from universal time. -/
def isOffset : List Char → Bool
  | [] => true
  | ['Z'] => true
  | ['z'] => true
  | '+' :: rest => afterMinutes? rest == some []
  | '-' :: rest => afterMinutes? rest == some []
  | _ => false

/-- Whether a text is a date, a time of day, or both. -/
def isMoment (text : List Char) : Bool :=
  match afterDate? text with
  | some [] => true
  | some (mark :: rest) =>
    (mark == 'T' || mark == 't' || mark == ' ') && (afterTime? rest).any isOffset
  | none => afterTime? text == some []

/-! ### Runs -/

/-- The characters of a run. -/
def isRunChar (character : Char) : Bool :=
  character.isAlphanum || character == '+' || character == '-' || character == '_'
    || character == '.' || character == ':'

/-- The value that a run stands for. -/
def scalar? (run : List Char) : Option Value :=
  if run = "true".toList then some (.boolean true)
  else if run = "false".toList then some (.boolean false)
  else if isMoment run then some (.moment (.ofList run))
  else
    match integer? run with
    | some value => some value
    | none => float? run

/-- The run that a text starts with, and what follows. One blank may stand between a date and a
time. -/
def splitRun (text : List Char) : List Char × List Char :=
  let run := text.takeWhile isRunChar
  let rest := text.dropWhile isRunChar
  match rest with
  | ' ' :: after =>
    let time := after.takeWhile isRunChar
    if afterDate? run = some [] ∧ isMoment (run ++ ' ' :: time) then
      (run ++ ' ' :: time, after.dropWhile isRunChar)
    else (run, rest)
  | _ => (run, rest)

end FilterLists.Toml
