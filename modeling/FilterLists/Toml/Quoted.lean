/-
This file reads the strings of TOML documents. There are four kinds: in double quotes a backslash
starts an escape, in single quotes nothing does; and with three quotes at either end a string can
run over several lines.
-/

import FilterLists.Toml.Scalar

namespace FilterLists.Toml

/-! ### Characters -/

/-- Whether a character may stand in a comment or a string as it is. Of the control characters
only the tabulator may. -/
def isPlain (character : Char) : Bool :=
  character == '\t' || (0x20 ≤ character.toNat && character.toNat != 0x7F)

/-- What follows the line end that a text starts with. -/
def afterLineEnd? : List Char → Option (List Char)
  | '\n' :: rest => some rest
  | '\r' :: '\n' :: rest => some rest
  | _ => none

/-- The character of a code, if the code has one. -/
def charOfCode? (code : Nat) : Option Char :=
  if code < 0xD800 ∨ (0xDFFF < code ∧ code ≤ 0x10FFFF) then some (.ofNat code) else none

/-- The character that so many hexadecimal digits at the start of a text name, and what
follows. -/
def charByCode? (count : Nat) (text : List Char) : Option (Char × List Char) :=
  let digits := text.take count
  if digits.length = count ∧ digits.all isHexDigit then
    (charOfCode? (valueInBase 16 digits)).map fun character => (character, text.drop count)
  else none

/-- The character that an escape stands for whose backslash has been read, and what follows. -/
def escape? : List Char → Option (Char × List Char)
  | 'b' :: rest => some ('\x08', rest)
  | 't' :: rest => some ('\t', rest)
  | 'n' :: rest => some ('\n', rest)
  | 'f' :: rest => some ('\x0c', rest)
  | 'r' :: rest => some ('\r', rest)
  | '"' :: rest => some ('"', rest)
  | '\\' :: rest => some ('\\', rest)
  | 'u' :: rest => charByCode? 4 rest
  | 'U' :: rest => charByCode? 8 rest
  | _ => none

/-! ### Strings on one line

In each of the following functions the opening quotes have been read, `done` holds the characters
so far, latest first, and `fuel` bounds the number of steps: a text takes no more of them than it
has characters. -/

/-- The rest of a string in double quotes, and what follows it. -/
def basic? (done : List Char) : (fuel : Nat) → List Char → Option (String × List Char)
  | 0, _ => none
  | _ + 1, [] => none
  | _ + 1, '"' :: rest => some (.ofList done.reverse, rest)
  | fuel + 1, '\\' :: rest => do
    let (character, after) ← escape? rest
    basic? (character :: done) fuel after
  | fuel + 1, character :: rest =>
    if isPlain character then basic? (character :: done) fuel rest else none

/-- The rest of a string in single quotes, and what follows it. -/
def literal? (done : List Char) : List Char → Option (String × List Char)
  | [] => none
  | '\'' :: rest => some (.ofList done.reverse, rest)
  | character :: rest => if isPlain character then literal? (character :: done) rest else none

/-! ### Strings over several lines -/

/-- A text without the blanks and line ends that it starts with. -/
def skipLineEnds : (fuel : Nat) → List Char → List Char
  | 0, text => text
  | fuel + 1, ' ' :: rest => skipLineEnds fuel rest
  | fuel + 1, '\t' :: rest => skipLineEnds fuel rest
  | fuel + 1, text =>
    match afterLineEnd? text with
    | some rest => skipLineEnds fuel rest
    | none => text

/-- What follows a backslash at the end of a line: the next character that is not blank. -/
def continuation? (text : List Char) : Option (List Char) :=
  (afterLineEnd? (text.dropWhile fun character => character == ' ' || character == '\t')).map
    fun rest => skipLineEnds rest.length rest

/-- The quotes in a row that a text starts with end a string if they are three to five. All but
the last three belong to the string. -/
def closingQuotes? (quote : Char) (text : List Char) : Option (List Char × List Char) :=
  let quotes := text.takeWhile (· == quote)
  if 3 ≤ quotes.length ∧ quotes.length ≤ 5 then
    some (quotes.drop 3, text.dropWhile (· == quote))
  else none

/-- The rest of a string over several lines, and what follows it. In one with `escapes` a
backslash starts an escape. -/
def multiline? (quote : Char) (escapes : Bool) (done : List Char) :
    (fuel : Nat) → List Char → Option (String × List Char)
  | 0, _ => none
  | _ + 1, [] => none
  | fuel + 1, character :: rest =>
    if character = quote then
      match closingQuotes? quote (character :: rest) with
      | some (inside, after) => some (.ofList (inside ++ done).reverse, after)
      | none =>
        if (rest.takeWhile (· == quote)).length < 2 then
          multiline? quote escapes (character :: done) fuel rest
        else none
    else if character = '\\' ∧ escapes then
      match continuation? rest with
      | some after => multiline? quote escapes done fuel after
      | none => do
        let (escaped, after) ← escape? rest
        multiline? quote escapes (escaped :: done) fuel after
    else
      match afterLineEnd? (character :: rest) with
      | some after => multiline? quote escapes ('\n' :: done) fuel after
      | none =>
        if isPlain character then multiline? quote escapes (character :: done) fuel rest else none

/-! ### All strings -/

/-- The string over several lines whose opening quotes have been read, and what follows it. A line
end directly after the opening quotes does not count. -/
def openedMultiline? (quote : Char) (escapes : Bool) (text : List Char) :
    Option (String × List Char) :=
  let text := (afterLineEnd? text).getD text
  multiline? quote escapes [] (text.length + 1) text

/-- The string that a text starts with, and what follows it. -/
def string? : List Char → Option (String × List Char)
  | '"' :: '"' :: '"' :: rest => openedMultiline? '"' true rest
  | '\'' :: '\'' :: '\'' :: rest => openedMultiline? '\'' false rest
  | '"' :: rest => basic? [] (rest.length + 1) rest
  | '\'' :: rest => literal? [] rest
  | _ => none

/-- The string on one line that a text starts with, and what follows it. -/
def lineString? : List Char → Option (String × List Char)
  | '"' :: rest => basic? [] (rest.length + 1) rest
  | '\'' :: rest => literal? [] rest
  | _ => none

end FilterLists.Toml
