/-
This file writes and reads string literals. In writing, only quotes, backslashes and control
characters are escaped, so that every text has one written form. In reading, every escape of the
JSON grammar is understood: besides the short ones, `\u` and four hexadecimal digits name a
UTF-16 unit, and two of them in a row can name one character.
-/

import FilterLists.Json.Value

namespace FilterLists.Json

/-! ### Writing -/

/-- A hexadecimal digit in lower case. -/
def hexDigit (value : Nat) : Char :=
  Nat.digitChar value

/-- How a character is written inside a string literal. -/
def quoteChar (character : Char) : List Char :=
  match character with
  | '"' => ['\\', '"']
  | '\\' => ['\\', '\\']
  | '\x08' => ['\\', 'b']
  | '\t' => ['\\', 't']
  | '\n' => ['\\', 'n']
  | '\x0c' => ['\\', 'f']
  | '\r' => ['\\', 'r']
  | _ =>
    if character.toNat < 0x20 then
      ['\\', 'u', '0', '0', hexDigit (character.toNat / 16), hexDigit (character.toNat % 16)]
    else [character]

/-- A text as a string literal. -/
def quoteChars (text : List Char) : List Char :=
  '"' :: text.flatMap quoteChar ++ ['"']

/-- A text as a string literal. -/
def quote (text : String) : String :=
  .ofList (quoteChars text.toList)

/-! ### Reading -/

/-- What one character or one escape of a literal contributes: a character, or a UTF-16 unit that
is named by its number. -/
inductive Fragment
  | char (character : Char)
  | unit (code : Nat)
  deriving DecidableEq, Repr

/-- The value of a hexadecimal digit. -/
def hexValue? (digit : Char) : Option Nat :=
  if '0' ≤ digit ∧ digit ≤ '9' then some (digit.toNat - '0'.toNat)
  else if 'a' ≤ digit ∧ digit ≤ 'f' then some (digit.toNat - 'a'.toNat + 10)
  else if 'A' ≤ digit ∧ digit ≤ 'F' then some (digit.toNat - 'A'.toNat + 10)
  else none

/-- The value of four hexadecimal digits. -/
def unit? (first second third fourth : Char) : Option Nat := do
  let first ← hexValue? first
  let second ← hexValue? second
  let third ← hexValue? third
  let fourth ← hexValue? fourth
  some (((first * 16 + second) * 16 + third) * 16 + fourth)

/-- The character that a backslash and a mark stand for. -/
def escape? : Char → Option Char
  | '"' => some '"'
  | '\\' => some '\\'
  | '/' => some '/'
  | 'b' => some '\x08'
  | 't' => some '\t'
  | 'n' => some '\n'
  | 'f' => some '\x0c'
  | 'r' => some '\r'
  | _ => none

/-- The fragments of a literal whose opening quote has been read, and what stands after its
closing quote. `done` holds the fragments so far, latest first. Control characters must be
escaped. -/
def fragments? (done : List Fragment) : List Char → Option (List Fragment × List Char)
  | [] => none
  | '"' :: rest => some (done.reverse, rest)
  | '\\' :: 'u' :: first :: second :: third :: fourth :: rest =>
    match unit? first second third fourth with
    | some code => fragments? (.unit code :: done) rest
    | none => none
  | '\\' :: mark :: rest =>
    match escape? mark with
    | some character => fragments? (.char character :: done) rest
    | none => none
  | character :: rest =>
    if character = '\\' ∨ character.toNat < 0x20 then none
    else fragments? (.char character :: done) rest

/-- Whether a UTF-16 unit is the first half of a pair. -/
def isHighSurrogate (code : Nat) : Bool :=
  0xD800 ≤ code && code ≤ 0xDBFF

/-- Whether a UTF-16 unit is the second half of a pair. -/
def isLowSurrogate (code : Nat) : Bool :=
  0xDC00 ≤ code && code ≤ 0xDFFF

/-- The character that a pair of units names. -/
def pairChar (high low : Nat) : Char :=
  .ofNat (0x10000 + (high - 0xD800) * 0x400 + (low - 0xDC00))

/-- The text of fragments, or nothing if a half of a pair stands alone. `done` holds the
characters so far, latest first. -/
def assemble? (done : List Char) : List Fragment → Option (List Char)
  | [] => some done.reverse
  | .char character :: rest => assemble? (character :: done) rest
  | .unit code :: rest =>
    if isLowSurrogate code then none
    else if isHighSurrogate code then
      match rest with
      | .unit next :: after =>
        if isLowSurrogate next then assemble? (pairChar code next :: done) after else none
      | _ => none
    else assemble? (.ofNat code :: done) rest

/-- What a literal says whose opening quote has been read, and what stands after its closing
quote. -/
def unquote? (text : List Char) : Option (Content × List Char) := do
  let (fragments, rest) ← fragments? [] text
  some ((assemble? [] fragments).map .ofList, rest)

/-! ### Reading takes something away -/

theorem length_of_fragments? {done : List Fragment} {text : List Char}
    {found : List Fragment × List Char} (read : fragments? done text = some found) :
    found.2.length < text.length := by
  fun_induction fragments? done text with
  | case1 => simp at read
  | case2 done rest => simp only [Option.some.injEq] at read; subst read; simp
  | case3 done _ _ _ _ rest code named inductionHypothesis =>
    have := inductionHypothesis read; simp only [List.length_cons]; omega
  | case4 => simp at read
  | case5 done mark rest _ character named inductionHypothesis =>
    have := inductionHypothesis read; simp only [List.length_cons]; omega
  | case6 => simp at read
  | case7 => simp at read
  | case8 done character rest _ _ _ _ inductionHypothesis =>
    have := inductionHypothesis read; simp only [List.length_cons]; omega

theorem length_of_unquote? {text : List Char} {found : Content × List Char}
    (read : unquote? text = some found) : found.2.length < text.length := by
  simp only [unquote?, bind, Option.bind] at read
  split at read
  · simp at read
  · rename_i pieces pieces_read
    simp only [Option.some.injEq] at read
    subst read
    exact length_of_fragments? pieces_read

end FilterLists.Json
