/-
This file reads TOML documents. A document is a sequence of lines, each with a header, a key and
its value, or nothing but perhaps a comment; a value can go on over several lines. What is read are
the sections of the document, which are then put together to its table.

The functions for values take the `depth` at which a value stands and `fuel`, which bounds the
number of their steps. A step that goes on to the next item takes a character away, and a value
one level deeper is at most four steps away, so `enoughFuel` is enough.
-/

import FilterLists.Toml.Quoted

namespace FilterLists.Toml

/-! ### Blanks and comments -/

def isBlank (character : Char) : Bool :=
  character == ' ' || character == '\t'

def skipBlanks (text : List Char) : List Char :=
  text.dropWhile isBlank

/-- What follows the comment that a text starts with, if it starts with one. -/
def skipComment : List Char → List Char
  | '#' :: rest => rest.dropWhile isPlain
  | text => text

/-- A text without the blanks, line ends and comments that it starts with. -/
def skipFiller : (fuel : Nat) → List Char → List Char
  | 0, text => text
  | fuel + 1, text =>
    let rest := skipComment (skipBlanks text)
    match afterLineEnd? rest with
    | some after => skipFiller fuel after
    | none => rest

/-! ### Keys -/

/-- The characters that a key may hold without quotes. -/
def isKeyChar (character : Char) : Bool :=
  character.isAlphanum || character == '_' || character == '-'

/-- The key that a text starts with, and what follows it. -/
def simpleKey? (text : List Char) : Option (String × List Char) :=
  match text.takeWhile isKeyChar with
  | [] => lineString? text
  | key => some (.ofList key, text.dropWhile isKeyChar)

/-- How many parts a dotted key has at most, and how deep values are nested at most. -/
def maximumDepth : Nat := 79

/-- The parts of the dotted key that a text starts with, and what follows it. Blanks may stand
around the dots and after the key. -/
def key? : (fuel : Nat) → List Char → Option (List String × List Char)
  | 0, _ => none
  | fuel + 1, text => do
    let (part, rest) ← simpleKey? text
    match skipBlanks rest with
    | '.' :: after => do
      let (parts, rest) ← key? fuel (skipBlanks after)
      some (part :: parts, rest)
    | after => some ([part], after)

/-! ### Values -/

/-- A bound on the number of steps that it takes to read a value. -/
def enoughFuel (text : List Char) : Nat :=
  text.length + 4 * (maximumDepth + 1)

mutual

/-- The value that a text starts with, and what follows it. -/
def value? (depth fuel : Nat) (text : List Char) : Option (Value × List Char) :=
  match fuel with
  | 0 => none
  | fuel + 1 =>
    match text with
    | '[' :: rest => if depth = maximumDepth then none else items? (depth + 1) [] fuel rest
    | '\x7b' :: rest => if depth = maximumDepth then none else table? (depth + 1) fuel rest
    | '"' :: _ => (string? text).map fun (content, rest) => (.string content, rest)
    | '\'' :: _ => (string? text).map fun (content, rest) => (.string content, rest)
    | _ => do
      let (run, rest) := splitRun text
      some (← scalar? run, rest)
termination_by structural fuel

/-- The rest of a list, and what follows it. `done` holds the items so far, latest first. -/
def items? (depth : Nat) (done : List Value) (fuel : Nat) (text : List Char) :
    Option (Value × List Char) :=
  match fuel with
  | 0 => none
  | fuel + 1 =>
    match skipFiller text.length text with
    | ']' :: rest => some (.array done.reverse, rest)
    | text => do
      let (item, rest) ← value? depth fuel text
      match skipFiller rest.length rest with
      | ',' :: after => items? depth (item :: done) fuel after
      | ']' :: after => some (.array (item :: done).reverse, after)
      | _ => none
termination_by structural fuel

/-- The rest of a table on one line, and what follows it. -/
def table? (depth fuel : Nat) (text : List Char) : Option (Value × List Char) :=
  match fuel with
  | 0 => none
  | fuel + 1 =>
    match skipBlanks text with
    | '\x7d' :: rest => some (.table .inline [], rest)
    | text => pairs? depth [] fuel text
termination_by structural fuel

/-- The rest of a table on one line that has some pairs yet to come, and what follows it. `done`
holds the members so far. -/
def pairs? (depth : Nat) (done : Members) (fuel : Nat) (text : List Char) :
    Option (Value × List Char) :=
  match fuel with
  | 0 => none
  | fuel + 1 => do
    let (path, value, rest) ← pair? depth fuel text
    let members ← done.insert value path
    match skipBlanks rest with
    | ',' :: after => pairs? depth members fuel (skipBlanks after)
    | '\x7d' :: after => some (.table .inline members, after)
    | _ => none
termination_by structural fuel

/-- The key and the value that a text starts with, and what follows them. -/
def pair? (depth fuel : Nat) (text : List Char) : Option (List String × Value × List Char) :=
  match fuel with
  | 0 => none
  | fuel + 1 => do
    let (path, rest) ← key? maximumDepth text
    match rest with
    | '=' :: after => do
      let (value, rest) ← value? depth fuel (skipBlanks after)
      some (path, value, rest)
    | _ => none
termination_by structural fuel

end

/-! ### Documents -/

/-- The header that a text starts with, and what follows it. -/
def header? (text : List Char) : Option (Header × List Char) :=
  match text with
  | '[' :: '[' :: rest => do
    let (path, rest) ← key? maximumDepth (skipBlanks rest)
    match rest with
    | ']' :: ']' :: after => some (.element path, after)
    | _ => none
  | '[' :: rest => do
    let (path, rest) ← key? maximumDepth (skipBlanks rest)
    match rest with
    | ']' :: after => some (.table path, after)
    | _ => none
  | _ => none

/-- What follows the end of a line: blanks and a comment may stand before it, and the end of the
document ends a line too. -/
def endOfLine? (text : List Char) : Option (List Char) :=
  match skipComment (skipBlanks text) with
  | [] => some []
  | rest => afterLineEnd? rest

/-- The sections of a document from the current one on, whose pairs so far are `pairs`, latest
first. -/
def sections? (header : Header) (pairs : List (List String × Value)) :
    (fuel : Nat) → List Char → Option (List Section)
  | 0, _ => none
  | fuel + 1, text =>
    match skipFiller text.length text with
    | [] => some [{ header, pairs := pairs.reverse }]
    | '[' :: rest => do
      let (next, rest) ← header? ('[' :: rest)
      let others ← sections? next [] fuel (← endOfLine? rest)
      some ({ header, pairs := pairs.reverse } :: others)
    | text => do
      let (path, value, rest) ← pair? 0 (enoughFuel text) text
      sections? header ((path, value) :: pairs) fuel (← endOfLine? rest)

/-- A text without the byte order mark that it may start with. -/
def skipMark : List Char → List Char
  | '\uFEFF' :: rest => rest
  | text => text

/-- The table of a document, or nothing if the text is no TOML document. -/
def parse? (text : String) : Option Members := do
  let text := skipMark text.toList
  let sections ← sections? .root [] (text.length + 1) text
  sections.foldlM Section.addTo []

end FilterLists.Toml
