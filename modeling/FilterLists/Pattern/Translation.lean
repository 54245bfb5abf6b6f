/-
This file translates filter patterns into regular expressions. A pattern such as
`||example.com^` or `/banner/*.gif` says which addresses a rule is about; the engine wants the
same thing as a regular expression.

There are four ways to read a pattern. `||host/rest` is anchored at the labels of a host name.
`|address|` is that address and nothing else, wildcards included. Any other pattern is a run of
characters, wildcards and separators, which a bar at its start or end anchors to that end of the
address. The empty pattern has no pieces at all.
-/

import FilterLists.Pattern.Piece
import FilterLists.Text.Split

namespace FilterLists.Pattern

/-! ### Bodies -/

/-- What a character means in the body of a pattern: `^` is the separator, `*` any run of
characters, `?` any one character, and all else stands for itself. -/
def bodyPiece : Char → Piece
  | '^' => .separator
  | '*' => .anyRun
  | '?' => .anyChar
  | character => .ofChar character

/-- The pieces of a body. -/
def bodyPieces (body : List Char) : List Piece :=
  body.map bodyPiece

/-- The pieces of a body that a bar at its end ties to the end of the address. -/
def closedPieces (body : List Char) : List Piece :=
  match Text.dropLast? '|' body with
  | some inner => bodyPieces inner ++ [.stop]
  | none => bodyPieces body

/-! ### Literal texts and hosts -/

/-- What a character means where nothing is a wildcard: itself. -/
def literalPiece (character : Char) : Piece :=
  if isMetacharacter character || character = '*' || character = '?' then .escaped character
  else .literal character

/-- The pieces of a text in which nothing is a wildcard. -/
def literalPieces (text : List Char) : List Piece :=
  text.map literalPiece

/-- What a character means in a host: `*` is any run of characters, all else itself. -/
def hostPiece (character : Char) : Piece :=
  if character = '*' then .anyRun
  else if isMetacharacter character || character = '?' then .escaped character
  else .literal character

/-- The pieces of a host. -/
def hostPieces (host : List Char) : List Piece :=
  host.map hostPiece

/-- Whether a character ends the host of a pattern that starts with `||`. -/
def endsHost (character : Char) : Bool :=
  ['/', '^', '|', '?', ':'].contains character

/-- The pieces of what follows `||`: a host, and after it a body. -/
def hostAnchoredPieces (rest : List Char) : List Piece :=
  .hostStart :: hostPieces (rest.takeWhile fun character => !endsHost character)
    ++ closedPieces (rest.dropWhile fun character => !endsHost character)

/-! ### Patterns -/

/-- The pieces of a pattern. -/
def pieces : List Char → List Piece
  | '|' :: '|' :: rest => hostAnchoredPieces rest
  | '|' :: rest =>
    match Text.dropLast? '|' rest with
    | some exact => .start :: literalPieces exact ++ [.stop]
    | none => .start :: bodyPieces rest
  | pattern => closedPieces pattern

/-- The text of a list of pieces. -/
def print (pieces : List Piece) : List Char :=
  pieces.flatMap Piece.text

/-- The regular expression of a list of pieces. -/
def regex (pieces : List Piece) : Regex :=
  .concat (pieces.map Piece.regex)

/-- The regular expression that matches where a pattern does, as text. It is empty only for the
empty pattern. -/
def translate (pattern : String) : String :=
  .ofList (print (pieces pattern.toList))

/-- A text as a regular expression that matches the text and nothing else. -/
def quoteText (text : String) : String :=
  .ofList (print (literalPieces text.toList))

/-- A host as a regular expression, in which `*` matches any run of characters. -/
def quoteHost (host : String) : String :=
  .ofList (print (hostPieces host.toList))

theorem print_regex (list : List Piece) : (regex list).print = print list := by
  induction list with
  | nil => rfl
  | cons piece rest inductionHypothesis =>
    simpa [regex, print, Regex.concat, Regex.print, Piece.text] using inductionHypothesis

end FilterLists.Pattern
