/-
This file holds the pieces that a filter pattern is translated into. A piece is the smallest
thing that the translation adds to a regular expression: a character, a wildcard, the separator,
the start of a host name, or an anchor. Translating a pattern yields a list of pieces; the
regular expression and its text are read off the list.
-/

import FilterLists.Regex.Basic

namespace FilterLists

/-- The characters with a meaning of their own in a regular expression that have none in a
filter pattern, so that they are escaped. `*` and `?` are absent: they are the wildcards of
filter patterns. -/
def isMetacharacter (character : Char) : Bool :=
  ['\\', '^', '$', '.', '|', '+', '(', ')', '[', ']', '\x7b', '\x7d'].contains character

namespace Pattern

/-- The parts of a translated pattern. -/
inductive Piece
  /-- The character itself. -/
  | literal (character : Char)
  /-- The character itself, which would otherwise mean something else. -/
  | escaped (character : Char)
  /-- Any one character. -/
  | anyChar
  /-- Any run of characters. -/
  | anyRun
  /-- A character that separates the parts of an address, or the end of the address. -/
  | separator
  /-- The start of the address, an optional scheme, and any number of leading host labels. -/
  | hostStart
  /-- The start of the address. -/
  | start
  /-- The end of the address. -/
  | stop
  deriving DecidableEq, Repr

namespace Piece

/-- What separates the parts of an address: every ASCII character but letters, digits and
`%`, `.`, `_`, `-`. -/
def separatorSet : List SetMember :=
  [.codes 0x00 0x24, .codes 0x26 0x2C, .code 0x2F, .codes 0x3A 0x40, .codes 0x5B 0x5E,
    .code 0x60, .codes 0x7B 0x7F]

/-- A scheme and the mark after it, such as `https://`. -/
def scheme : Regex :=
  .sequence (.oneOf [.range 'a' 'z'])
    (.sequence (.star (.oneOf [.range 'a' 'z', .range '0' '9', .single '+', .single '.',
      .single '-'])) (.literal [':', '/', '/']))

/-- A label of a host name and the dot after it. -/
def label : Regex :=
  .sequence (.plus (.oneOf [.range 'a' 'z', .range '0' '9', .single '_', .single '-']))
    (.escaped '.')

/-- The regular expression that a piece stands for. -/
def regex : Piece → Regex
  | literal character => .char character
  | escaped character => .escaped character
  | anyChar => .any
  | anyRun => .star .any
  | separator => .group (.either (.oneOf separatorSet) .stop)
  | hostStart => .sequence .start (.sequence (.optional (.group scheme)) (.star (.group label)))
  | start => .start
  | stop => .stop

/-- How a piece is written in a regular expression. -/
def text (piece : Piece) : List Char :=
  piece.regex.print

/-- The piece that matches a character and nothing else: escaped if it is a metacharacter. -/
def ofChar (character : Char) : Piece :=
  if isMetacharacter character then .escaped character else .literal character

end Piece

/-! ### The fixed pieces as text -/

example : Piece.separator.text =
    "(?:[\\x00-\\x24\\x26-\\x2C\\x2F\\x3A-\\x40\\x5B-\\x5E\\x60\\x7B-\\x7F]|$)".toList := by
  decide

example : Piece.hostStart.text =
    "^(?:[a-z][a-z0-9+.-]*://)?(?:[a-z0-9_-]+\\.)*".toList := by
  decide

end Pattern

end FilterLists
