/-
This file describes the regular expressions that the content blocking engine is given, as data.
A filter pattern is first turned into one of these and only then into text, so what a pattern
means can be said about the expression, and what the engine reads is its printed form.

Only the constructs that the engine understands are here: characters, the wildcard, character
sets, grouping, alternation, `?`, `*`, `+` and the two anchors.
-/

namespace FilterLists

/-- A member of a character set. Control characters and punctuation are written by their code
in hexadecimal, which needs no escaping; letters and digits are written as they are. -/
inductive SetMember
  | single (character : Char)
  | range (first last : Char)
  | code (value : Nat)
  | codes (first last : Nat)
  deriving DecidableEq, Repr

/-- A regular expression. -/
inductive Regex
  /-- Matches the empty text. -/
  | nothing
  /-- One character, written as it is. -/
  | char (character : Char)
  /-- One character, written after a backslash. -/
  | escaped (character : Char)
  /-- Any one character, `.`. -/
  | any
  /-- One character out of a set, `[...]`. -/
  | oneOf (members : List SetMember)
  /-- The start of the text, `^`. -/
  | start
  /-- The end of the text, `$`. -/
  | stop
  /-- One expression after the other. -/
  | sequence (first second : Regex)
  /-- Either of two expressions, `a|b`. -/
  | either (left right : Regex)
  /-- A group that captures nothing, `(?:...)`. -/
  | group (inner : Regex)
  /-- The expression or nothing, `a?`. -/
  | optional (inner : Regex)
  /-- The expression any number of times, `a*`. -/
  | star (inner : Regex)
  /-- The expression at least once, `a+`. -/
  | plus (inner : Regex)
  deriving DecidableEq, Repr

namespace SetMember

/-- Two hexadecimal digits in upper case. -/
def hexCode (value : Nat) : List Char :=
  ['\\', 'x', (Nat.digitChar (value / 16)).toUpper, (Nat.digitChar (value % 16)).toUpper]

/-- How a member is written between the brackets of a set. -/
def print : SetMember → List Char
  | single character => [character]
  | range first last => [first, '-', last]
  | code value => hexCode value
  | codes first last => hexCode first ++ '-' :: hexCode last

/-- Whether a character is the member, or lies in the range that the member names. -/
def accepts (character : Char) : SetMember → Bool
  | single other => character == other
  | range first last => first ≤ character && character ≤ last
  | code value => character.toNat == value
  | codes first last => first ≤ character.toNat && character.toNat ≤ last

end SetMember

namespace Regex

/-- How an expression is written for the engine. A sequence and an alternation are written
without brackets of their own; where an alternation needs them, it stands in a `group`. -/
def print : Regex → List Char
  | nothing => []
  | char character => [character]
  | escaped character => ['\\', character]
  | any => ['.']
  | oneOf members => '[' :: members.flatMap SetMember.print ++ [']']
  | start => ['^']
  | stop => ['$']
  | sequence first second => first.print ++ second.print
  | either left right => left.print ++ '|' :: right.print
  | group inner => '(' :: '?' :: ':' :: inner.print ++ [')']
  | optional inner => inner.print ++ ['?']
  | star inner => inner.print ++ ['*']
  | plus inner => inner.print ++ ['+']

/-- The expressions one after the other. -/
def concat : List Regex → Regex
  | [] => nothing
  | first :: rest => sequence first (concat rest)

/-- The characters of a text one after the other, each written as it is. -/
def literal (text : List Char) : Regex :=
  concat (text.map char)

end Regex

end FilterLists
