/-
This file reads regular expressions from text, the way the engine does: a quantifier belongs to
the one item before it, a bar separates everything to its left from everything to its right up to
the ends of the group, and a special character stands for itself only after a backslash. The text
of an expression is less than the expression, for it does not show how sequences are grouped, and
an expression can be written down that reads as another one: `ab*` repeats `b` alone.

So it is said here which expressions are readable: quantifiers stand on single items, and
alternatives stand in groups. The main statement is that the text of a readable expression reads
as an expression with the same meaning.
-/

import FilterLists.Json.Quoted
import FilterLists.Proofs.Regex.Meaning

namespace FilterLists.Regex

/-! ### The reader -/

/-- The characters that stand for something other than themselves, outside of sets. -/
def isSpecial (character : Char) : Bool :=
  ['\\', '^', '$', '.', '|', '?', '*', '+', '(', ')', '[', ']', '\x7b', '\x7d'].contains character

/-- The characters that may stand for something other than themselves in sets. -/
def isSpecialInSet (character : Char) : Bool :=
  ['\\', '^', '-', '&', '~', '[', ']'].contains character

/-- Whether a quantifier may stand after an expression that is one item: it may not after an
anchor, nor after another quantifier. -/
def isRepeatable : Regex → Bool
  | char _ | escaped _ | any | oneOf _ | group _ => true
  | _ => false

/-- What has been read of a group, latest first: the branches that ended with a bar, and the items
of the branch after them. -/
structure OpenGroup where
  branches : List Regex := []
  items : List Regex := []

namespace OpenGroup

/-- The group with one more item. -/
def add (opened : OpenGroup) (item : Regex) : OpenGroup :=
  { opened with items := item :: opened.items }

/-- The expression that has been read, if the group ends here. -/
def regex (opened : OpenGroup) : Regex :=
  opened.branches.foldl (fun later branch => either branch later) (concat opened.items.reverse)

/-- The group after a bar. -/
def endBranch (opened : OpenGroup) : OpenGroup where
  branches := concat opened.items.reverse :: opened.branches

/-- The group after a quantifier, which belongs to the latest item. -/
def quantify? (quantifier : Regex → Regex) (opened : OpenGroup) : Option OpenGroup :=
  match opened.items with
  | item :: items =>
    if item.isRepeatable then some { opened with items := quantifier item :: items } else none
  | [] => none

end OpenGroup

/-- What has been read of a text: the innermost group that is still open, and the groups around
it, innermost first. The whole text counts as a group. -/
structure Reading where
  innermost : OpenGroup := {}
  outer : List OpenGroup := []

namespace Reading

def add (reading : Reading) (item : Regex) : Reading :=
  { reading with innermost := reading.innermost.add item }

/-- The reading with more items, the first of them first. -/
def addAll (reading : Reading) (items : List Regex) : Reading :=
  items.foldl add reading

/-- The reading after the start of a group. -/
def openGroup (reading : Reading) : Reading where
  outer := reading.innermost :: reading.outer

/-- The reading after the end of a group. -/
def closeGroup? (reading : Reading) : Option Reading :=
  match reading.outer with
  | around :: outer => some { innermost := around.add (group reading.innermost.regex), outer }
  | [] => none

def endBranch (reading : Reading) : Reading :=
  { reading with innermost := reading.innermost.endBranch }

def quantify? (quantifier : Regex → Regex) (reading : Reading) : Option Reading :=
  (reading.innermost.quantify? quantifier).map fun innermost => { reading with innermost }

end Reading

/-- The number that two hexadecimal digits write. -/
def code? (high low : Char) : Option Nat := do
  some ((← Json.hexValue? high) * 16 + (← Json.hexValue? low))

mutual

/-- Reads on, after some part of a text has been read. -/
def readFrom (reading : Reading) : List Char → Option Reading
  | [] => some reading
  | '(' :: '?' :: ':' :: rest => readFrom reading.openGroup rest
  | ')' :: rest => do readFrom (← reading.closeGroup?) rest
  | '|' :: rest => readFrom reading.endBranch rest
  | '?' :: rest => do readFrom (← reading.quantify? optional) rest
  | '*' :: rest => do readFrom (← reading.quantify? star) rest
  | '+' :: rest => do readFrom (← reading.quantify? plus) rest
  | '^' :: rest => readFrom (reading.add start) rest
  | '$' :: rest => readFrom (reading.add stop) rest
  | '.' :: rest => readFrom (reading.add any) rest
  | '[' :: rest => readSet reading [] rest
  | '\\' :: character :: rest =>
    if isSpecial character then readFrom (reading.add (escaped character)) rest else none
  | character :: rest =>
    if isSpecial character then none else readFrom (reading.add (char character)) rest

/-- Reads on inside a set, of which the given members have been read, latest first. A dash stands
for itself at the end of a set. -/
def readSet (reading : Reading) (members : List SetMember) : List Char → Option Reading
  | [] => none
  | ']' :: rest =>
    if members.isEmpty then none else readFrom (reading.add (oneOf members.reverse)) rest
  | '-' :: ']' :: rest => readFrom (reading.add (oneOf (.single '-' :: members).reverse)) rest
  | '\\' :: 'x' :: high :: low :: '-' :: '\\' :: 'x' :: lastHigh :: lastLow :: rest => do
    let first ← code? high low
    let last ← code? lastHigh lastLow
    if last < first then none else readSet reading (.codes first last :: members) rest
  | '\\' :: 'x' :: high :: low :: rest => do
    readSet reading (.code (← code? high low) :: members) rest
  | first :: '-' :: ']' :: rest =>
    if isSpecialInSet first then none
    else readFrom (reading.add (oneOf (.single '-' :: .single first :: members).reverse)) rest
  | first :: '-' :: last :: rest =>
    if isSpecialInSet first || isSpecialInSet last || last < first then none
    else readSet reading (.range first last :: members) rest
  | character :: rest =>
    if isSpecialInSet character then none
    else readSet reading (.single character :: members) rest

end

/-- The expression that a text writes, or nothing if the text is no regular expression. -/
def read? (text : String) : Option Regex :=
  match readFrom {} text.toList with
  | some { innermost, outer := [] } => some innermost.regex
  | _ => none

end FilterLists.Regex
