/-
This file converts a filter list document into rules. Each line is trimmed and then judged on its
own: a blank line, a comment or a section header is skipped, a line that stands for a rule is
accepted, and every other line is rejected. What a conversion reports -- the counts, the rules by
tier, and the journal -- is read off the list of verdicts.
-/

import FilterLists.Journal
import FilterLists.Rule.Line
import FilterLists.Text.Lines
import FilterLists.TieredRules

namespace FilterLists

namespace Document

/-! ### Candidate lines -/

/-- Whether a line is a comment or a section header: it starts with `!` or with `[`. -/
def isComment (line : List Char) : Bool :=
  match line with
  | '!' :: _ => true
  | '[' :: _ => true
  | _ => false

/-- Whether a trimmed line may stand for a rule. -/
def isCandidate (line : List Char) : Bool :=
  !line.isEmpty && !isComment line

/-- The lines of a document, trimmed. -/
def trimmedLines (text : List Char) : List (List Char) :=
  (Text.lines text).map Text.trim

/-- The lines of a document that may stand for a rule, trimmed. -/
def candidates (text : List Char) : List (List Char) :=
  (trimmedLines text).filter isCandidate

/-- How many rules a document holds at most: the number of its candidate lines. -/
def estimate (text : String) : Nat :=
  (candidates text.toList).length

/-! ### Verdicts -/

/-- What a line of a document comes to. -/
inductive Verdict
  | skipped
  | accepted (rule : Rule)
  | rejected (line : String)
  deriving DecidableEq, Repr

namespace Verdict

/-- Judges a trimmed line. -/
def ofLine (line : List Char) : Verdict :=
  if isCandidate line then
    match Rule.ofChars? line with
    | some rule => accepted rule
    | none => rejected (.ofList line)
  else skipped

def isSkipped : Verdict → Bool
  | skipped => true
  | _ => false

def isAccepted : Verdict → Bool
  | accepted _ => true
  | _ => false

def isRejected : Verdict → Bool
  | rejected _ => true
  | _ => false

def rule? : Verdict → Option Rule
  | accepted rule => some rule
  | _ => none

def rejectedLine? : Verdict → Option String
  | rejected line => some line
  | _ => none

end Verdict

end Document

/-! ### Conversions -/

/-- What the conversion of a document comes to. -/
structure Conversion where
  rules : TieredRules
  /-- How many lines there are. -/
  lines : Nat
  /-- How many of them are blank, comments or section headers. -/
  skipped : Nat
  /-- How many of them stand for a rule. -/
  accepted : Nat
  /-- The other lines. -/
  rejectedLines : List String
  deriving DecidableEq, Repr

namespace Conversion

/-- How many lines were rejected. -/
def rejected (conversion : Conversion) : Nat :=
  conversion.rejectedLines.length

open Document in
/-- Adds up the verdicts on the lines of a document. -/
def ofVerdicts (verdicts : List Verdict) : Conversion where
  rules := .ofList (verdicts.filterMap Verdict.rule?)
  lines := verdicts.length
  skipped := verdicts.countP Verdict.isSkipped
  accepted := verdicts.countP Verdict.isAccepted
  rejectedLines := verdicts.filterMap Verdict.rejectedLine?

/-- What a conversion reports: each rejected line, and the counts. -/
def journal (conversion : Conversion) : List Journal.Entry :=
  conversion.rejectedLines.map (fun line =>
    { level := .debug, target := .conversion, message := "Skipping unsupported line: " ++ line })
  ++ [{
    level := .info
    target := .conversion
    message := "Converted " ++ toString conversion.lines ++ " lines: "
      ++ toString conversion.rules.standard.length ++ " standard, "
      ++ toString conversion.rules.advanced.length ++ " advanced, "
      ++ toString conversion.rules.scriptlet.length ++ " scriptlet rules ("
      ++ toString conversion.rejected ++ " rejected)" }]

end Conversion

namespace Document

/-- The verdicts on the lines of a document. -/
def verdicts (text : List Char) : List Verdict :=
  (trimmedLines text).map Verdict.ofLine

/-- Converts a document. -/
def convert (text : String) : Conversion :=
  .ofVerdicts (verdicts text.toList)

/-- Converts documents one after the other and joins their rules. -/
def convertAll (texts : List String) : TieredRules :=
  .join (texts.map fun text => (convert text).rules)

end Document

end FilterLists
