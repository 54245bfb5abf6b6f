/-
This file shows that a conversion depends on the candidate lines of a document alone. How the
document is laid out does not matter: which blanks stand around its lines, which line ends it has,
and where blank lines and comments stand between the others.

The candidate lines of a document are found between its line feeds, for a carriage return before a
line feed is trimmed away in any case, and so is an empty last line. Where two documents are put
together with a line feed between them, the candidate lines of the first stand before those of the
second; all else follows from that.
-/

import FilterLists.Proofs.Document
import FilterLists.Proofs.Text.Split
import FilterLists.Proofs.Text.Trim
import Mathlib.Data.List.Basic
import Mathlib.Logic.Relation

namespace FilterLists.Document

variable {front back line : List Char} {blank : Char}

/-! ### Where candidate lines are found -/

theorem filter_trim_linesOfPieces (pieces : List (List Char)) :
    ((Text.linesOfPieces pieces).map Text.trim).filter isCandidate =
      (pieces.map Text.trim).filter isCandidate := by
  fun_induction Text.linesOfPieces pieces with
  | case1 => rfl
  | case2 last isEmpty =>
    rw [List.isEmpty_iff.mp isEmpty]
    rfl
  | case3 => rfl
  | case4 piece next rest inductionHypothesis =>
    rw [List.map_cons, List.map_cons, Text.trim_dropReturn, List.filter_cons, List.filter_cons,
      inductionHypothesis]

theorem candidates_eq_filter_splitOn (text : List Char) :
    candidates text = ((Text.splitOn '\n' text).map Text.trim).filter isCandidate :=
  filter_trim_linesOfPieces _

theorem candidates_append_cons (front back : List Char) :
    candidates (front ++ '\n' :: back) = candidates front ++ candidates back := by
  simp only [candidates_eq_filter_splitOn, Text.splitOn_append_cons, List.map_append,
    List.filter_append]

theorem candidates_of_not_mem (isLine : '\n' ∉ line) :
    candidates line = [Text.trim line].filter isCandidate := by
  have piece : Text.splitOn '\n' line = [line] := Text.splitFrom_of_not_mem isLine []
  rw [candidates_eq_filter_splitOn, piece, List.map_singleton]

/-- The candidate lines of documents that are joined by line feeds are those of each of them. -/
theorem candidates_intercalate (texts : List String) :
    candidates ("\n".intercalate texts).toList =
      texts.flatMap fun text => candidates text.toList := by
  have lineFeed : "\n".toList = ['\n'] := rfl
  rw [String.toList_intercalate, lineFeed]
  induction texts with
  | nil => rfl
  | cons first rest inductionHypothesis =>
    cases rest with
    | nil => simp
    | cons second others =>
      rw [List.map_cons, List.map_cons, List.intercalate_cons_cons, ← List.map_cons,
        List.append_assoc, List.singleton_append, candidates_append_cons, inductionHypothesis]
      rfl

/-! ### Layout -/

/-- Whether a line starts after a text. -/
def StartsLine (front : List Char) : Prop :=
  front = [] ∨ ∃ before, front = before ++ ['\n']

/-- Whether a line ends before a text. -/
def EndsLine (back : List Char) : Prop :=
  back = [] ∨ ∃ after, back = '\n' :: after

/-- Whether a document becomes another by a change of its layout. A carriage return before a line
feed is a blank at the end of a line, and so is a line feed at the end of the document. -/
inductive Relaid : List Char → List Char → Prop
  /-- A blank is put in at the start of a line. -/
  | indent {front back : List Char} {blank : Char} : StartsLine front →
    Text.isBlank blank = true → Relaid (front ++ back) (front ++ blank :: back)
  /-- A blank is put in at the end of a line. -/
  | trail {front back : List Char} {blank : Char} : EndsLine back →
    Text.isBlank blank = true → Relaid (front ++ back) (front ++ blank :: back)
  /-- A blank line, a comment or a section header is put in. -/
  | skip {front line back : List Char} : StartsLine front → '\n' ∉ line →
    isCandidate (Text.trim line) = false →
    Relaid (front ++ back) (front ++ (line ++ '\n' :: back))

theorem candidates_append_of_startsLine (starts : StartsLine front) (back : List Char) :
    candidates (front ++ back) = candidates front ++ candidates back := by
  obtain rfl | ⟨before, rfl⟩ := starts
  · rfl
  · rw [List.append_assoc, List.singleton_append, candidates_append_cons, candidates_append_cons]
    congr 1
    exact (List.append_nil _).symm

theorem candidates_append_of_endsLine (ends : EndsLine back) (front : List Char) :
    candidates (front ++ back) = candidates front ++ candidates back := by
  obtain rfl | ⟨after, rfl⟩ := ends
  · rw [List.append_nil]
    exact (List.append_nil _).symm
  · rw [candidates_append_cons, ← List.nil_append ('\n' :: after), candidates_append_cons]
    rfl

theorem candidates_cons_of_isBlank (isBlank : Text.isBlank blank = true) (text : List Char) :
    candidates (blank :: text) = candidates text := by
  have ofLine : ∀ {line : List Char}, '\n' ∉ line →
      candidates (blank :: line) = candidates line := by
    intro line isLine
    by_cases newline : blank = '\n'
    · exact newline ▸ candidates_append_cons [] line
    · have isLonger : '\n' ∉ blank :: line := by simp [isLine, Ne.symm newline]
      rw [candidates_of_not_mem isLonger, candidates_of_not_mem isLine,
        Text.trim_cons_of_isBlank isBlank]
  by_cases newline : '\n' ∈ text
  · obtain ⟨line, rest, rfl, isLine⟩ := List.eq_append_cons_of_mem newline
    rw [← List.cons_append, candidates_append_cons, candidates_append_cons, ofLine isLine]
  · exact ofLine newline

theorem candidates_append_of_isBlank (isBlank : Text.isBlank blank = true) (text : List Char) :
    candidates (text ++ [blank]) = candidates text := by
  by_cases newline : blank = '\n'
  · rw [newline, candidates_append_cons]
    exact List.append_nil _
  · obtain ⟨pieces, last, splits⟩ := Text.exists_splitOn_append '\n' text
    have before := splits [] List.not_mem_nil
    have after := splits [blank] (by simp [Ne.symm newline])
    rw [List.append_nil, List.append_nil] at before
    simp only [candidates_eq_filter_splitOn, before, after, List.map_append, List.map_singleton,
      Text.trim_append_of_isBlank isBlank]

theorem Relaid.candidates_eq {text changed : List Char} (relaid : Relaid text changed) :
    candidates text = candidates changed := by
  cases relaid with
  | indent starts isBlank =>
    rw [candidates_append_of_startsLine starts, candidates_append_of_startsLine starts,
      candidates_cons_of_isBlank isBlank]
  | @trail front back blank ends isBlank =>
    rw [← List.singleton_append, ← List.append_assoc, candidates_append_of_endsLine ends,
      candidates_append_of_endsLine ends, candidates_append_of_isBlank isBlank]
  | skip starts isLine isSkipped =>
    have none : [_].filter isCandidate = [] := List.filter_eq_nil_iff.mpr (by simpa using isSkipped)
    rw [candidates_append_of_startsLine starts, candidates_append_of_startsLine starts,
      candidates_append_cons, candidates_of_not_mem isLine, none, List.nil_append]

/-- However often the layout of a document is changed, its candidate lines are the same. -/
theorem candidates_eq_of_eqvGen {text changed : List Char}
    (relaid : Relation.EqvGen Relaid text changed) : candidates text = candidates changed :=
  (eq_equivalence.comap candidates).eqvGen_iff.mp
    (relaid.mono fun _ _ step => step.candidates_eq)

/-! ### Conversions -/

theorem rules_eq_of_candidates {text other : String}
    (same : candidates text.toList = candidates other.toList) :
    (convert text).rules = (convert other).rules ∧ estimate text = estimate other := by
  rw [rules_convert, rules_convert, rulesOf, rulesOf, estimate, estimate, same]
  exact ⟨rfl, rfl⟩

theorem convertAll_eq_convert_intercalate (texts : List String) :
    convertAll texts = (convert ("\n".intercalate texts)).rules := by
  rw [convertAll_eq_ofList, rules_convert, rulesOf, candidates_intercalate, List.filterMap_flatMap]
  rfl

theorem get_rules_convert (text : String) (tier : Tier) :
    (convert text).rules.get tier =
      ((candidates text.toList).filterMap Rule.ofChars?).filter fun rule => rule.tier = tier := by
  rw [rules_convert]
  cases tier <;> rfl

/-- The rules of a document are those of its candidate lines, in each tier in the order of the
lines. So documents with the same candidate lines are converted to the same rules, no change of the
layout changes the rules, and documents can be joined before they are converted. -/
theorem conversion_follows_candidates (texts : List String) {text other : String}
    (same : candidates text.toList = candidates other.toList) :
    convertAll texts = (convert ("\n".intercalate texts)).rules ∧
      ((convert text).rules = (convert other).rules ∧ estimate text = estimate other) ∧
      (∀ changed : String, Relation.EqvGen Relaid text.toList changed.toList →
        (convert text).rules = (convert changed).rules ∧ estimate text = estimate changed) ∧
      ∀ tier, (convert text).rules.get tier =
        ((candidates text.toList).filterMap Rule.ofChars?).filter fun rule => rule.tier = tier :=
  ⟨convertAll_eq_convert_intercalate texts, rules_eq_of_candidates same,
    fun _ relaid => rules_eq_of_candidates (candidates_eq_of_eqvGen relaid),
    get_rules_convert text⟩

/-- A document with carriage returns and a comment, one without, and the parts of one. -/
theorem crlf_follows_candidates :
    candidates "! ads\r\n  ||ads.example^ \r\n\t##.ad\r\n##.ad\r\n".toList =
        candidates "||ads.example^\n##.ad\n\n##.ad".toList ∧
      (convert "! ads\r\n  ||ads.example^ \r\n\t##.ad\r\n##.ad\r\n").rules =
        (convert "||ads.example^\n##.ad\n\n##.ad").rules ∧
      convertAll ["||ads.example^\r", "", "##.ad\n", "##.ad"] =
        (convert ("\n".intercalate ["||ads.example^\r", "", "##.ad\n", "##.ad"])).rules ∧
      (convert "||ads.example^\n##.ad\n\n##.ad").rules.advanced.length = 2 := by
  have same : candidates "! ads\r\n  ||ads.example^ \r\n\t##.ad\r\n##.ad\r\n".toList =
      candidates "||ads.example^\n##.ad\n\n##.ad".toList := by
    decide +kernel
  obtain ⟨joined, ⟨rules, -⟩, -⟩ :=
    conversion_follows_candidates ["||ads.example^\r", "", "##.ad\n", "##.ad"] same
  exact ⟨same, rules, joined, by decide +kernel⟩

end FilterLists.Document
