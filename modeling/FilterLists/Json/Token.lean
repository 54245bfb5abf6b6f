/-
This file takes JSON texts apart into tokens. Blanks between tokens are passed over here, so the
reader of values sees none; which tokens may follow each other is for it to say.
-/

import FilterLists.Json.Numeral
import FilterLists.Json.Quoted

namespace FilterLists.Json

open Text (digits)

inductive Token
  | openList
  | closeList
  | openObject
  | closeObject
  | colon
  | comma
  | null
  | boolean (value : Bool)
  | number (numeral : String)
  | string (content : Content)
  deriving DecidableEq, Repr

/-- The four blanks of JSON. -/
def isSpace (character : Char) : Bool :=
  character == ' ' || character == '\t' || character == '\n' || character == '\r'

namespace Token

/-- The token that a word of letters stands for, and what stands after the word. -/
def word? (text : List Char) : Option (Token × List Char) :=
  match "null".toList.isPrefixOf? text with
  | some rest => some (.null, rest)
  | none =>
    match "true".toList.isPrefixOf? text with
    | some rest => some (.boolean true, rest)
    | none => ("false".toList.isPrefixOf? text).map fun rest => (.boolean false, rest)

/-- The token that a text starts with, and what stands after it. The text does not start with a
blank. -/
def next? : List Char → Option (Token × List Char)
  | '[' :: rest => some (.openList, rest)
  | ']' :: rest => some (.closeList, rest)
  | '\x7b' :: rest => some (.openObject, rest)
  | '\x7d' :: rest => some (.closeObject, rest)
  | ':' :: rest => some (.colon, rest)
  | ',' :: rest => some (.comma, rest)
  | '"' :: rest => (unquote? rest).map fun (content, after) => (.string content, after)
  | text =>
    match word? text with
    | some found => some found
    | none => (numeral? text).map fun (numeral, after) => (.number (.ofList numeral), after)

end Token

/-! ### Reading takes something away -/

theorem isPrefixOf?_eq_some {marker text rest : List Char}
    (found : marker.isPrefixOf? text = some rest) : text = marker ++ rest := by
  induction marker generalizing text with
  | nil =>
    change some text = some rest at found
    exact Option.some.inj found
  | cons head tail inductionHypothesis =>
    cases text with
    | nil =>
      change none = some rest at found
      exact absurd found (by simp)
    | cons first others =>
      change (if head == first then tail.isPrefixOf? others else none) = some rest at found
      by_cases same : head = first
      · rw [if_pos (by simp [same])] at found
        rw [same, List.cons_append, ← inductionHypothesis found]
      · rw [if_neg (by simp [same])] at found
        exact absurd found (by simp)

theorem digits_append (text : List Char) : (digits text).1 ++ (digits text).2 = text :=
  List.takeWhile_append_dropWhile

theorem wholePart?_append {text : List Char} {found : List Char × List Char}
    (read : wholePart? text = some found) : found.1 ++ found.2 = text ∧ found.1 ≠ [] := by
  unfold wholePart? at read
  split at read
  · simp only [Option.some.injEq] at read; subst read; simp
  · have whole := digits_append text
    split at read
    · simp at read
    · rename_i nonempty
      simp only [Option.some.injEq] at read
      subst read
      exact ⟨whole, fun empty => nonempty (digits text).2 (by rw [← empty])⟩

theorem fraction?_append {text : List Char} {found : List Char × List Char}
    (read : fraction? text = some found) : found.1 ++ found.2 = text := by
  unfold fraction? at read
  split at read
  · rename_i rest
    have whole := digits_append rest
    split at read
    · simp at read
    · rename_i split_eq
      simp only [Option.some.injEq] at read
      subst read
      rw [split_eq] at whole
      simpa using whole
  · simp only [Option.some.injEq] at read; subst read; rfl

theorem exponentSign_append (text : List Char) :
    (exponentSign text).1 ++ (exponentSign text).2 = text := by
  unfold exponentSign
  split <;> rfl

theorem exponent?_append {text : List Char} {found : List Char × List Char}
    (read : exponent? text = some found) : found.1 ++ found.2 = text := by
  unfold exponent? at read
  split at read
  · simp only [Option.some.injEq] at read; subst read; rfl
  · rename_i mark rest
    split at read
    · have signed := exponentSign_append rest
      have whole := digits_append (exponentSign rest).2
      split at read
      · simp at read
      · rename_i split_eq
        simp only [Option.some.injEq] at read
        subst read
        rw [split_eq] at whole
        simp only at whole
        simp only [List.cons_append, List.append_assoc, whole, signed]
    · simp only [Option.some.injEq] at read; subst read; rfl

theorem sign_append (text : List Char) : (sign text).1 ++ (sign text).2 = text := by
  unfold sign
  split <;> rfl

/-- A numeral is what its text starts with, and is not empty. -/
theorem numeral?_append {text : List Char} {found : List Char × List Char}
    (read : numeral? text = some found) : found.1 ++ found.2 = text ∧ found.1 ≠ [] := by
  unfold numeral? at read
  split at read
  · simp at read
  · rename_i whole_read
    split at read
    · simp at read
    · rename_i fraction_read
      obtain ⟨exponent, exponent_read, rfl⟩ := Option.map_eq_some_iff.mp read
      obtain ⟨wholeText, wholeNonempty⟩ := wholePart?_append whole_read
      have fractionText := fraction?_append fraction_read
      have exponentText := exponent?_append exponent_read
      simp only at wholeText wholeNonempty fractionText
      constructor
      · simp only [List.append_assoc, exponentText, fractionText, wholeText, sign_append]
      · simp [wholeNonempty]

theorem length_lt_of_isPrefixOf? {marker text rest : List Char} (nonempty : marker ≠ [])
    (found : marker.isPrefixOf? text = some rest) : rest.length < text.length := by
  have := List.length_pos_iff.mpr nonempty
  rw [isPrefixOf?_eq_some found, List.length_append]
  omega

theorem Token.length_of_word? {text : List Char} {found : Token × List Char}
    (read : Token.word? text = some found) : found.2.length < text.length := by
  unfold Token.word? at read
  split at read
  · rename_i prefixed
    simp only [Option.some.injEq] at read
    subst read
    exact length_lt_of_isPrefixOf? (by decide) prefixed
  · split at read
    · rename_i prefixed
      simp only [Option.some.injEq] at read
      subst read
      exact length_lt_of_isPrefixOf? (by decide) prefixed
    · obtain ⟨rest, prefixed, rfl⟩ := Option.map_eq_some_iff.mp read
      exact length_lt_of_isPrefixOf? (by decide) prefixed

theorem Token.length_of_next? {text : List Char} {found : Token × List Char}
    (read : Token.next? text = some found) : found.2.length < text.length := by
  unfold Token.next? at read
  split at read
  case h_7 rest =>
    obtain ⟨inside, inside_read, rfl⟩ := Option.map_eq_some_iff.mp read
    have := length_of_unquote? inside_read
    simp only [List.length_cons]
    omega
  case h_8 =>
    split at read
    · rename_i word_read
      simp only [Option.some.injEq] at read
      subst read
      exact length_of_word? word_read
    · obtain ⟨inside, inside_read, rfl⟩ := Option.map_eq_some_iff.mp read
      obtain ⟨whole, nonempty⟩ := numeral?_append inside_read
      have := List.length_pos_iff.mpr nonempty
      simp only [← whole, List.length_append]
      omega
  all_goals simp only [Option.some.injEq] at read; subst read; simp

/-! ### All tokens -/

/-- The tokens of a text, or nothing if something in it is no token. `done` holds the tokens so
far, latest first. -/
def tokensFrom (done : List Token) (text : List Char) : Option (List Token) :=
  match text with
  | [] => some done.reverse
  | character :: rest =>
    if isSpace character then tokensFrom done rest
    else
      match _read : Token.next? (character :: rest) with
      | none => none
      | some (token, after) => tokensFrom (token :: done) after
termination_by text.length
decreasing_by
  · simp
  · exact Token.length_of_next? _read

/-- The tokens of a text, or nothing if something in it is no token. -/
def tokens (text : List Char) : Option (List Token) :=
  tokensFrom [] text

end FilterLists.Json
