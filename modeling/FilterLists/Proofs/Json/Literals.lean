/-
This file proves that a text written as a string literal reads as that text. What a character is
written as may be the character, a short escape or the number of a UTF-16 unit, and the reader
keeps these apart until the literal has ended. So the two steps of the reader are followed for one
character at a time: the written form of a character is read as one fragment, and that fragment
stands for the character.
-/

import FilterLists.Json.Quoted

namespace FilterLists.Json

/-- The control characters with a short escape. -/
def hasShortEscape (character : Char) : Bool :=
  ['\x08', '\t', '\n', '\x0c', '\r'].contains character

/-- The fragment that the written form of a character is read as. -/
def fragmentOf (character : Char) : Fragment :=
  if character.toNat < 0x20 && !hasShortEscape character then .unit character.toNat
  else .char character

/-- Two digits are enough for the control characters. -/
theorem unit?_hexDigits : ∀ code < 0x20,
    unit? '0' '0' (hexDigit (code / 16)) (hexDigit (code % 16)) = some code := by
  decide

theorem fragments?_plain {character : Char} (notQuote : character ≠ '"')
    (notBackslash : character ≠ '\\') (notControl : ¬character.toNat < 0x20)
    (done : List Fragment) (rest : List Char) :
    fragments? done (character :: rest) = fragments? (.char character :: done) rest := by
  rw [fragments?, if_neg (not_or.mpr ⟨notBackslash, notControl⟩)]
  · exact notQuote
  · exact fun _ _ _ _ _ isBackslash => absurd isBackslash notBackslash
  · exact fun _ _ isBackslash => absurd isBackslash notBackslash

theorem fragments?_quoteChar (done : List Fragment) (character : Char) (rest : List Char) :
    fragments? done (quoteChar character ++ rest) =
      fragments? (fragmentOf character :: done) rest := by
  unfold quoteChar
  split
  case h_8 =>
    rename_i notQuote notBackslash notB notT notN notF notR
    have noEscape : hasShortEscape character = false := by
      simpa [hasShortEscape] using ⟨notB, notT, notN, notF, notR⟩
    unfold fragmentOf
    by_cases control : character.toNat < 0x20
    · simp [control, noEscape, fragments?, unit?_hexDigits character.toNat control]
    · simpa [control] using fragments?_plain notQuote notBackslash control done rest
  all_goals rfl

theorem fragments?_flatMap_quoteChar (done : List Fragment) (text rest : List Char) :
    fragments? done (text.flatMap quoteChar ++ '"' :: rest) =
      some (done.reverse ++ text.map fragmentOf, rest) := by
  induction text generalizing done with
  | nil => simp [fragments?]
  | cons character others inductionHypothesis =>
    rw [List.flatMap_cons, List.append_assoc, fragments?_quoteChar, inductionHypothesis]
    simp

/-- A unit below the surrogates stands for the character of that number. -/
theorem assemble?_fragmentOf (done : List Char) (character : Char) (rest : List Fragment) :
    assemble? done (fragmentOf character :: rest) = assemble? (character :: done) rest := by
  unfold fragmentOf
  split
  · rename_i control
    simp only [Bool.and_eq_true, decide_eq_true_eq] at control
    have notLow : isLowSurrogate character.toNat = false := by
      simp only [isLowSurrogate, Bool.and_eq_false_iff, decide_eq_false_iff_not]
      omega
    have notHigh : isHighSurrogate character.toNat = false := by
      simp only [isHighSurrogate, Bool.and_eq_false_iff, decide_eq_false_iff_not]
      omega
    rw [assemble?.eq_def done]
    simp [notLow, notHigh]
  · rfl

theorem assemble?_map_fragmentOf (done text : List Char) :
    assemble? done (text.map fragmentOf) = some (done.reverse ++ text) := by
  induction text generalizing done with
  | nil => simp [assemble?]
  | cons character others inductionHypothesis =>
    rw [List.map_cons, assemble?_fragmentOf, inductionHypothesis]
    simp

/-- A literal that was written reads as its text, and what stands after it is left. -/
theorem unquote?_flatMap_quoteChar (text : String) (rest : List Char) :
    unquote? (text.toList.flatMap quoteChar ++ '"' :: rest) = some (some text, rest) := by
  simp only [unquote?, fragments?_flatMap_quoteChar, List.reverse_nil, List.nil_append]
  simp [assemble?_map_fragmentOf]

end FilterLists.Json
