/-
This file says in which ways a text can write tokens, beyond the one way in which they are
printed. There may be blanks between tokens, and a string literal may spell each of its characters
as itself, by a short escape, by the number of its UTF-16 unit or by those of the pair that names
it. The reader understands all of them, so what it finds depends on the tokens alone.

A spelling is judged together with what stands after the closing quote. So a literal is read from
front to back, and the literal's end is where its spelling says.
-/

import FilterLists.Proofs.Json.RoundTrip

namespace FilterLists.Json

/-! ### String literals -/

/-- A text that spells a content up to a closing quote, and what stands after the quote. -/
inductive Spells : List Char → List Char → List Char → Prop
  | close {rest : List Char} : Spells [] ('"' :: rest) rest
  | plain {character : Char} {content text rest : List Char} :
    character ≠ '"' → character ≠ '\\' → ¬character.toNat < 0x20 → Spells content text rest →
    Spells (character :: content) (character :: text) rest
  | short {mark character : Char} {content text rest : List Char} :
    escape? mark = some character → Spells content text rest →
    Spells (character :: content) ('\\' :: mark :: text) rest
  | unit {first second third fourth : Char} {code : Nat} {content text rest : List Char} :
    unit? first second third fourth = some code → isLowSurrogate code = false →
    isHighSurrogate code = false → Spells content text rest →
    Spells (.ofNat code :: content) ('\\' :: 'u' :: first :: second :: third :: fourth :: text) rest
  | pair {first second third fourth fifth sixth seventh eighth : Char} {high low : Nat}
    {content text rest : List Char} :
    unit? first second third fourth = some high → isHighSurrogate high = true →
    unit? fifth sixth seventh eighth = some low → isLowSurrogate low = true →
    Spells content text rest →
    Spells (pairChar high low :: content)
      ('\\' :: 'u' :: first :: second :: third :: fourth ::
        '\\' :: 'u' :: fifth :: sixth :: seventh :: eighth :: text) rest

theorem fragments?_short {mark character : Char} (named : escape? mark = some character)
    (done : List Fragment) (rest : List Char) :
    fragments? done ('\\' :: mark :: rest) = fragments? (.char character :: done) rest := by
  have notUnit : mark ≠ 'u' := by
    rintro rfl
    have unnamed : escape? 'u' = none := rfl
    exact absurd (unnamed.symm.trans named) (Option.some_ne_none _).symm
  rw [fragments?, named]
  exact fun _ _ _ _ _ isUnit => absurd isUnit notUnit

theorem fragments?_unit {first second third fourth : Char} {code : Nat}
    (named : unit? first second third fourth = some code) (done : List Fragment)
    (rest : List Char) :
    fragments? done ('\\' :: 'u' :: first :: second :: third :: fourth :: rest) =
      fragments? (.unit code :: done) rest := by
  rw [fragments?, named]

theorem not_isLowSurrogate_of_high {code : Nat} (high : isHighSurrogate code = true) :
    isLowSurrogate code = false := by
  simp only [isHighSurrogate, Bool.and_eq_true, decide_eq_true_eq] at high
  simp only [isLowSurrogate, Bool.and_eq_false_iff, decide_eq_false_iff_not]
  omega

theorem assemble?_unit {code : Nat} (notLow : isLowSurrogate code = false)
    (notHigh : isHighSurrogate code = false) (done : List Char) (rest : List Fragment) :
    assemble? done (.unit code :: rest) = assemble? (.ofNat code :: done) rest := by
  rw [assemble?.eq_def]
  simp [notLow, notHigh]

theorem assemble?_pair {high low : Nat} (isHigh : isHighSurrogate high = true)
    (isLow : isLowSurrogate low = true) (done : List Char) (rest : List Fragment) :
    assemble? done (.unit high :: .unit low :: rest) =
      assemble? (pairChar high low :: done) rest := by
  rw [assemble?.eq_def]
  simp [not_isLowSurrogate_of_high isHigh, isHigh, isLow]

/-- A spelling is read into fragments up to its closing quote, and these stand for the content.
The induction is on the spelling, with one step of the reader for each of its characters. -/
theorem exists_fragments_of_spells {content text rest : List Char}
    (spells : Spells content text rest) :
    ∃ found, (∀ done, fragments? done text = some (done.reverse ++ found, rest)) ∧
      ∀ done, assemble? done found = some (done.reverse ++ content) := by
  induction spells with
  | close => exact ⟨[], fun done => by simp [fragments?], fun done => by simp [assemble?]⟩
  | @plain character _ _ _ notQuote notBackslash notControl _ inductionHypothesis =>
    obtain ⟨found, read, assembled⟩ := inductionHypothesis
    refine ⟨.char character :: found, fun done => ?_, fun done => ?_⟩
    · rw [fragments?_plain notQuote notBackslash notControl, read]
      simp
    · rw [assemble?, assembled]
      simp
  | @short _ character _ _ _ named _ inductionHypothesis =>
    obtain ⟨found, read, assembled⟩ := inductionHypothesis
    refine ⟨.char character :: found, fun done => ?_, fun done => ?_⟩
    · rw [fragments?_short named, read]
      simp
    · rw [assemble?, assembled]
      simp
  | @unit _ _ _ _ code _ _ _ named notLow notHigh _ inductionHypothesis =>
    obtain ⟨found, read, assembled⟩ := inductionHypothesis
    refine ⟨.unit code :: found, fun done => ?_, fun done => ?_⟩
    · rw [fragments?_unit named, read]
      simp
    · rw [assemble?_unit notLow notHigh, assembled]
      simp
  | @pair _ _ _ _ _ _ _ _ high low _ _ _ highNamed isHigh lowNamed isLow _
      inductionHypothesis =>
    obtain ⟨found, read, assembled⟩ := inductionHypothesis
    refine ⟨.unit high :: .unit low :: found, fun done => ?_, fun done => ?_⟩
    · rw [fragments?_unit highNamed, fragments?_unit lowNamed, read]
      simp
    · rw [assemble?_pair isHigh isLow, assembled]
      simp

theorem unquote?_of_spells {content text rest : List Char} (spells : Spells content text rest) :
    unquote? text = some (some (.ofList content), rest) := by
  obtain ⟨found, read, assembled⟩ := exists_fragments_of_spells spells
  simp [unquote?, read, assembled]

/-! ### Texts -/

/-- A text that writes tokens one after the other, with any blanks between them and the string
literals in any spelling. -/
inductive Written : List Token → List Char → Prop
  | nil : Written [] []
  | space {blank : Char} {tokens : List Token} {text : List Char} :
    isSpace blank = true → Written tokens text → Written tokens (blank :: text)
  | token {token : Token} {tokens : List Token} {text : List Char} :
    token.isPlain = true → Written tokens text → Written (token :: tokens) (token.text ++ text)
  | string {content text rest : List Char} {tokens : List Token} :
    Spells content text rest → Written tokens rest →
    Written (.string (some (.ofList content)) :: tokens) ('"' :: text)

/-- A layout is a text of this kind, with each literal as it is printed. -/
theorem Layout.written {tokens : List Token} {text : List Char} (layout : Layout tokens text) :
    Written tokens text := by
  induction layout with
  | nil => exact .nil
  | space isBlank _ inductionHypothesis => exact .space isBlank inductionHypothesis
  | token plain _ inductionHypothesis => exact .token plain inductionHypothesis

theorem tokensFrom_written {tokens : List Token} {text : List Char}
    (written : Written tokens text) (done : List Token) :
    tokensFrom done text = some (done.reverse ++ tokens) := by
  induction written generalizing done with
  | nil => simp [tokensFrom]
  | space isBlank _ inductionHypothesis => rw [tokensFrom_space isBlank, inductionHypothesis]
  | token plain _ inductionHypothesis =>
    rw [tokensFrom_text plain, inductionHypothesis, List.reverse_cons, List.append_assoc,
      List.singleton_append]
  | @string content text rest _ spells _ inductionHypothesis =>
    have read : Token.next? ('"' :: text) = some (.string (some (.ofList content)), rest) := by
      rw [Token.next?, unquote?_of_spells spells, Option.map_some]
    rw [tokensFrom_of_next? (by decide) read, inductionHypothesis, List.reverse_cons,
      List.append_assoc, List.singleton_append]

/-- A text that writes the tokens of a value is read as the value. -/
theorem parse?_of_written {value : Value} {text : String}
    (written : Written value.tokens text.toList) : Value.parse? text = some value := by
  have read : tokens text.toList = some value.tokens := tokensFrom_written written []
  rw [Value.parse?, Value.ofChars?, read]
  exact ofTokens?_tokens value

end FilterLists.Json
