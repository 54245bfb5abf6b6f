/-
This file proves that a translated pattern finds what the pattern matches. The regular expression
is read back from its text first, so the result is about the text that the engine is given.

Three facts carry the proof. Every piece is readable, so the text reads as what the pieces stand
for. The pieces of a body match what the body covers; here the address must be printable ASCII in
one direction, for the separator is a set of ASCII characters and a dot does not match a line end.
And a host is escaped like the start of any body, since it ends before the first character that
the two read differently.
-/

import FilterLists.Pattern.Translation
import FilterLists.Proofs.Pattern.Meaning
import FilterLists.Proofs.Regex.Readable
import Mathlib

namespace FilterLists.Pattern

/-! ### Kinds of characters as sets -/

theorem isUpper_iff {character : Char} :
    character.isUpper = true ↔ 65 ≤ character.toNat ∧ character.toNat ≤ 90 := by
  simp [Char.isUpper, UInt32.le_iff_toNat_le]

theorem isLower_iff {character : Char} :
    character.isLower = true ↔ 97 ≤ character.toNat ∧ character.toNat ≤ 122 := by
  simp [Char.isLower, UInt32.le_iff_toNat_le]

theorem isDigit_iff {character : Char} :
    character.isDigit = true ↔ 48 ≤ character.toNat ∧ character.toNat ≤ 57 := by
  simp [Char.isDigit, UInt32.le_iff_toNat_le]

/-- The separator set holds the separators that are ASCII characters. -/
theorem accepts_separatorSet {character : Char} :
    Piece.separatorSet.any (SetMember.accepts character) = true ↔
      isSeparator character = true ∧ character.toNat ≤ 0x7F := by
  have codes : isSeparator character = true ↔
      ¬((65 ≤ character.toNat ∧ character.toNat ≤ 90) ∨
        (97 ≤ character.toNat ∧ character.toNat ≤ 122)) ∧
      ¬(48 ≤ character.toNat ∧ character.toNat ≤ 57) ∧
      character.toNat ≠ 37 ∧ character.toNat ≠ 46 ∧ character.toNat ≠ 95 ∧
      character.toNat ≠ 45 := by
    rw [← isUpper_iff, ← isLower_iff, ← isDigit_iff]
    simp [isSeparator, Char.isAlphanum, Char.isAlpha, ← Char.toNat_inj, and_assoc]
  rw [codes]
  simp only [Piece.separatorSet, List.any_cons, List.any_nil, SetMember.accepts, Bool.or_eq_true,
    Bool.and_eq_true, decide_eq_true_eq, beq_iff_eq, Bool.false_eq_true, or_false]
  omega

theorem ne_newline_of_isPrintable {character : Char} (printable : isPrintable character = true) :
    (character != '\n') = true := by
  refine bne_iff_ne.mpr fun newline => ?_
  rw [newline] at printable
  exact absurd printable (by decide)

theorem toNat_le_of_isPrintable {character : Char} (printable : isPrintable character = true) :
    character.toNat ≤ 0x7F := by
  simp only [isPrintable, Bool.and_eq_true, decide_eq_true_eq] at printable
  omega

theorem accepts_lower (character : Char) :
    [SetMember.range 'a' 'z'].any (SetMember.accepts character) = character.isLower := by
  simp [SetMember.accepts, Char.isLower, Char.le_def]

theorem accepts_schemeChar (character : Char) :
    [SetMember.range 'a' 'z', .range '0' '9', .single '+', .single '.', .single '-'].any
      (SetMember.accepts character) = isSchemeChar character := by
  simp [SetMember.accepts, isSchemeChar, Char.isLower, Char.isDigit, Char.le_def, Bool.or_assoc,
    Bool.beq_eq_decide_eq]

theorem accepts_labelChar (character : Char) :
    [SetMember.range 'a' 'z', .range '0' '9', .single '_', .single '-'].any
      (SetMember.accepts character) = isLabelChar character := by
  simp [SetMember.accepts, isLabelChar, Char.isLower, Char.isDigit, Char.le_def, Bool.or_assoc,
    Bool.beq_eq_decide_eq]

/-! ### The characters of a body -/

/-- A character of a body is one of the three with a meaning of their own, or an ordinary one. -/
theorem bodyChar_cases (character : Char) :
    character = '^' ∨ character = '*' ∨ character = '?' ∨ character ∉ ['*', '?', '^'] := by
  grind

/-- An ordinary character of a body is written as in a literal text. -/
theorem bodyPiece_eq_literalPiece {character : Char} (ordinary : character ∉ ['*', '?', '^']) :
    bodyPiece character = literalPiece character := by
  simp only [List.mem_cons, List.not_mem_nil, or_false, not_or] at ordinary
  obtain ⟨notRun, notAny, notSeparator⟩ := ordinary
  have isOther : bodyPiece character = .ofChar character := by
    unfold bodyPiece
    split <;> first | contradiction | rfl
  rw [isOther, literalPiece, Piece.ofChar, decide_eq_false notRun, decide_eq_false notAny,
    Bool.or_false, Bool.or_false]

/-- Before the end of a host, its characters mean what they mean in a body. -/
theorem hostPiece_eq_bodyPiece {character : Char} (inside : endsHost character = false) :
    hostPiece character = bodyPiece character := by
  obtain rfl | rfl | rfl | ordinary := bodyChar_cases character
  · exact absurd inside (by decide)
  · rfl
  · exact absurd inside (by decide)
  · rw [bodyPiece_eq_literalPiece ordinary]
    simp only [List.mem_cons, List.not_mem_nil, or_false, not_or] at ordinary
    rw [hostPiece, if_neg ordinary.1, literalPiece, decide_eq_false ordinary.1, Bool.or_false]

/-! ### The pieces are readable -/

theorem isSpecial_eq (character : Char) :
    Regex.isSpecial character =
      (isMetacharacter character || character = '*' || character = '?') := by
  simp only [Regex.isSpecial, isMetacharacter, List.contains_cons, List.contains_nil,
    Bool.or_false]
  grind

open Regex (Readable)

theorem readable_literalPiece (character : Char) :
    Readable .branch (literalPiece character).regex := by
  unfold literalPiece
  rw [← isSpecial_eq]
  split
  · rename_i special
    exact .ofItem (.escaped special)
  · rename_i plain
    exact .ofItem (.char (by simpa using plain))

theorem readable_separator : Readable .branch Piece.separator.regex :=
  .ofItem (.group (.either (.ofItem (.oneOf fun _ _ => rfl)) (.ofBranch .stop)))

theorem readable_label : Readable .branch Piece.label :=
  .sequence (.plus (.oneOf fun _ _ => rfl)) (.ofItem (.escaped (by decide)))

theorem readable_scheme : Readable .branch Piece.scheme := by
  have mark : Readable .branch (.literal [':', '/', '/']) := by
    refine Regex.readable_concat fun regex member => ?_
    obtain ⟨character, inMark, rfl⟩ := List.mem_map.mp member
    have plain : [':', '/', '/'].all (fun found => !Regex.isSpecial found) = true := by decide
    exact .ofItem (.char (by simpa using List.all_eq_true.mp plain character inMark))
  exact .sequence (.ofItem (.oneOf fun _ _ => rfl)) (.sequence (.star (.oneOf fun _ _ => rfl)) mark)

theorem readable_hostStart : Readable .branch Piece.hostStart.regex :=
  .sequence .start (.sequence (.optional (.group (.ofBranch readable_scheme)))
    (.star (.group (.ofBranch readable_label))))

theorem readable_bodyPiece (character : Char) : Readable .branch (bodyPiece character).regex := by
  obtain rfl | rfl | rfl | ordinary := bodyChar_cases character
  · exact readable_separator
  · exact .star .any
  · exact .ofItem .any
  · rw [bodyPiece_eq_literalPiece ordinary]
    exact readable_literalPiece character

/-! ### What the pieces of a body match -/

theorem matches_append (first second : List Piece) :
    (regex (first ++ second)).Matches =
      (regex first).Matches.followedBy (regex second).Matches := by
  unfold regex
  rw [List.map_append, Regex.matches_concat_append]

theorem matches_singleton (piece : Piece) : (regex [piece]).Matches = piece.regex.Matches :=
  Regex.matches_concat_singleton _

theorem matches_literalPiece_iff {character : Char} {before found after : List Char} :
    (literalPiece character).regex.Matches before found after ↔ found = [character] := by
  unfold literalPiece
  split <;> rfl

theorem matches_separator_iff {before found after : List Char} :
    Piece.separator.regex.Matches before found after ↔
      (∃ character, (isSeparator character = true ∧ character.toNat ≤ 0x7F) ∧
        found = [character]) ∨ after = [] ∧ found = [] := by
  simp only [Piece.regex, Regex.Matches, Extent.character, accepts_separatorSet]

/-- What the pieces of a body match, the body covers. -/
theorem covers_of_matches {body before found after : List Char}
    (isMatch : (regex (bodyPieces body)).Matches before found after) : Covers body found after := by
  induction body generalizing before found with
  | nil =>
    have none : found = [] := isMatch
    exact none ▸ .done
  | cons character rest inductionHypothesis =>
    obtain ⟨left, right, rfl, first, others⟩ := isMatch
    have restCovers : Covers rest right after := inductionHypothesis others
    obtain rfl | rfl | rfl | ordinary := bodyChar_cases character
    · obtain ⟨separator, ⟨isSeparator, _⟩, rfl⟩ | ⟨atEnd, rfl⟩ := matches_separator_iff.mp first
      · exact .separator isSeparator restCovers
      · obtain ⟨rfl, rfl⟩ := List.append_eq_nil_iff.mp atEnd
        exact .ending restCovers
    · exact .run restCovers
    · obtain ⟨any, _, rfl⟩ := first
      exact .anyChar restCovers
    · rw [bodyPiece_eq_literalPiece ordinary] at first
      rw [matches_literalPiece_iff.mp first]
      exact .same ordinary restCovers

/-- A printable text that a body covers is matched by the pieces of the body. -/
theorem matches_of_covers {body found after : List Char} (covers : Covers body found after)
    (printable : ∀ character ∈ found, isPrintable character = true) (before : List Char) :
    (regex (bodyPieces body)).Matches before found after := by
  induction covers generalizing before with
  | done => rfl
  | @run run body found after _ inductionHypothesis =>
    refine ⟨run, found, rfl, ?_, ?_⟩
    · refine Extent.repeated_character_iff.mpr fun character member => ?_
      exact ne_newline_of_isPrintable (printable character (List.mem_append_left _ member))
    · exact inductionHypothesis (fun character member =>
        printable character (List.mem_append_right _ member)) _
  | @anyChar character body found after _ inductionHypothesis =>
    refine ⟨[character], found, rfl, ?_, ?_⟩
    · exact ⟨character, ne_newline_of_isPrintable (printable character List.mem_cons_self), rfl⟩
    · exact inductionHypothesis (fun other member =>
        printable other (List.mem_cons_of_mem _ member)) _
  | @separator character body found after isSeparator _ inductionHypothesis =>
    refine ⟨[character], found, rfl, ?_, ?_⟩
    · exact matches_separator_iff.mpr (.inl ⟨character,
        ⟨isSeparator, toNat_le_of_isPrintable (printable character List.mem_cons_self)⟩, rfl⟩)
    · exact inductionHypothesis (fun other member =>
        printable other (List.mem_cons_of_mem _ member)) _
  | ending _ inductionHypothesis =>
    exact ⟨[], [], rfl, matches_separator_iff.mpr (.inr ⟨rfl, rfl⟩),
      inductionHypothesis printable _⟩
  | @same character body found after ordinary _ inductionHypothesis =>
    refine ⟨[character], found, rfl, ?_, ?_⟩
    · rw [bodyPiece_eq_literalPiece ordinary]
      exact matches_literalPiece_iff.mpr rfl
    · exact inductionHypothesis (fun other member =>
        printable other (List.mem_cons_of_mem _ member)) _

/-! ### What the pieces of closed bodies and of literal texts match -/

theorem matches_stop_iff {before found after : List Char} :
    (regex [.stop]).Matches before found after ↔ after = [] ∧ found = [] := by
  rw [matches_singleton]
  rfl

theorem coversClosed_of_matches {body before found after : List Char}
    (isMatch : (regex (closedPieces body)).Matches before found after) :
    CoversClosed body found after := by
  unfold closedPieces at isMatch
  unfold CoversClosed
  cases inner : Text.dropLast? '|' body with
  | none =>
    rw [inner] at isMatch
    exact covers_of_matches isMatch
  | some exact =>
    rw [inner] at isMatch
    dsimp only at isMatch ⊢
    rw [matches_append] at isMatch
    obtain ⟨left, right, rfl, covered, atEnd⟩ := isMatch
    obtain ⟨rfl, rfl⟩ := matches_stop_iff.mp atEnd
    rw [List.append_nil]
    exact ⟨rfl, covers_of_matches covered⟩

theorem matches_of_coversClosed {body found after : List Char}
    (covers : CoversClosed body found after)
    (printable : ∀ character ∈ found, isPrintable character = true) (before : List Char) :
    (regex (closedPieces body)).Matches before found after := by
  unfold CoversClosed at covers
  unfold closedPieces
  cases inner : Text.dropLast? '|' body with
  | none =>
    rw [inner] at covers
    exact matches_of_covers covers printable before
  | some exact =>
    rw [inner] at covers
    obtain ⟨rfl, covers⟩ := covers
    dsimp only
    rw [matches_append]
    exact ⟨found, [], (List.append_nil found).symm, matches_of_covers covers printable before,
      matches_stop_iff.mpr ⟨rfl, rfl⟩⟩

/-- The pieces of a literal text match the text and nothing else. -/
theorem matches_literalPieces_iff {text before found after : List Char} :
    (regex (literalPieces text)).Matches before found after ↔ found = text := by
  induction text generalizing before found with
  | nil => rfl
  | cons character rest inductionHypothesis =>
    constructor
    · rintro ⟨left, right, rfl, first, others⟩
      rw [matches_literalPiece_iff.mp first, inductionHypothesis.mp others]
      rfl
    · rintro rfl
      exact ⟨[character], rest, rfl, matches_literalPiece_iff.mpr rfl,
        inductionHypothesis.mpr rfl⟩

/-! ### Hosts -/

theorem dropLast?_append_of_not_mem {last : Char} {front : List Char} (absent : last ∉ front)
    (back : List Char) :
    Text.dropLast? last (front ++ back) = (Text.dropLast? last back).map (front ++ ·) := by
  unfold Text.dropLast?
  cases back with
  | nil =>
    have notLast : front.getLast? ≠ some last :=
      fun isLast => absent (List.mem_of_getLast? isLast)
    simp [notLast]
  | cons character rest =>
    rw [List.getLast?_append_cons, List.dropLast_append_of_ne_nil (List.cons_ne_nil character rest)]
    split <;> rfl

/-- A host and what follows it are translated as one body. -/
theorem hostPieces_append_closedPieces {host : List Char}
    (inside : ∀ character ∈ host, endsHost character = false) (tail : List Char) :
    hostPieces host ++ closedPieces tail = closedPieces (host ++ tail) := by
  have hostBody : hostPieces host = bodyPieces host :=
    List.map_congr_left fun character member => hostPiece_eq_bodyPiece (inside character member)
  have noBar : '|' ∉ host := fun member => absurd (inside '|' member) (by decide)
  unfold closedPieces
  rw [hostBody, dropLast?_append_of_not_mem noBar]
  cases Text.dropLast? '|' tail <;> simp [bodyPieces]

theorem hostAnchoredPieces_eq (rest : List Char) :
    hostAnchoredPieces rest = .hostStart :: closedPieces rest := by
  have inside : ∀ character ∈ rest.takeWhile fun character => !endsHost character,
      endsHost character = false := by
    intro character member
    simpa using List.mem_takeWhile_imp member
  unfold hostAnchoredPieces
  rw [List.cons_append, hostPieces_append_closedPieces inside, List.takeWhile_append_dropWhile]

/-! ### What the start of a host matches -/

theorem matches_literal_iff {text before found after : List Char} :
    (Regex.literal text).Matches before found after ↔ found = text := by
  induction text generalizing before found with
  | nil => rfl
  | cons character rest inductionHypothesis =>
    constructor
    · rintro ⟨_, right, rfl, rfl, others⟩
      rw [inductionHypothesis.mp others]
      rfl
    · rintro rfl
      exact ⟨[character], rest, rfl, rfl, inductionHypothesis.mpr rfl⟩

theorem matches_lower_iff {before found after : List Char} :
    (Regex.oneOf [.range 'a' 'z']).Matches before found after ↔
      ∃ letter, letter.isLower = true ∧ found = [letter] := by
  simp only [Regex.Matches, accepts_lower, Extent.character]

theorem matches_schemeTail_iff {before found after : List Char} :
    (Regex.star (.oneOf [.range 'a' 'z', .range '0' '9', .single '+', .single '.',
      .single '-'])).Matches before found after ↔
        ∀ character ∈ found, isSchemeChar character = true := by
  simp only [Regex.Matches, accepts_schemeChar, Extent.repeated_character_iff]

theorem matches_scheme_iff {before found after : List Char} :
    Piece.scheme.Matches before found after ↔ IsScheme found := by
  constructor
  · rintro ⟨_, _, rfl, isLetter, rest, mark, rfl, others, isMark⟩
    obtain ⟨letter, lower, rfl⟩ := matches_lower_iff.mp isLetter
    rw [matches_literal_iff.mp isMark]
    exact .intro lower (matches_schemeTail_iff.mp others)
  · intro isScheme
    cases isScheme with
    | @intro letter rest lower others =>
      exact ⟨[letter], rest ++ [':', '/', '/'], rfl, matches_lower_iff.mpr ⟨letter, lower, rfl⟩,
        rest, [':', '/', '/'], rfl, matches_schemeTail_iff.mpr others, matches_literal_iff.mpr rfl⟩

theorem matches_label_iff {before found after : List Char} :
    Piece.label.Matches before found after ↔ ∃ label, IsLabel label ∧ found = label ++ ['.'] := by
  simp only [Piece.label, Regex.Matches, Extent.followedBy, accepts_labelChar,
    Extent.repeated_character_iff]
  constructor
  · rintro ⟨_, _, rfl, ⟨_, rest, rfl, ⟨first, isFirst, rfl⟩, others⟩, rfl⟩
    exact ⟨first :: rest, ⟨List.cons_ne_nil _ _, List.forall_mem_cons.mpr ⟨isFirst, others⟩⟩, rfl⟩
  · rintro ⟨label, ⟨nonempty, all⟩, rfl⟩
    obtain ⟨first, rest, rfl⟩ := List.exists_cons_of_ne_nil nonempty
    obtain ⟨isFirst, others⟩ := List.forall_mem_cons.mp all
    exact ⟨first :: rest, ['.'], rfl, ⟨[first], rest, rfl, ⟨first, isFirst, rfl⟩, others⟩, rfl⟩

theorem matches_labels_iff {before found after : List Char} :
    (Regex.star (.group Piece.label)).Matches before found after ↔ AreLabels found := by
  constructor
  · intro repeated
    induction repeated with
    | none => exact .nil
    | more once _ inductionHypothesis =>
      obtain ⟨label, isLabel, rfl⟩ := matches_label_iff.mp once
      rw [List.append_assoc]
      exact .cons isLabel inductionHypothesis
  · intro areLabels
    induction areLabels generalizing before with
    | nil => exact .none
    | @cons label rest isLabel _ inductionHypothesis =>
      have once : Piece.label.Matches before (label ++ ['.']) (rest ++ after) :=
        matches_label_iff.mpr ⟨label, isLabel, rfl⟩
      rw [← List.singleton_append, ← List.append_assoc]
      exact .more once inductionHypothesis

theorem matches_hostStart_iff {before found after : List Char} :
    Piece.hostStart.regex.Matches before found after ↔
      before = [] ∧ ∃ scheme labels, found = scheme ++ labels ∧
        (scheme = [] ∨ IsScheme scheme) ∧ AreLabels labels := by
  constructor
  · rintro ⟨_, _, rfl, ⟨rfl, rfl⟩, scheme, labels, rfl, isScheme, areLabels⟩
    exact ⟨rfl, scheme, labels, rfl, isScheme.imp_right matches_scheme_iff.mp,
      matches_labels_iff.mp areLabels⟩
  · rintro ⟨rfl, scheme, labels, rfl, isScheme, areLabels⟩
    exact ⟨[], scheme ++ labels, rfl, ⟨rfl, rfl⟩, scheme, labels, rfl,
      isScheme.imp_right matches_scheme_iff.mpr, matches_labels_iff.mpr areLabels⟩

/-! ### Patterns -/

/-- What is anchored to the start of an address is found at its start or nowhere. -/
theorem finds_start_iff {rest : List Piece} {address : List Char} :
    (regex (.start :: rest)).Finds address ↔
      ∃ found after, address = found ++ after ∧ (regex rest).Matches [] found after := by
  constructor
  · rintro ⟨_, _, after, rfl, _, found, rfl, ⟨rfl, rfl⟩, isMatch⟩
    exact ⟨found, after, rfl, isMatch⟩
  · rintro ⟨found, after, rfl, isMatch⟩
    exact ⟨[], found, after, rfl, [], found, rfl, ⟨rfl, rfl⟩, isMatch⟩

theorem matchesAtHost_of_finds {rest address : List Char}
    (finds : (regex (hostAnchoredPieces rest)).Finds address) : MatchesAtHost rest address := by
  rw [hostAnchoredPieces_eq] at finds
  obtain ⟨_, _, after, rfl, _, body, rfl, opens, covered⟩ := finds
  obtain ⟨rfl, scheme, labels, rfl, isScheme, areLabels⟩ := matches_hostStart_iff.mp opens
  exact ⟨scheme, labels, body, after, by simp, isScheme, areLabels,
    coversClosed_of_matches covered⟩

/-- Only what the body matches needs to be printable. -/
theorem finds_hostAnchoredPieces {rest scheme labels found after : List Char}
    (isScheme : scheme = [] ∨ IsScheme scheme) (areLabels : AreLabels labels)
    (covers : CoversClosed rest found after)
    (printable : ∀ character ∈ found, isPrintable character = true) :
    (regex (hostAnchoredPieces rest)).Finds (scheme ++ labels ++ found ++ after) := by
  rw [hostAnchoredPieces_eq]
  refine ⟨[], scheme ++ labels ++ found, after, by simp, scheme ++ labels, found, rfl, ?_, ?_⟩
  · exact matches_hostStart_iff.mpr ⟨rfl, scheme, labels, rfl, isScheme, areLabels⟩
  · exact matches_of_coversClosed covers printable _

theorem finds_exact_iff {exact address : List Char} :
    (regex (.start :: literalPieces exact ++ [.stop])).Finds address ↔ address = exact := by
  rw [List.cons_append, finds_start_iff, matches_append]
  constructor
  · rintro ⟨_, after, rfl, _, _, rfl, literal, atEnd⟩
    obtain ⟨rfl, rfl⟩ := matches_stop_iff.mp atEnd
    rw [matches_literalPieces_iff.mp literal, List.append_nil, List.append_nil]
  · rintro rfl
    exact ⟨address, [], by simp, address, [], by simp, matches_literalPieces_iff.mpr rfl,
      matches_stop_iff.mpr ⟨rfl, rfl⟩⟩

/-- The pieces of a pattern find a printable address if the pattern matches it, and only then. -/
theorem finds_pieces_iff {pattern address : List Char}
    (printable : ∀ character ∈ address, isPrintable character = true) :
    (regex (pieces pattern)).Finds address ↔ Matches pattern address := by
  unfold Matches
  split
  · rename_i rest
    constructor
    · exact matchesAtHost_of_finds
    · rintro ⟨scheme, labels, found, after, rfl, isScheme, areLabels, covers⟩
      exact finds_hostAnchoredPieces isScheme areLabels covers
        fun character member => printable character (by simp [member])
  · rename_i rest notHost
    rw [pieces.eq_2 rest notHost]
    cases Text.dropLast? '|' rest with
    | some exact => exact finds_exact_iff
    | none =>
      dsimp only
      rw [finds_start_iff]
      constructor
      · rintro ⟨found, after, rfl, isMatch⟩
        exact ⟨found, after, rfl, covers_of_matches isMatch⟩
      · rintro ⟨found, after, rfl, covers⟩
        exact ⟨found, after, rfl, matches_of_covers covers
          (fun character member => printable character (List.mem_append_left _ member)) _⟩
  · rename_i notHost notBar
    rw [pieces.eq_3 pattern notHost notBar]
    constructor
    · rintro ⟨before, found, after, rfl, isMatch⟩
      exact ⟨before, found, after, rfl, coversClosed_of_matches isMatch⟩
    · rintro ⟨before, found, after, rfl, covers⟩
      exact ⟨before, found, after, rfl, matches_of_coversClosed covers
        (fun character member => printable character (by simp [member])) _⟩

/-! ### The text of a translated pattern -/

theorem readable_literalPieces {text : List Char} {piece : Piece}
    (member : piece ∈ literalPieces text) : Readable .branch piece.regex := by
  obtain ⟨character, _, rfl⟩ := List.mem_map.mp member
  exact readable_literalPiece character

theorem readable_bodyPieces {body : List Char} {piece : Piece} (member : piece ∈ bodyPieces body) :
    Readable .branch piece.regex := by
  obtain ⟨character, _, rfl⟩ := List.mem_map.mp member
  exact readable_bodyPiece character

theorem readable_closedPieces {body : List Char} {piece : Piece}
    (member : piece ∈ closedPieces body) : Readable .branch piece.regex := by
  unfold closedPieces at member
  split at member
  · obtain inInner | isStop := List.mem_append.mp member
    · exact readable_bodyPieces inInner
    · rw [List.mem_singleton.mp isStop]
      exact .stop
  · exact readable_bodyPieces member

theorem readable_pieces {pattern : List Char} {piece : Piece} (member : piece ∈ pieces pattern) :
    Readable .branch piece.regex := by
  unfold pieces at member
  split at member
  · rw [hostAnchoredPieces_eq] at member
    obtain rfl | inRest := List.mem_cons.mp member
    · exact readable_hostStart
    · exact readable_closedPieces inRest
  · split at member
    · obtain inOpened | isStop := List.mem_append.mp member
      · obtain rfl | inExact := List.mem_cons.mp inOpened
        · exact .start
        · exact readable_literalPieces inExact
      · rw [List.mem_singleton.mp isStop]
        exact .stop
    · obtain rfl | inRest := List.mem_cons.mp member
      · exact .start
      · exact readable_bodyPieces inRest
  · exact readable_closedPieces member

/-- The text of a translated pattern reads as an expression that means what its pieces mean. -/
theorem read?_translate (pattern : String) :
    ∃ expression, Regex.read? (translate pattern) = some expression ∧
      expression.Matches = (regex (pieces pattern.toList)).Matches := by
  have readable : Readable .choice (regex (pieces pattern.toList)) := by
    refine .ofBranch (Regex.readable_concat fun item member => ?_)
    obtain ⟨piece, isPiece, rfl⟩ := List.mem_map.mp member
    exact readable_pieces isPiece
  obtain ⟨expression, read, sameMeaning⟩ := Regex.read?_print readable
  refine ⟨expression, ?_, sameMeaning⟩
  rwa [print_regex] at read

/-- A translated pattern is a regular expression that finds a printable address if the pattern
matches the address, and only then. -/
theorem translate_finds_iff_matches (pattern address : String)
    (printable : ∀ character ∈ address.toList, isPrintable character = true) :
    ∃ expression, Regex.read? (translate pattern) = some expression ∧
      (expression.Finds address.toList ↔ Matches pattern.toList address.toList) := by
  obtain ⟨expression, read, sameMeaning⟩ := read?_translate pattern
  refine ⟨expression, read, ?_⟩
  rw [← finds_pieces_iff printable, Regex.Finds, Regex.Finds, sameMeaning]

/-- A rule for a host finds an address of a subdomain that ends with the host. -/
theorem finds_address_of_subdomain :
    (∀ character ∈ "https://a.b.io".toList, isPrintable character = true) ∧
      ∃ expression, Regex.read? (translate "||b.i?^^") = some expression ∧
        expression.Finds "https://a.b.io".toList := by
  have printable : ∀ character ∈ "https://a.b.io".toList, isPrintable character = true :=
    List.all_eq_true.mp (by decide)
  obtain ⟨expression, read, finds⟩ :=
    translate_finds_iff_matches "||b.i?^^" "https://a.b.io" printable
  refine ⟨printable, expression, read, finds.mpr ?_⟩
  have scheme : IsScheme "https://".toList :=
    @IsScheme.intro 'h' "ttps".toList (by decide) (List.all_eq_true.mp (by decide))
  have labels : AreLabels "a.".toList :=
    @AreLabels.cons ['a'] [] (by decide) .nil
  have covers : Covers "b.i?^^".toList "b.io".toList [] :=
    .same (by decide) (.same (by decide) (.same (by decide) (.anyChar (.ending (.ending .done)))))
  exact ⟨_, _, _, [], rfl, .inr scheme, labels, covers⟩

end FilterLists.Pattern
