/-
This file shows how splitting a text behaves when the text is put together from two. Split at a
separator that stands in it, a text gives the pieces before and after; and a text without
separators, put behind another, only makes the last piece longer. So pieces that were written
with a separator after each of them are found again, and so are pieces that were joined by
separators. For the latter the functions here are shown to be those of the standard library.
-/

import FilterLists.Text.Split

namespace FilterLists.Text

variable {separator : Char}

theorem splitFrom_append_cons (piece front back : List Char) :
    splitFrom separator piece (front ++ separator :: back) =
      splitFrom separator piece front ++ splitOn separator back := by
  induction front generalizing piece with
  | nil => simp [splitFrom, splitOn]
  | cons character rest inductionHypothesis =>
    by_cases separates : character = separator
    · simp [splitFrom, separates, inductionHypothesis]
    · simp [splitFrom, separates, inductionHypothesis]

theorem splitOn_append_cons (front back : List Char) :
    splitOn separator (front ++ separator :: back) =
      splitOn separator front ++ splitOn separator back :=
  splitFrom_append_cons [] front back

theorem splitFrom_of_not_mem {text : List Char} (absent : separator ∉ text) (piece : List Char) :
    splitFrom separator piece text = [piece.reverse ++ text] := by
  induction text generalizing piece with
  | nil => simp [splitFrom]
  | cons character rest inductionHypothesis =>
    have other : character ≠ separator := fun same => absent (by simp [same])
    have absentLater : separator ∉ rest := fun present => absent (by simp [present])
    simp [splitFrom, other, inductionHypothesis absentLater]

/-- Pieces with a separator after each of them come back, and an empty piece after the last. -/
theorem splitOn_flatMap_append {pieces : List (List Char)}
    (absent : ∀ piece ∈ pieces, separator ∉ piece) :
    splitOn separator (pieces.flatMap fun piece => piece ++ [separator]) = pieces ++ [[]] := by
  induction pieces with
  | nil => rfl
  | cons piece rest inductionHypothesis =>
    have absentFirst : separator ∉ piece := absent piece List.mem_cons_self
    rw [List.flatMap_cons, List.append_assoc, List.singleton_append, splitOn_append_cons,
      inductionHypothesis fun other member => absent other (List.mem_cons_of_mem piece member)]
    show splitFrom separator [] piece ++ _ = _
    rw [splitFrom_of_not_mem absentFirst]
    rfl

/-- What stands before the last piece of a text, and the last piece, which takes up what follows
the text. -/
theorem exists_splitFrom_append (piece text : List Char) :
    ∃ front last, ∀ ending, separator ∉ ending →
      splitFrom separator piece (text ++ ending) = front ++ [last ++ ending] := by
  induction text generalizing piece with
  | nil => exact ⟨[], piece.reverse, fun ending absent => splitFrom_of_not_mem absent piece⟩
  | cons character rest inductionHypothesis =>
    by_cases separates : character = separator
    · obtain ⟨front, last, splits⟩ := inductionHypothesis []
      refine ⟨piece.reverse :: front, last, fun ending absent => ?_⟩
      simp [splitFrom, separates, splits ending absent]
    · obtain ⟨front, last, splits⟩ := inductionHypothesis (character :: piece)
      refine ⟨front, last, fun ending absent => ?_⟩
      simp [splitFrom, separates, splits ending absent]

theorem exists_splitOn_append (separator : Char) (text : List Char) :
    ∃ front last, ∀ ending, separator ∉ ending →
      splitOn separator (text ++ ending) = front ++ [last ++ ending] :=
  exists_splitFrom_append [] text

/-! ### The pieces of a text -/

theorem not_mem_of_mem_splitFrom {piece text found : List Char}
    (member : found ∈ splitFrom separator piece text) (absent : separator ∉ piece) :
    separator ∉ found := by
  induction text generalizing piece with
  | nil =>
    obtain rfl := List.mem_singleton.mp member
    simpa using absent
  | cons character rest inductionHypothesis =>
    unfold splitFrom at member
    split at member
    · obtain rfl | later := List.mem_cons.mp member
      · simpa using absent
      · exact inductionHypothesis later List.not_mem_nil
    · rename_i other
      exact inductionHypothesis member (by simp [absent, Ne.symm other])

/-- A piece has no separator in it. -/
theorem not_mem_of_mem_splitOn {text found : List Char} (member : found ∈ splitOn separator text) :
    separator ∉ found :=
  not_mem_of_mem_splitFrom member List.not_mem_nil

theorem isInfix_of_mem_splitFrom {piece text found : List Char}
    (member : found ∈ splitFrom separator piece text) : found <:+: piece.reverse ++ text := by
  induction text generalizing piece with
  | nil =>
    obtain rfl := List.mem_singleton.mp member
    exact (List.prefix_append _ _).isInfix
  | cons character rest inductionHypothesis =>
    unfold splitFrom at member
    split at member
    · obtain rfl | later := List.mem_cons.mp member
      · exact (List.prefix_append _ _).isInfix
      · have inRest : found <:+: rest := inductionHypothesis later
        exact inRest.trans ((List.suffix_cons _ _).trans (List.suffix_append _ _)).isInfix
    · have inBoth := inductionHypothesis member
      rwa [List.reverse_cons, List.append_assoc] at inBoth

/-- A piece stands in the text. -/
theorem isInfix_of_mem_splitOn {text found : List Char} (member : found ∈ splitOn separator text) :
    found <:+: text :=
  isInfix_of_mem_splitFrom member

theorem mem_of_mem_splitOn {text found : List Char} {character : Char}
    (member : found ∈ splitOn separator text) (inFound : character ∈ found) : character ∈ text :=
  (isInfix_of_mem_splitOn member).subset inFound

/-- The first piece of a text is what stands before its first separator. -/
theorem exists_splitFrom_eq_cons (separator : Char) (piece text : List Char) :
    ∃ rest, splitFrom separator piece text =
      (piece.reverse ++ text.takeWhile (· != separator)) :: rest := by
  induction text generalizing piece with
  | nil => exact ⟨[], by simp [splitFrom]⟩
  | cons character rest inductionHypothesis =>
    by_cases separates : character = separator
    · exact ⟨splitFrom separator [] rest, by simp [splitFrom, separates]⟩
    · obtain ⟨others, splits⟩ := inductionHypothesis (character :: piece)
      exact ⟨others, by simp [splitFrom, separates, splits]⟩

theorem exists_splitOn_eq_cons (separator : Char) (text : List Char) :
    ∃ rest, splitOn separator text = text.takeWhile (· != separator) :: rest :=
  exists_splitFrom_eq_cons separator [] text

/-! ### Joined pieces -/

theorem splitFrom_eq (piece text : List Char) :
    splitFrom separator piece text = text.splitOnPPrepend (· == separator) piece := by
  induction text generalizing piece with
  | nil => rfl
  | cons character rest inductionHypothesis =>
    simp [splitFrom, List.splitOnPPrepend, inductionHypothesis]

theorem splitOn_eq (separator : Char) (text : List Char) :
    splitOn separator text = text.splitOn separator :=
  splitFrom_eq [] text

theorem join_eq_intercalate (separator : List Char) (pieces : List (List Char)) :
    join separator pieces = separator.intercalate pieces := by
  fun_induction join separator pieces with
  | case1 => rfl
  | case2 => simp
  | case3 piece next rest inductionHypothesis =>
    rw [inductionHypothesis, List.intercalate_cons_cons]

theorem mem_of_mem_join {character : Char} {separator : List Char} {pieces : List (List Char)}
    (member : character ∈ join separator pieces) :
    character ∈ separator ∨ ∃ piece ∈ pieces, character ∈ piece := by
  fun_induction join separator pieces with
  | case1 => cases member
  | case2 piece => exact .inr ⟨piece, List.mem_singleton_self _, member⟩
  | case3 piece next rest inductionHypothesis =>
    simp only [List.mem_append, or_assoc] at member
    obtain inPiece | inSeparator | later := member
    · exact .inr ⟨piece, List.mem_cons_self, inPiece⟩
    · exact .inl inSeparator
    · refine (inductionHypothesis later).imp_right fun ⟨found, isLater, inFound⟩ => ?_
      exact ⟨found, List.mem_cons_of_mem _ isLater, inFound⟩

/-- What is not a separator ends joined pieces just if it ends the last piece. -/
theorem getLast?_join_cons_iff {last : Char} (other : last ≠ separator) {piece : List Char}
    {pieces : List (List Char)} :
    (join [separator] (piece :: pieces)).getLast? = some last ↔
      pieces = [] ∧ piece.getLast? = some last ∨
        (join [separator] pieces).getLast? = some last := by
  cases pieces with
  | nil => simp [join]
  | cons next rest =>
    have ends : ∀ text : List Char,
        (separator :: text).getLast? = some last ↔ text.getLast? = some last := by
      intro text
      cases ends : text.getLast? <;> simp [List.getLast?_cons, ends, Ne.symm other]
    simp [join, List.getLast?_append, ends]

/-- Joining by a separator with a text behind it is joining by the separator, where the text stands
before each piece but the first. -/
theorem join_cons (separator : Char) (padding first : List Char) (rest : List (List Char)) :
    join (separator :: padding) (first :: rest) =
      join [separator] (first :: rest.map (padding ++ ·)) := by
  induction rest generalizing first with
  | nil => rfl
  | cons next others inductionHypothesis =>
    rw [join, inductionHypothesis, List.map_cons, join]
    cases others <;> simp [join]

/-- Pieces without separators are found again in the text that they are joined to. -/
theorem splitOn_join {pieces : List (List Char)} (nonempty : pieces ≠ [])
    (absent : ∀ piece ∈ pieces, separator ∉ piece) :
    splitOn separator (join [separator] pieces) = pieces := by
  rw [splitOn_eq, join_eq_intercalate, List.splitOn_intercalate separator absent nonempty]

end FilterLists.Text
