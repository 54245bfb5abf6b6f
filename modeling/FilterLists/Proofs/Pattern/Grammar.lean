/-
This file says what the text of a URL filter is made of, without a word about what it matches. The
engine refuses a container for the sake of one filter that it cannot read. So a filter is a row of
items of a few known kinds, which an anchor may tie to the start and to the end of the address. No
item is a quantifier or a bracket on its own, so there is nothing that could be left without an
operand or without its other half.

Two things are shown of these texts: the engine's reader reads each of them, and translating a
pattern gives one of them, whatever the pattern holds.
-/

import FilterLists.Proofs.Pattern.Translation

namespace FilterLists.Pattern

/-! ### Texts of URL filters -/

/-- The items of a URL filter: a character, which is escaped just if it is special, any one
character, any run of characters, and the groups for a separator and for the two parts of the
start of a host name. -/
inductive IsItem : List Char → Prop
  | plain {character : Char} : Regex.isSpecial character = false → IsItem [character]
  | escaped {character : Char} : Regex.isSpecial character = true → IsItem ['\\', character]
  | anyChar : IsItem ".".toList
  | anyRun : IsItem ".*".toList
  | separator : IsItem
    "(?:[\\x00-\\x24\\x26-\\x2C\\x2F\\x3A-\\x40\\x5B-\\x5E\\x60\\x7B-\\x7F]|$)".toList
  | scheme : IsItem "(?:[a-z][a-z0-9+.-]*://)?".toList
  | labels : IsItem "(?:[a-z0-9_-]+\\.)*".toList

/-- Whether a text is a row of items. -/
def AreItems (text : List Char) : Prop :=
  ∃ items : List (List Char), text = items.flatten ∧ ∀ item ∈ items, IsItem item

/-- Whether a text is a row of items, with an anchor before it or not, and an anchor behind it or
not, but is not empty. -/
structure IsUrlFilter (text : List Char) : Prop where
  nonempty : text ≠ []
  anchored : ∃ opening body closing, text = opening ++ body ++ closing ∧
    (opening = [] ∨ opening = ['^']) ∧ AreItems body ∧ (closing = [] ∨ closing = ['$'])

theorem areItems_nil : AreItems [] :=
  ⟨[], rfl, by simp⟩

theorem IsItem.areItems {item : List Char} (isItem : IsItem item) : AreItems item :=
  ⟨[item], by simp, by simpa using isItem⟩

theorem AreItems.append {front back : List Char} (first : AreItems front)
    (second : AreItems back) : AreItems (front ++ back) := by
  obtain ⟨frontItems, rfl, frontAre⟩ := first
  obtain ⟨backItems, rfl, backAre⟩ := second
  refine ⟨frontItems ++ backItems, List.flatten_append.symm, fun item member => ?_⟩
  exact (List.mem_append.mp member).elim (frontAre item) (backAre item)

theorem IsItem.ne_nil {item : List Char} (isItem : IsItem item) : item ≠ [] := by
  cases isItem <;> exact List.cons_ne_nil _ _

/-! ### The texts can be read -/

open Regex (Readable)

theorem IsItem.exists_readable {item : List Char} (isItem : IsItem item) :
    ∃ regex : Regex, Readable .branch regex ∧ regex.print = item := by
  cases isItem with
  | plain isPlain => exact ⟨.char _, .ofItem (.char isPlain), rfl⟩
  | escaped isSpecial => exact ⟨.escaped _, .ofItem (.escaped isSpecial), rfl⟩
  | anyChar => exact ⟨.any, .ofItem .any, rfl⟩
  | anyRun => exact ⟨.star .any, .star .any, rfl⟩
  | separator => exact ⟨Piece.separator.regex, readable_separator, by decide⟩
  | scheme =>
    exact ⟨.optional (.group Piece.scheme), .optional (.group (.ofBranch readable_scheme)),
      by decide⟩
  | labels =>
    exact ⟨.star (.group Piece.label), .star (.group (.ofBranch readable_label)), by decide⟩

theorem AreItems.exists_readable {text : List Char} (areItems : AreItems text) :
    ∃ regex : Regex, Readable .branch regex ∧ regex.print = text := by
  obtain ⟨items, rfl, each⟩ := areItems
  induction items with
  | nil => exact ⟨.nothing, .nothing, rfl⟩
  | cons item rest inductionHypothesis =>
    obtain ⟨first, firstReadable, rfl⟩ := (each item List.mem_cons_self).exists_readable
    obtain ⟨others, othersReadable, printed⟩ :=
      inductionHypothesis fun other member => each other (List.mem_cons_of_mem _ member)
    refine ⟨.sequence first others, .sequence firstReadable othersReadable, ?_⟩
    rw [List.flatten_cons, ← printed]
    rfl

/-- Every text of this kind is a regular expression. -/
theorem IsUrlFilter.exists_read {text : List Char} (isUrlFilter : IsUrlFilter text) :
    ∃ expression, Regex.read? (.ofList text) = some expression := by
  obtain ⟨opening, body, closing, rfl, isOpening, areItems, isClosing⟩ := isUrlFilter.anchored
  obtain ⟨middle, middleReadable, rfl⟩ := areItems.exists_readable
  obtain ⟨first, firstReadable, rfl⟩ :
      ∃ regex : Regex, Readable .branch regex ∧ regex.print = opening := by
    obtain rfl | rfl := isOpening
    · exact ⟨.nothing, .nothing, rfl⟩
    · exact ⟨.start, .start, rfl⟩
  obtain ⟨last, lastReadable, rfl⟩ :
      ∃ regex : Regex, Readable .branch regex ∧ regex.print = closing := by
    obtain rfl | rfl := isClosing
    · exact ⟨.nothing, .nothing, rfl⟩
    · exact ⟨.stop, .stop, rfl⟩
  obtain ⟨expression, read, -⟩ := Regex.read?_print
    (.ofBranch (.sequence (.sequence firstReadable middleReadable) lastReadable))
  exact ⟨expression, read⟩

/-! ### Translated patterns -/

theorem isItem_literalPiece (character : Char) : IsItem (literalPiece character).text := by
  unfold literalPiece
  rw [← isSpecial_eq]
  split
  · rename_i special
    exact .escaped special
  · rename_i plain
    exact .plain (by simpa using plain)

theorem isItem_bodyPiece (character : Char) : IsItem (bodyPiece character).text := by
  obtain rfl | rfl | rfl | ordinary := bodyChar_cases character
  · exact .separator
  · exact .anyRun
  · exact .anyChar
  · rw [bodyPiece_eq_literalPiece ordinary]
    exact isItem_literalPiece character

theorem print_append (first second : List Piece) :
    print (first ++ second) = print first ++ print second :=
  List.flatMap_append

theorem areItems_print_map {translation : Char → Piece}
    (each : ∀ character, IsItem (translation character).text) (text : List Char) :
    AreItems (print (text.map translation)) := by
  induction text with
  | nil => exact areItems_nil
  | cons character rest inductionHypothesis =>
    exact (each character).areItems.append inductionHypothesis

theorem areItems_literalPieces (text : List Char) : AreItems (print (literalPieces text)) :=
  areItems_print_map isItem_literalPiece text

theorem areItems_bodyPieces (body : List Char) : AreItems (print (bodyPieces body)) :=
  areItems_print_map isItem_bodyPiece body

theorem exists_print_closedPieces (body : List Char) :
    ∃ inner closing, print (closedPieces body) = inner ++ closing ∧ AreItems inner ∧
      (closing = [] ∨ closing = ['$']) := by
  unfold closedPieces
  split
  · rename_i inner _
    exact ⟨_, ['$'], print_append _ _, areItems_bodyPieces inner, .inr rfl⟩
  · exact ⟨_, [], (List.append_nil _).symm, areItems_bodyPieces body, .inl rfl⟩

theorem print_closedPieces_ne_nil {body : List Char} (nonempty : body ≠ []) :
    print (closedPieces body) ≠ [] := by
  unfold closedPieces
  split
  · rw [print_append]
    exact List.append_ne_nil_of_right_ne_nil _ (List.cons_ne_nil _ _)
  · obtain ⟨character, rest, rfl⟩ := List.exists_cons_of_ne_nil nonempty
    exact List.append_ne_nil_of_left_ne_nil (isItem_bodyPiece character).ne_nil _

/-- What stands behind an anchor to the start makes the rest of a URL filter. -/
theorem isUrlFilter_start {body closing : List Char} (areItems : AreItems body)
    (isClosing : closing = [] ∨ closing = ['$']) : IsUrlFilter ('^' :: (body ++ closing)) where
  nonempty := List.cons_ne_nil _ _
  anchored := ⟨['^'], body, closing, rfl, .inr rfl, areItems, isClosing⟩

/-- The two groups at the start of a host are items behind an anchor. -/
theorem text_hostStart : ∃ groups, Piece.hostStart.text = '^' :: groups ∧ AreItems groups :=
  ⟨_, rfl, IsItem.scheme.areItems.append IsItem.labels.areItems⟩

/-- Every pattern but the empty one is translated into a URL filter. -/
theorem isUrlFilter_print_pieces {pattern : List Char} (nonempty : pattern ≠ []) :
    IsUrlFilter (print (pieces pattern)) := by
  unfold pieces
  split
  · rename_i rest
    rw [hostAnchoredPieces_eq]
    obtain ⟨groups, opens, areGroups⟩ := text_hostStart
    obtain ⟨inner, closing, closes, areItems, isClosing⟩ := exists_print_closedPieces rest
    have printed : print (.hostStart :: closedPieces rest) =
        '^' :: (groups ++ inner ++ closing) := by
      show Piece.hostStart.text ++ print (closedPieces rest) = _
      rw [opens, closes, List.cons_append, List.append_assoc]
    rw [printed]
    exact isUrlFilter_start (areGroups.append areItems) isClosing
  · split
    · rename_i exact _
      rw [print_append]
      exact isUrlFilter_start (areItems_literalPieces exact) (.inr rfl)
    · rename_i rest _ _ _
      have filter := isUrlFilter_start (areItems_bodyPieces rest) (.inl rfl)
      rwa [List.append_nil] at filter
  · obtain ⟨inner, closing, closes, areItems, isClosing⟩ := exists_print_closedPieces pattern
    refine ⟨print_closedPieces_ne_nil nonempty, [], inner, closing, ?_, .inl rfl, areItems,
      isClosing⟩
    exact closes

end FilterLists.Pattern
