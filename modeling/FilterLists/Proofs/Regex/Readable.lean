/-
This file says which expressions can be read back from their text. The text shows no grouping but
that of `(?:...)`, so a quantifier must stand on a single item, alternatives may only fill a group
or the whole text, and characters with a meaning of their own must be escaped.

Such an expression reads back as one with the same meaning. It need not be the same expression:
how sequences are grouped is lost.
-/

import FilterLists.Proofs.Regex.Reader

namespace FilterLists.Regex

/-! ### Reading the parts of an expression -/

theorem readFrom_escaped {character : Char} (special : isSpecial character = true)
    (reading : Reading) (rest : List Char) :
    readFrom reading ('\\' :: character :: rest) =
      readFrom (reading.add (escaped character)) rest := by
  rw [readFrom, if_pos special]

theorem readFrom_char {character : Char} (plain : isSpecial character = false)
    (reading : Reading) (rest : List Char) :
    readFrom reading (character :: rest) = readFrom (reading.add (char character)) rest := by
  rw [readFrom.eq_def]
  split <;> simp_all [isSpecial]

theorem quantify?_add (quantifier : Regex → Regex) (reading : Reading) {item : Regex}
    (repeatable : item.isRepeatable = true) :
    (reading.add item).quantify? quantifier = some (reading.add (quantifier item)) := by
  simp [Reading.add, OpenGroup.add, Reading.quantify?, OpenGroup.quantify?, repeatable]

theorem addAll_append (reading : Reading) (first second : List Regex) :
    reading.addAll (first ++ second) = (reading.addAll first).addAll second :=
  List.foldl_append

/-- Items that are added stand in front of those of the branch so far, latest first. -/
theorem addAll_eq (reading : Reading) (items : List Regex) :
    reading.addAll items =
      { reading with innermost := { reading.innermost with
          items := items.reverse ++ reading.innermost.items } } := by
  induction items generalizing reading with
  | nil => rfl
  | cons item rest inductionHypothesis =>
    show (reading.add item).addAll rest = _
    rw [inductionHypothesis]
    simp [Reading.add, OpenGroup.add]

/-! ### Readable expressions -/

/-- Whether a set reads back from its text, wherever the text stands. -/
def IsReadableSet (members : List SetMember) : Prop :=
  ∀ reading rest,
    readFrom reading ((oneOf members).print ++ rest) = readFrom (reading.add (oneOf members)) rest

/-- The places in which an expression can stand. -/
inductive Place
  /-- Before a quantifier. -/
  | item
  /-- In a sequence. -/
  | branch
  /-- In a group of its own. -/
  | choice

/-- Expressions that can stand in a place, so that their text is understood as they are. -/
inductive Readable : Place → Regex → Prop
  | char {character : Char} : isSpecial character = false → Readable .item (char character)
  | escaped {character : Char} : isSpecial character = true → Readable .item (escaped character)
  | any : Readable .item any
  | oneOf {members : List SetMember} : IsReadableSet members → Readable .item (oneOf members)
  | group {inner : Regex} : Readable .choice inner → Readable .item (group inner)
  | ofItem {regex : Regex} : Readable .item regex → Readable .branch regex
  | start : Readable .branch start
  | stop : Readable .branch stop
  | optional {inner : Regex} : Readable .item inner → Readable .branch (optional inner)
  | star {inner : Regex} : Readable .item inner → Readable .branch (star inner)
  | plus {inner : Regex} : Readable .item inner → Readable .branch (plus inner)
  | nothing : Readable .branch nothing
  | sequence {first second : Regex} :
    Readable .branch first → Readable .branch second → Readable .branch (sequence first second)
  | ofBranch {regex : Regex} : Readable .branch regex → Readable .choice regex
  | either {left right : Regex} :
    Readable .branch left → Readable .choice right → Readable .choice (either left right)

theorem readable_concat {list : List Regex} (each : ∀ regex ∈ list, Readable .branch regex) :
    Readable .branch (concat list) := by
  induction list with
  | nil => exact .nothing
  | cons first rest inductionHypothesis =>
    exact .sequence (each first List.mem_cons_self)
      (inductionHypothesis fun regex member => each regex (List.mem_cons_of_mem first member))

/-- What reading the text of an expression in a place comes to: an item with the same meaning,
items that have the same meaning one after the other, or branches that have it together with those
before them. Whatever follows the text is read after that. -/
def ReadsBack : Place → Regex → Prop
  | .item, regex => ∀ reading rest, ∃ item,
    item.isRepeatable = true ∧ item.Matches = regex.Matches ∧
      readFrom reading (regex.print ++ rest) = readFrom (reading.add item) rest
  | .branch, regex => ∀ reading rest, ∃ items,
    (concat items).Matches = regex.Matches ∧
      readFrom reading (regex.print ++ rest) = readFrom (reading.addAll items) rest
  | .choice, regex => ∀ branches outer rest, ∃ further items,
    (OpenGroup.regex { branches := further, items }).Matches = regex.Matches ∧
      readFrom { innermost := { branches }, outer } (regex.print ++ rest) =
        readFrom { innermost := { branches := further ++ branches, items }, outer } rest

theorem ReadsBack.branch_of_item {regex : Regex} (readsBack : ReadsBack .item regex) :
    ReadsBack .branch regex := by
  intro reading rest
  obtain ⟨item, _, sameMeaning, read⟩ := readsBack reading rest
  exact ⟨[item], by rw [matches_concat_singleton, sameMeaning], read⟩

/-- A quantifier belongs to the item before it. -/
theorem ReadsBack.quantified {inner regex : Regex} {mark : Char} {quantifier : Regex → Regex}
    (readsBack : ReadsBack .item inner) (text : regex.print = inner.print ++ [mark])
    (readMark : ∀ reading rest, readFrom reading (mark :: rest) =
      (reading.quantify? quantifier).bind fun quantified => readFrom quantified rest)
    (meaning : ∀ item : Regex, item.Matches = inner.Matches →
      (quantifier item).Matches = regex.Matches) :
    ReadsBack .branch regex := by
  intro reading rest
  obtain ⟨item, repeatable, sameMeaning, read⟩ := readsBack reading (mark :: rest)
  refine ⟨[quantifier item], by rw [matches_concat_singleton, meaning item sameMeaning], ?_⟩
  rw [text, List.append_assoc, List.singleton_append, read, readMark,
    quantify?_add quantifier reading repeatable]
  rfl

theorem ReadsBack.sequence {first second : Regex} (readsFirst : ReadsBack .branch first)
    (readsSecond : ReadsBack .branch second) : ReadsBack .branch (.sequence first second) := by
  intro reading rest
  obtain ⟨firstItems, firstMeaning, firstRead⟩ := readsFirst reading (second.print ++ rest)
  obtain ⟨secondItems, secondMeaning, secondRead⟩ := readsSecond (reading.addAll firstItems) rest
  refine ⟨firstItems ++ secondItems, ?_, ?_⟩
  · rw [matches_concat_append, firstMeaning, secondMeaning]
    rfl
  · rw [addAll_append, ← secondRead, ← firstRead, ← List.append_assoc]
    rfl

/-- The items of a branch are those that are read after the latest bar. -/
theorem ReadsBack.choice_of_branch {regex : Regex} (readsBack : ReadsBack .branch regex) :
    ReadsBack .choice regex := by
  intro branches outer rest
  obtain ⟨items, sameMeaning, read⟩ := readsBack { innermost := { branches }, outer } rest
  refine ⟨[], items.reverse, ?_, ?_⟩
  · simpa [OpenGroup.regex] using sameMeaning
  · simpa [addAll_eq] using read

theorem ReadsBack.either {left right : Regex} (readsLeft : ReadsBack .branch left)
    (readsRight : ReadsBack .choice right) : ReadsBack .choice (.either left right) := by
  intro branches outer rest
  obtain ⟨leftItems, leftMeaning, leftRead⟩ :=
    readsLeft { innermost := { branches }, outer } ('|' :: (right.print ++ rest))
  obtain ⟨further, items, rightMeaning, rightRead⟩ :=
    readsRight (concat leftItems :: branches) outer rest
  refine ⟨further ++ [concat leftItems], items, ?_, ?_⟩
  · simp only [OpenGroup.regex, List.foldl_append, List.foldl_cons, List.foldl_nil]
    simp only [OpenGroup.regex] at rightMeaning
    simp only [Matches, leftMeaning, rightMeaning]
  · have afterBar : readFrom { innermost := { branches }, outer }
        ((Regex.either left right).print ++ rest) =
          readFrom { innermost := { branches := concat leftItems :: branches }, outer }
            (right.print ++ rest) := by
      simp only [print, List.append_assoc, List.cons_append]
      rw [leftRead, readFrom, addAll_eq]
      simp [Reading.endBranch, OpenGroup.endBranch]
    rw [afterBar, rightRead, List.append_assoc, List.singleton_append]

/-- A group is read on its own, and then is an item of what is around it. -/
theorem ReadsBack.group {inner : Regex} (readsBack : ReadsBack .choice inner) :
    ReadsBack .item (.group inner) := by
  intro reading rest
  obtain ⟨further, items, sameMeaning, read⟩ :=
    readsBack [] (reading.innermost :: reading.outer) (')' :: rest)
  refine ⟨.group (OpenGroup.regex { branches := further, items }), rfl, sameMeaning, ?_⟩
  simp only [print, List.cons_append, List.append_assoc, List.nil_append]
  rw [readFrom, Reading.openGroup, read, List.append_nil, readFrom]
  rfl

theorem Readable.readsBack {place : Place} {regex : Regex} (readable : Readable place regex) :
    ReadsBack place regex := by
  induction readable with
  | char plain => exact fun reading rest => ⟨_, rfl, rfl, readFrom_char plain reading rest⟩
  | escaped special =>
    exact fun reading rest => ⟨_, rfl, rfl, readFrom_escaped special reading rest⟩
  | any => exact fun reading rest => ⟨.any, rfl, rfl, by simp [print, readFrom]⟩
  | oneOf readableSet => exact fun reading rest => ⟨_, rfl, rfl, readableSet reading rest⟩
  | group _ readsBack => exact readsBack.group
  | ofItem _ readsBack => exact readsBack.branch_of_item
  | start =>
    exact fun reading rest => ⟨[.start], matches_concat_singleton _, by simp [print, readFrom]; rfl⟩
  | stop =>
    exact fun reading rest => ⟨[.stop], matches_concat_singleton _, by simp [print, readFrom]; rfl⟩
  | optional _ readsBack =>
    exact readsBack.quantified rfl (fun _ _ => by rw [readFrom]; rfl)
      fun item same => by simp only [Matches, same]
  | star _ readsBack =>
    exact readsBack.quantified rfl (fun _ _ => by rw [readFrom]; rfl)
      fun item same => by simp only [Matches, same]
  | plus _ readsBack =>
    exact readsBack.quantified rfl (fun _ _ => by rw [readFrom]; rfl)
      fun item same => by simp only [Matches, same]
  | nothing => exact fun reading rest => ⟨[], rfl, rfl⟩
  | sequence _ _ readsFirst readsSecond => exact readsFirst.sequence readsSecond
  | ofBranch _ readsBack => exact readsBack.choice_of_branch
  | either _ _ readsLeft readsRight => exact readsLeft.either readsRight

/-- The text of a readable expression reads as an expression with the same meaning. -/
theorem read?_print {regex : Regex} (readable : Readable .choice regex) :
    ∃ found, read? (.ofList regex.print) = some found ∧ found.Matches = regex.Matches := by
  obtain ⟨further, items, sameMeaning, read⟩ := readable.readsBack [] [] []
  refine ⟨_, ?_, sameMeaning⟩
  rw [List.append_nil, List.append_nil] at read
  rw [read?, String.toList_ofList, read]
  rfl

end FilterLists.Regex
