/-
This file says what regular expressions match. An expression matches a part of a text, and the
anchors look at what stands around the part, so a match is stated with everything before it and
everything after it. A text is searched by trying all its parts.

Sequences can be regrouped without changing what they match. That is what lets an expression be
read back from its text, which shows no grouping of sequences.
-/

import FilterLists.Regex.Basic

namespace FilterLists

/-- What an expression can match: a part of a text, given between all that stands before it and
all that stands after it. -/
abbrev Extent := (before matched after : List Char) → Prop

namespace Extent

/-- One after the other. What the second one matches stands after what the first one matches. -/
def followedBy (first second : Extent) : Extent := fun before matched after =>
  ∃ left right, matched = left ++ right ∧ first before left (right ++ after) ∧
    second (before ++ left) right after

/-- Any number of times in a row. -/
inductive Repeated (once : Extent) : Extent
  | none {before after : List Char} : Repeated once before [] after
  | more {before first rest after : List Char} :
    once before first (rest ++ after) → Repeated once (before ++ first) rest after →
      Repeated once before (first ++ rest) after

/-- One character of a kind. -/
def character (kind : Char → Bool) : Extent := fun _ matched _ =>
  ∃ found, kind found = true ∧ matched = [found]

theorem followedBy_assoc (first second third : Extent) :
    (first.followedBy second).followedBy third = first.followedBy (second.followedBy third) := by
  funext before matched after
  refine propext ⟨?_, ?_⟩
  · rintro ⟨_, right, rfl, ⟨left, middle, rfl, one, two⟩, three⟩
    rw [← List.append_assoc] at three
    exact ⟨left, middle ++ right, by simp, by simpa using one, middle, right, rfl, two, three⟩
  · rintro ⟨left, _, rfl, one, middle, right, rfl, two, three⟩
    refine ⟨left ++ middle, right, by simp, ⟨left, middle, rfl, by simpa using one, two⟩, ?_⟩
    rwa [← List.append_assoc]

/-- Characters of a kind in a row are a text of that kind. -/
theorem repeated_character_iff {kind : Char → Bool} {before matched after : List Char} :
    Repeated (character kind) before matched after ↔ ∀ found ∈ matched, kind found = true := by
  constructor
  · intro repeated
    induction repeated with
    | none => simp
    | more once _ inductionHypothesis =>
      obtain ⟨first, isKind, rfl⟩ := once
      simpa [isKind] using inductionHypothesis
  · induction matched generalizing before with
    | nil => exact fun _ => .none
    | cons first rest inductionHypothesis =>
      intro all
      have firstIsKind : character kind before [first] (rest ++ after) :=
        ⟨first, all first List.mem_cons_self, rfl⟩
      exact .more firstIsKind
        (inductionHypothesis fun found member => all found (List.mem_cons_of_mem first member))

end Extent

namespace Regex

/-- What an expression matches. A dot matches every character but the one that ends a line. -/
def Matches : Regex → Extent
  | nothing => fun _ matched _ => matched = []
  | char character => fun _ matched _ => matched = [character]
  | escaped character => fun _ matched _ => matched = [character]
  | any => .character (· != '\n')
  | oneOf members => .character fun found => members.any (SetMember.accepts found)
  | start => fun before matched _ => before = [] ∧ matched = []
  | stop => fun _ matched after => after = [] ∧ matched = []
  | sequence first second => first.Matches.followedBy second.Matches
  | either left right => fun before matched after =>
    left.Matches before matched after ∨ right.Matches before matched after
  | group inner => inner.Matches
  | optional inner => fun before matched after =>
    matched = [] ∨ inner.Matches before matched after
  | star inner => .Repeated inner.Matches
  | plus inner => inner.Matches.followedBy (.Repeated inner.Matches)

/-- Whether a search for an expression finds something in a text. -/
def Finds (regex : Regex) (text : List Char) : Prop :=
  ∃ before matched after, text = before ++ matched ++ after ∧ regex.Matches before matched after

/-! ### Sequences can be regrouped -/

@[simp] theorem matches_nothing_followedBy (second : Extent) :
    nothing.Matches.followedBy second = second := by
  funext before matched after
  refine propext ⟨?_, fun found => ⟨[], matched, rfl, rfl, by simpa using found⟩⟩
  rintro ⟨_, right, rfl, rfl, found⟩
  simpa using found

@[simp] theorem matches_followedBy_nothing (first : Extent) :
    first.followedBy nothing.Matches = first := by
  funext before matched after
  refine propext ⟨?_, fun found => ⟨matched, [], by simp, found, rfl⟩⟩
  rintro ⟨left, _, rfl, found, rfl⟩
  simpa using found

theorem matches_concat_append (first second : List Regex) :
    (concat (first ++ second)).Matches =
      (concat first).Matches.followedBy (concat second).Matches := by
  induction first with
  | nil => exact (matches_nothing_followedBy _).symm
  | cons item rest inductionHypothesis =>
    simp only [List.cons_append, concat, Matches]
    rw [inductionHypothesis, Extent.followedBy_assoc]

theorem matches_concat_singleton (regex : Regex) : (concat [regex]).Matches = regex.Matches := by
  simp only [concat, Matches]
  exact matches_followedBy_nothing _

end Regex

end FilterLists
