/-
This file says where the first occurrence of a marker in a text is, and shows that cutting a text
at a marker finds it. Markers are parts of lines that are written by hand, and what stands before
a marker can end with some of its characters, so that the marker seems to start earlier. Whether it
does is decided by the text up to the last character of the marker.

The other facts are on texts that are put together: characters that a marker does not have keep its
occurrences apart.
-/

import FilterLists.Text.Split
import Mathlib.Data.List.Basic

namespace FilterLists.Text

variable {marker text before after front back : List Char} {separator : Char}

/-! ### First occurrences -/

/-- Whether a marker occurs in a text between `before` and `after`, and nowhere earlier. -/
structure IsFirst (marker text before after : List Char) : Prop where
  parts : text = before ++ marker ++ after
  first : ∀ front back, text = front ++ marker ++ back → before.length ≤ front.length

theorem IsFirst.unique {before' after' : List Char} (isFirst : IsFirst marker text before after)
    (other : IsFirst marker text before' after') : before = before' ∧ after = after' := by
  have sameLength : before.length = before'.length :=
    Nat.le_antisymm (isFirst.first _ _ other.parts) (other.first _ _ isFirst.parts)
  have sameText : before ++ (marker ++ after) = before' ++ (marker ++ after') := by
    rw [← List.append_assoc, ← List.append_assoc, ← isFirst.parts, other.parts]
  obtain ⟨sameBefore, sameRest⟩ := List.append_inj sameText sameLength
  exact ⟨sameBefore, List.append_cancel_left sameRest⟩

theorem IsFirst.isInfix (isFirst : IsFirst marker text before after) : marker <:+: text :=
  ⟨before, after, isFirst.parts.symm⟩

theorem IsFirst.not_mem {character : Char} (isFirst : IsFirst [character] text before after) :
    character ∉ before := by
  intro member
  obtain ⟨front, back, rfl⟩ := List.append_of_mem member
  have := isFirst.first front (back ++ [character] ++ after) (by simp [isFirst.parts])
  rw [List.length_append, List.length_cons] at this
  omega

/-- An earlier occurrence would end before the last character of the marker. -/
theorem isFirst_of_not_infix (after : List Char)
    (absent : ¬ marker <:+: before ++ marker.dropLast) :
    IsFirst marker (before ++ marker ++ after) before after where
  parts := rfl
  first front back parts := by
    refine Nat.le_of_not_lt fun earlier => absent ?_
    have lengthFront : (front ++ marker).length ≤ (before ++ marker.dropLast).length := by
      rw [List.length_append, List.length_append, List.length_dropLast]
      omega
    have front_prefix : front ++ marker <+: before ++ marker ++ after := ⟨back, parts.symm⟩
    have before_prefix : before ++ marker.dropLast <+: before ++ marker ++ after := by
      rw [List.append_assoc, List.prefix_append_right_inj]
      exact (List.dropLast_prefix marker).trans (List.prefix_append marker after)
    have within := List.prefix_of_prefix_length_le front_prefix before_prefix lengthFront
    exact (List.suffix_append front marker).isInfix.trans within.isInfix

theorem isFirst_of_not_mem {character : Char} (absent : character ∉ before) (after : List Char) :
    IsFirst [character] (before ++ character :: after) before after := by
  rw [List.append_cons]
  refine isFirst_of_not_infix after fun occurs => absent ?_
  rw [List.dropLast_singleton, List.append_nil] at occurs
  exact occurs.subset List.mem_cons_self

/-! ### Cutting -/

theorem isPrefixOf?_eq_none_iff : marker.isPrefixOf? text = none ↔ ¬ marker <+: text := by
  rw [Option.eq_none_iff_forall_ne_some]
  refine ⟨fun notFound ⟨rest, parts⟩ => notFound rest ?_,
    fun absent rest found => absent ⟨rest, ?_⟩⟩
  · exact List.isPrefixOf?_eq_some_iff_append_eq.mpr parts
  · exact List.isPrefixOf?_eq_some_iff_append_eq.mp found

theorem isFirst_of_cut? (found : cut? marker text = some (before, after)) :
    IsFirst marker text before after := by
  induction text generalizing before with
  | nil =>
    unfold cut? at found
    split at found
    · rename_i empty
      cases found
      exact ⟨by rw [empty]; rfl, fun _ _ _ => Nat.zero_le _⟩
    · cases found
  | cons character rest inductionHypothesis =>
    unfold cut? at found
    split at found
    · rename_i atStart
      cases found
      exact ⟨(List.isPrefixOf?_eq_some_iff_append_eq.mp atStart).symm, fun _ _ _ => Nat.zero_le _⟩
    · rename_i notAtStart
      obtain ⟨⟨earlier, _⟩, later, same⟩ := Option.map_eq_some_iff.mp found
      cases same
      have isFirst := inductionHypothesis later
      refine ⟨congrArg (character :: ·) isFirst.parts, fun front back parts => ?_⟩
      cases front with
      | nil =>
        have atStart := List.isPrefixOf?_eq_some_iff_append_eq.mpr parts.symm
        cases notAtStart.symm.trans atStart
      | cons _ front =>
        exact Nat.succ_le_succ (isFirst.first front back (List.cons.inj parts).2)

theorem not_infix_of_cut? (notFound : cut? marker text = none) : ¬ marker <:+: text := by
  induction text with
  | nil =>
    rw [List.infix_nil]
    intro empty
    simp [cut?, empty] at notFound
  | cons character rest inductionHypothesis =>
    unfold cut? at notFound
    split at notFound
    · cases notFound
    · rename_i notAtStart
      rw [List.infix_cons_iff, not_or]
      exact ⟨isPrefixOf?_eq_none_iff.mp notAtStart,
        inductionHypothesis (Option.map_eq_none_iff.mp notFound)⟩

/-- A text is cut at the first occurrence of the marker. -/
theorem cut?_eq_some_iff :
    cut? marker text = some (before, after) ↔ IsFirst marker text before after := by
  refine ⟨isFirst_of_cut?, fun isFirst => ?_⟩
  cases found : cut? marker text with
  | none => exact absurd isFirst.isInfix (not_infix_of_cut? found)
  | some parts =>
    obtain ⟨rfl, rfl⟩ := (isFirst_of_cut? found).unique isFirst
    rfl

/-- A text is not cut just if the marker does not occur in it. -/
theorem cut?_eq_none_iff : cut? marker text = none ↔ ¬ marker <:+: text := by
  refine ⟨not_infix_of_cut?, fun absent => ?_⟩
  cases found : cut? marker text with
  | none => rfl
  | some parts => exact absurd (isFirst_of_cut? found).isInfix absent

/-! ### Occurrences in texts that are put together -/

/-- A marker does not reach into a text without its first character that stands before. -/
theorem cons_infix_append_iff {character : Char} {rest : List Char} (absent : character ∉ front) :
    (character :: rest) <:+: front ++ back ↔ (character :: rest) <:+: back := by
  induction front with
  | nil => rfl
  | cons other front inductionHypothesis =>
    obtain ⟨isOther, absentLater⟩ := List.ne_and_not_mem_of_not_mem_cons absent
    rw [List.cons_append, List.infix_cons_iff, List.cons_prefix_cons,
      inductionHypothesis absentLater]
    exact or_iff_right fun starts => isOther starts.1

/-- A marker does not reach into a text without its last character that stands behind. -/
theorem concat_infix_append_iff {character : Char} {rest : List Char} (absent : character ∉ back) :
    (rest ++ [character]) <:+: front ++ back ↔ (rest ++ [character]) <:+: front := by
  have reversed : (character :: rest.reverse) <:+: back.reverse ++ front.reverse ↔
      (character :: rest.reverse) <:+: front.reverse :=
    cons_infix_append_iff fun member => absent (List.mem_reverse.mp member)
  have mirror : (rest ++ [character]).reverse = character :: rest.reverse := by simp
  rwa [← mirror, ← List.reverse_append, List.reverse_infix, List.reverse_infix] at reversed

/-- A character that a marker does not have keeps its occurrences on one side. -/
theorem infix_append_cons_iff (nonempty : marker ≠ []) (absent : separator ∉ marker) :
    marker <:+: front ++ separator :: back ↔ marker <:+: front ∨ marker <:+: back := by
  constructor
  · intro occurs
    rw [List.infix_append_iff, List.infix_cons_iff] at occurs
    obtain inFront | (atSeparator | inBack) | ⟨left, right, rfl, atEnd, atStart⟩ := occurs
    · exact .inl inFront
    · obtain ⟨character, rest, rfl⟩ := List.exists_cons_of_ne_nil nonempty
      rw [List.cons_prefix_cons] at atSeparator
      exact absurd (atSeparator.1 ▸ List.mem_cons_self) absent
    · exact .inr inBack
    · cases right with
      | nil => exact .inl (by simpa using atEnd.isInfix)
      | cons character rest =>
        rw [List.cons_prefix_cons] at atStart
        exact absurd (by simp [atStart.1]) absent
  · rintro (inFront | inBack)
    · exact inFront.trans (List.infix_append' [] front _)
    · exact inBack.trans ⟨front ++ [separator], [], by simp⟩

/-- A text that starts with a marker does so before a character that the marker does not have. -/
theorem prefix_append_cons_iff (absent : separator ∉ marker) :
    marker <+: front ++ separator :: back ↔ marker <+: front := by
  refine ⟨fun starts => ?_, fun starts => starts.trans (List.prefix_append front _)⟩
  obtain within | ⟨rest, rfl⟩ :=
    List.prefix_or_prefix_of_prefix starts (List.prefix_append front (separator :: back))
  · exact within
  · rw [List.prefix_append_right_inj] at starts
    cases rest with
    | nil => simp
    | cons character rest =>
      rw [List.cons_prefix_cons] at starts
      exact absurd (by simp [starts.1]) absent

/-- A marker that the separator is not in occurs in joined pieces just if it occurs in a piece. -/
theorem infix_join_iff {pieces : List (List Char)} (nonempty : marker ≠ [])
    (absent : separator ∉ marker) :
    marker <:+: join [separator] pieces ↔ ∃ piece ∈ pieces, marker <:+: piece := by
  fun_induction join [separator] pieces with
  | case1 => simp [nonempty]
  | case2 => simp
  | case3 piece next rest inductionHypothesis =>
    rw [List.append_assoc, List.singleton_append, infix_append_cons_iff nonempty absent,
      inductionHypothesis]
    simp

end FilterLists.Text
