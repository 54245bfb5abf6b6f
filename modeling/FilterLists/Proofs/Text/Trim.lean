/-
This file says what trimming leaves of a text. It takes no notice of blanks at either end, so a line
is trimmed to the same text whether its carriage return is dropped before or not. What is left has
no blank at either end, all that was taken off is blank, and a text that has none at its ends is
left as it is.
-/

import FilterLists.Text.Blank
import FilterLists.Text.Lines

namespace FilterLists.Text

variable {blank : Char} {text before after : List Char}

/-! ### Blanks at the ends -/

theorem trim_cons_of_isBlank (isBlank : isBlank blank = true) (text : List Char) :
    trim (blank :: text) = trim text := by
  unfold trim trimStart
  rw [List.dropWhile_cons_of_pos isBlank]

theorem trimEnd_append_of_isBlank (isBlank : isBlank blank = true) (text : List Char) :
    trimEnd (text ++ [blank]) = trimEnd text := by
  unfold trimEnd
  rw [List.reverse_append, List.reverse_singleton, List.singleton_append,
    List.dropWhile_cons_of_pos isBlank]

theorem trim_append_of_isBlank (isBlank : isBlank blank = true) (text : List Char) :
    trim (text ++ [blank]) = trim text := by
  unfold trim trimStart
  rw [List.dropWhile_append]
  split
  · rename_i allBlank
    rw [List.isEmpty_iff.mp allBlank, List.dropWhile_cons_of_pos isBlank, List.dropWhile_nil]
  · exact trimEnd_append_of_isBlank isBlank _

theorem trim_dropReturn (line : List Char) : trim (dropReturn line) = trim line := by
  unfold dropReturn
  cases found : dropLast? '\r' line with
  | none => rfl
  | some front =>
    rw [Option.getD_some, eq_append_of_dropLast? found]
    exact (trim_append_of_isBlank (by decide) front).symm

/-- Whether a text holds nothing but blanks. -/
def AllBlank (text : List Char) : Prop :=
  ∀ character ∈ text, isBlank character = true

instance (text : List Char) : Decidable (AllBlank text) :=
  List.decidableBAll (fun character => isBlank character = true) text

theorem AllBlank.not_mem {character : Char} (allBlank : AllBlank text)
    (notBlank : isBlank character = false) : character ∉ text :=
  fun member => Bool.false_ne_true (notBlank.symm.trans (allBlank character member))

theorem trim_append_left (allBlank : AllBlank before) (text : List Char) :
    trim (before ++ text) = trim text := by
  induction before with
  | nil => rfl
  | cons character rest inductionHypothesis =>
    obtain ⟨isBlank, others⟩ := List.forall_mem_cons.mp allBlank
    rw [List.cons_append, trim_cons_of_isBlank isBlank, inductionHypothesis others]

theorem trim_append_right (allBlank : AllBlank after) (text : List Char) :
    trim (text ++ after) = trim text := by
  induction after generalizing text with
  | nil => rw [List.append_nil]
  | cons character rest inductionHypothesis =>
    obtain ⟨isBlank, others⟩ := List.forall_mem_cons.mp allBlank
    rw [List.append_cons, inductionHypothesis others, trim_append_of_isBlank isBlank]

/-! ### Trimmed texts -/

/-- Whether a text neither starts nor ends with a blank. -/
structure IsTrimmed (text : List Char) : Prop where
  first : ∀ character, text.head? = some character → isBlank character = false
  last : ∀ character, text.getLast? = some character → isBlank character = false

theorem dropWhile_isBlank_of_first
    (first : ∀ character, text.head? = some character → isBlank character = false) :
    text.dropWhile isBlank = text := by
  cases text with
  | nil => rfl
  | cons character rest =>
    rw [List.dropWhile_cons_of_neg]
    simpa using first character rfl

theorem not_isBlank_of_dropWhile {character : Char}
    (first : (text.dropWhile isBlank).head? = some character) : isBlank character = false := by
  have notBlank := List.head?_dropWhile_not isBlank text
  rw [first] at notBlank
  exact notBlank

theorem trim_eq_self (isTrimmed : IsTrimmed text) : trim text = text := by
  have atStart : trimStart text = text := dropWhile_isBlank_of_first isTrimmed.first
  have atEnd : text.reverse.dropWhile isBlank = text.reverse := by
    refine dropWhile_isBlank_of_first fun character isLast => ?_
    rw [List.head?_reverse] at isLast
    exact isTrimmed.last character isLast
  rw [trim, atStart, trimEnd, atEnd, List.reverse_reverse]

/-- Blanks are taken off both ends of a text, and nothing else. -/
theorem exists_eq_append_trim (text : List Char) :
    ∃ before after, text = before ++ trim text ++ after ∧ AllBlank before ∧ AllBlank after := by
  refine ⟨text.takeWhile isBlank, ((trimStart text).reverse.takeWhile isBlank).reverse, ?_, ?_, ?_⟩
  · have atEnd : trim text ++ ((trimStart text).reverse.takeWhile isBlank).reverse =
        trimStart text := by
      rw [trim, trimEnd, ← List.reverse_append, List.takeWhile_append_dropWhile,
        List.reverse_reverse]
    rw [List.append_assoc, atEnd]
    exact List.takeWhile_append_dropWhile.symm
  · exact List.all_eq_true.mp List.all_takeWhile
  · exact fun character member =>
      List.all_eq_true.mp List.all_takeWhile character (List.mem_reverse.mp member)

theorem trim_isInfix (text : List Char) : trim text <:+: text := by
  obtain ⟨before, after, parts, -, -⟩ := exists_eq_append_trim text
  exact ⟨before, after, parts.symm⟩

theorem mem_of_mem_trim {character : Char} (member : character ∈ trim text) : character ∈ text :=
  (trim_isInfix text).subset member

/-- No blanks stand at the end of a trimmed text. -/
theorem IsTrimmed.eq_nil_of_append (isTrimmed : IsTrimmed (text ++ after))
    (allBlank : AllBlank after) : after = [] := by
  obtain rfl | ⟨others, last, rfl⟩ := List.eq_nil_or_concat after
  · rfl
  · rw [List.concat_eq_append] at isTrimmed allBlank
    have isBlank : isBlank last = true := allBlank last (by simp)
    have notBlank := isTrimmed.last last (by simp)
    exact absurd (isBlank.symm.trans notBlank) (by decide)

theorem isTrimmed_trim (text : List Char) : IsTrimmed (trim text) where
  first character isFirst := by
    obtain ⟨rest, trimmed⟩ := List.head?_eq_some_iff.mp isFirst
    obtain ⟨taken, parts⟩ : trim text <+: trimStart text :=
      List.reverse_suffix.mp (by simpa [trim, trimEnd] using List.dropWhile_suffix isBlank)
    have startsSo : (trimStart text).head? = some character := by
      rw [← parts, trimmed]
      rfl
    exact not_isBlank_of_dropWhile startsSo
  last character isLast := by
    rw [trim, trimEnd, List.getLast?_reverse] at isLast
    exact not_isBlank_of_dropWhile isLast

instance (text : List Char) : Decidable (IsTrimmed text) :=
  decidable_of_iff (trim text = text) ⟨fun same => same ▸ isTrimmed_trim text, trim_eq_self⟩

/-- Nothing is left of a text of blanks, and of no other. -/
theorem trim_eq_nil_iff : trim text = [] ↔ AllBlank text := by
  constructor
  · intro nothing
    obtain ⟨before, after, parts, beforeBlank, afterBlank⟩ := exists_eq_append_trim text
    rw [parts, nothing, List.append_nil]
    exact List.forall_mem_append.mpr ⟨beforeBlank, afterBlank⟩
  · intro allBlank
    rw [← List.append_nil text, trim_append_left allBlank]
    rfl

end FilterLists.Text
