/-
This file shows that a list of domains is read back from how it is written. An entry is written as
its domain, behind a `~` if the domain is excluded, and blanks around it do not count; nor do tokens
of nothing but blanks. So what is shown is about tokens that spell a list of entries in some way,
whichever it is.
-/

import FilterLists.Proofs.Text.Split
import FilterLists.Proofs.Text.Trim
import FilterLists.Rule.Options

namespace FilterLists.DomainList

variable {separator : Char} {tokens : List (List Char)} {list : List Entry}

/-! ### Entries -/

namespace Entry

/-- The domain that an entry is about. -/
def domain : Entry → List Char
  | included domain => domain
  | excluded domain => domain

/-- How an entry is written. -/
def text : Entry → List Char
  | included domain => domain
  | excluded domain => '~' :: domain

/-- Whether an entry can be written between separators: its domain is not empty, and no part of it
is taken for something else. -/
structure IsWritable (separator : Char) (entry : Entry) : Prop where
  nonempty : entry.domain ≠ []
  trimmed : Text.IsTrimmed entry.domain
  noSeparator : separator ∉ entry.domain
  noMark : entry.domain.head? ≠ some '~'

instance (separator : Char) (entry : Entry) : Decidable (IsWritable separator entry) :=
  decidable_of_iff
    (entry.domain ≠ [] ∧ Text.IsTrimmed entry.domain ∧ separator ∉ entry.domain ∧
      entry.domain.head? ≠ some '~')
    ⟨fun ⟨nonempty, trimmed, noSeparator, noMark⟩ => ⟨nonempty, trimmed, noSeparator, noMark⟩,
      fun ⟨nonempty, trimmed, noSeparator, noMark⟩ => ⟨nonempty, trimmed, noSeparator, noMark⟩⟩

variable {entry : Entry}

theorem IsWritable.isTrimmed_text (writable : IsWritable separator entry) :
    Text.IsTrimmed entry.text := by
  cases entry with
  | included domain => exact writable.trimmed
  | excluded domain =>
    obtain ⟨first, rest, rfl⟩ := List.exists_cons_of_ne_nil writable.nonempty
    refine ⟨fun character isFirst => ?_, fun character isLast => ?_⟩
    · obtain rfl := Option.some.inj isFirst
      decide
    · rw [text, List.getLast?_cons_cons] at isLast
      exact writable.trimmed.last character isLast

theorem IsWritable.ofToken?_text (writable : IsWritable separator entry) :
    ofToken? entry.text = some entry := by
  cases entry with
  | included domain =>
    obtain ⟨first, rest, rfl⟩ := List.exists_cons_of_ne_nil writable.nonempty
    have noMark : first ≠ '~' := fun mark => writable.noMark (congrArg some mark)
    simp only [text, ofToken?]
    split <;> simp_all
  | excluded domain =>
    obtain ⟨first, rest, rfl⟩ := List.exists_cons_of_ne_nil writable.nonempty
    rfl

theorem IsWritable.separator_not_mem (writable : IsWritable separator entry)
    (other : separator ≠ '~') : separator ∉ entry.text := by
  cases entry with
  | included domain => exact writable.noSeparator
  | excluded domain => exact List.not_mem_cons_of_ne_of_not_mem other writable.noSeparator

end Entry

/-! ### Tokens that spell a list -/

/-- Whether tokens spell a list of entries: each entry with any blanks around it, and between the
entries any tokens of blanks. -/
inductive Spelled : List (List Char) → List Entry → Prop
  | nil : Spelled [] []
  | entry {before after : List Char} {tokens : List (List Char)} {entry : Entry}
    {list : List Entry} : Text.AllBlank before → Text.AllBlank after → Spelled tokens list →
      Spelled ((before ++ entry.text ++ after) :: tokens) (entry :: list)
  | blank {token : List Char} {tokens : List (List Char)} {list : List Entry} :
    Text.AllBlank token → Spelled tokens list → Spelled (token :: tokens) list

/-- Entries are spelled by their own texts. -/
theorem spelled_map_text (list : List Entry) : Spelled (list.map Entry.text) list := by
  induction list with
  | nil => exact .nil
  | cons entry rest inductionHypothesis =>
    have noBlanks : Text.AllBlank [] := List.forall_mem_nil _
    have spelled : Spelled (([] ++ entry.text ++ []) :: rest.map Entry.text) (entry :: rest) :=
      .entry noBlanks noBlanks inductionHypothesis
    rwa [List.nil_append, List.append_nil] at spelled

theorem Spelled.filterMap_ofToken? (spelled : Spelled tokens list)
    (writable : ∀ entry ∈ list, entry.IsWritable separator) :
    tokens.filterMap (fun token => Entry.ofToken? (Text.trim token)) = list := by
  induction spelled with
  | nil => rfl
  | @entry before after _ entry _ beforeBlank afterBlank _ inductionHypothesis =>
    obtain ⟨first, others⟩ := List.forall_mem_cons.mp writable
    have read : Entry.ofToken? (Text.trim (before ++ entry.text ++ after)) = some entry := by
      rw [Text.trim_append_right afterBlank, Text.trim_append_left beforeBlank,
        Text.trim_eq_self first.isTrimmed_text, first.ofToken?_text]
    simp only [List.filterMap_cons, read, inductionHypothesis others]
  | @blank token _ _ tokenBlank _ inductionHypothesis =>
    have passedOver : Entry.ofToken? (Text.trim token) = none := by
      rw [Text.trim_eq_nil_iff.mpr tokenBlank]
      rfl
    simp only [List.filterMap_cons, passedOver, inductionHypothesis writable]

theorem Spelled.separator_not_mem (spelled : Spelled tokens list)
    (writable : ∀ entry ∈ list, entry.IsWritable separator) (other : separator ≠ '~')
    (notBlank : Text.isBlank separator = false) : ∀ token ∈ tokens, separator ∉ token := by
  induction spelled with
  | nil => exact fun _ member => absurd member List.not_mem_nil
  | entry beforeBlank afterBlank _ inductionHypothesis =>
    obtain ⟨first, others⟩ := List.forall_mem_cons.mp writable
    refine List.forall_mem_cons.mpr ⟨?_, inductionHypothesis others⟩
    simp only [List.mem_append, not_or]
    exact ⟨⟨beforeBlank.not_mem notBlank, first.separator_not_mem other⟩,
      afterBlank.not_mem notBlank⟩
  | blank tokenBlank _ inductionHypothesis =>
    exact List.forall_mem_cons.mpr ⟨tokenBlank.not_mem notBlank, inductionHypothesis writable⟩

/-- However a list of entries is spelled, these entries are read, in their order. -/
theorem Spelled.parse_join (spelled : Spelled tokens list)
    (writable : ∀ entry ∈ list, entry.IsWritable separator) (other : separator ≠ '~')
    (notBlank : Text.isBlank separator = false) :
    parse separator (Text.join [separator] tokens) = ofEntries list := by
  have read : entries separator (Text.join [separator] tokens) = list := by
    by_cases none : tokens = []
    · subst none
      cases spelled
      rfl
    · rw [entries, Text.splitOn_join none (spelled.separator_not_mem writable other notBlank),
        spelled.filterMap_ofToken? writable]
  rw [parse, read]

end FilterLists.DomainList
