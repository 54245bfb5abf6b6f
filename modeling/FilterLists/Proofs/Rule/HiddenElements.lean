/-
This file shows that lines that hide elements are read back as they were written: which domains they
are for, which they are not for, and what they hide. Selectors may start with `#` and may hold the
marker, since the marker that counts is the first one; but the domains must not hold it, nor end
with half of it, and the line must not read as a call.

How the line is laid out does not matter. Blanks around entries and around the selector are trimmed,
and blank entries are passed over. None of this adds a marker: blanks and commas are not in it, so
what is added keeps the characters of a marker apart, and brings none together.
-/

import FilterLists.Proofs.Rule.Domains
import FilterLists.Proofs.Rule.Line

namespace FilterLists.Rule

open DomainList (Entry Spelled)

variable {tokens : List (List Char)} {entries : List Entry}
  {domains selector text before after : List Char}

/-- A line that hides what a selector finds on the pages that tokens spell. -/
def hidingLine (tokens : List (List Char)) (selector : List Char) : List Char :=
  Text.join [','] tokens ++ hidingMarker ++ selector

/-! ### Where the marker is -/

/-- The marker starts where it was written unless the domains end with half of it. -/
theorem isFirst_hidingMarker (noMarker : ¬ hidingMarker <:+: domains)
    (noHash : domains.getLast? ≠ some '#') (selector : List Char) :
    Text.IsFirst hidingMarker (domains ++ hidingMarker ++ selector) domains selector := by
  refine Text.isFirst_of_not_infix selector fun occurs => ?_
  rw [show hidingMarker.dropLast = ['#'] from rfl, List.infix_concat_iff] at occurs
  obtain ⟨front, parts⟩ | within := occurs
  · have ends : front ++ ['#'] = domains := by
      have both : front ++ ['#'] ++ ['#'] = domains ++ ['#'] := by
        rw [List.append_assoc]
        exact parts
      exact List.append_cancel_right both
    exact noHash (by rw [← ends, List.getLast?_concat])
  · exact noMarker within

/-- A call would start with the marker of hidden elements, so it would not start before it. -/
theorem call_infix_of_isFirst {line : List Char}
    (isFirst : Text.IsFirst hidingMarker line domains selector) (isCall : callMarker <:+: line) :
    callMarker <:+: hidingMarker ++ selector := by
  obtain ⟨front, back, parts⟩ := isCall
  have isLater : domains.length ≤ front.length := by
    refine isFirst.first front ("+js(".toList ++ back) (parts.symm.trans ?_)
    rw [List.append_assoc, List.append_assoc]
    rfl
  have frontStarts : front <+: line := ⟨callMarker ++ back, by rw [← parts, List.append_assoc]⟩
  have domainsStart : domains <+: line :=
    ⟨hidingMarker ++ selector, by rw [isFirst.parts, List.append_assoc]⟩
  obtain ⟨rest, rfl⟩ := List.prefix_of_prefix_length_le domainsStart frontStarts isLater
  have behind :
      domains ++ (rest ++ callMarker ++ back) = domains ++ (hidingMarker ++ selector) := by
    rw [← List.append_assoc, ← List.append_assoc, parts, isFirst.parts, List.append_assoc]
  exact ⟨rest, back, List.append_cancel_left behind⟩

/-! ### Layout adds no marker -/

theorem hiding_infix_of_padded (beforeBlank : Text.AllBlank before)
    (afterBlank : Text.AllBlank after) (occurs : hidingMarker <:+: before ++ text ++ after) :
    hidingMarker <:+: text := by
  have opening : hidingMarker = ['#'] ++ ['#'] := rfl
  rw [opening, Text.concat_infix_append_iff (afterBlank.not_mem (by decide))] at occurs
  exact (Text.cons_infix_append_iff (beforeBlank.not_mem (by decide))).mp occurs

theorem exists_entry_of_hiding_infix (spelled : Spelled tokens entries)
    (occurs : ∃ token ∈ tokens, hidingMarker <:+: token) :
    ∃ text ∈ entries.map Entry.text, hidingMarker <:+: text := by
  induction spelled with
  | nil => simp at occurs
  | entry beforeBlank afterBlank _ inductionHypothesis =>
    rw [List.map_cons, List.exists_mem_cons_iff]
    obtain inEntry | later := (List.exists_mem_cons_iff _ _ _).mp occurs
    · exact .inl (hiding_infix_of_padded beforeBlank afterBlank inEntry)
    · exact .inr (inductionHypothesis later)
  | blank tokenBlank _ inductionHypothesis =>
    obtain inBlank | later := (List.exists_mem_cons_iff _ _ _).mp occurs
    · have member := inBlank.subset (show '#' ∈ hidingMarker by decide)
      exact absurd member (tokenBlank.not_mem (by decide))
    · exact inductionHypothesis later

theorem hiding_infix_of_spelled (spelled : Spelled tokens entries)
    (occurs : hidingMarker <:+: Text.join [','] tokens) :
    hidingMarker <:+: Text.join [','] (entries.map Entry.text) := by
  have noComma : ',' ∉ hidingMarker := by decide
  have nonempty : hidingMarker ≠ [] := by decide
  rw [Text.infix_join_iff nonempty noComma] at occurs ⊢
  exact exists_entry_of_hiding_infix spelled occurs

theorem ends_of_padded (beforeBlank : Text.AllBlank before) (afterBlank : Text.AllBlank after)
    (ends : (before ++ text ++ after).getLast? = some '#') : text.getLast? = some '#' := by
  simp only [List.getLast?_append, Option.or_eq_some_iff] at ends
  obtain inAfter | ⟨-, inText | ⟨-, inBefore⟩⟩ := ends
  · exact absurd (List.mem_of_getLast? inAfter) (afterBlank.not_mem (by decide))
  · exact inText
  · exact absurd (List.mem_of_getLast? inBefore) (beforeBlank.not_mem (by decide))

theorem ends_of_spelled (spelled : Spelled tokens entries)
    (ends : (Text.join [','] tokens).getLast? = some '#') :
    (Text.join [','] (entries.map Entry.text)).getLast? = some '#' := by
  have other : '#' ≠ ',' := by decide
  induction spelled with
  | nil => cases ends
  | entry beforeBlank afterBlank spelled inductionHypothesis =>
    rw [List.map_cons, Text.getLast?_join_cons_iff other]
    obtain ⟨rfl, isLast⟩ | later := (Text.getLast?_join_cons_iff other).mp ends
    · cases spelled
      exact .inl ⟨rfl, ends_of_padded beforeBlank afterBlank isLast⟩
    · exact .inr (inductionHypothesis later)
  | blank tokenBlank _ inductionHypothesis =>
    obtain ⟨-, isLast⟩ | later := (Text.getLast?_join_cons_iff other).mp ends
    · exact absurd (List.mem_of_getLast? isLast) (tokenBlank.not_mem (by decide))
    · exact inductionHypothesis later

theorem call_infix_of_padded (beforeBlank : Text.AllBlank before)
    (afterBlank : Text.AllBlank after)
    (occurs : callMarker <:+: hidingMarker ++ (before ++ selector ++ after)) :
    callMarker <:+: hidingMarker ++ selector := by
  have bracketNotBlank : '(' ∉ after := afterBlank.not_mem (by decide)
  have opening : callMarker = "##+js".toList ++ ['('] := rfl
  rw [← List.append_assoc, opening, Text.concat_infix_append_iff bracketNotBlank,
    ← opening] at occurs
  cases before with
  | nil => exact occurs
  | cons blank others =>
    -- The marker has no blank, so it is on one side of the first one.
    obtain ⟨isBlank, othersBlank⟩ := List.forall_mem_cons.mp beforeBlank
    have notInMarker : blank ∉ callMarker := by
      have noBlanks : callMarker.all (fun character => !Text.isBlank character) = true := by decide
      exact fun member => absurd isBlank (by simpa using List.all_eq_true.mp noBlanks blank member)
    rw [List.cons_append, Text.infix_append_cons_iff (by decide) notInMarker] at occurs
    obtain inMarker | inSelector := occurs
    · exact absurd inMarker (by decide)
    · have behind : callMarker <:+: selector :=
        (Text.cons_infix_append_iff (Text.AllBlank.not_mem othersBlank (by decide))).mp inSelector
      exact behind.trans (List.suffix_append hidingMarker selector).isInfix

/-! ### Reading a line that was written -/

/-- Whether entries and a selector can be written as a line: each of them can be written, and the
line holds no marker before the one that is meant. -/
structure IsWritable (entries : List Entry) (selector : List Char) : Prop where
  each : ∀ entry ∈ entries, entry.IsWritable ','
  nonempty : selector ≠ []
  trimmed : Text.IsTrimmed selector
  noMarker : ¬ hidingMarker <:+: Text.join [','] (entries.map Entry.text)
  noHash : (Text.join [','] (entries.map Entry.text)).getLast? ≠ some '#'
  noCall : ¬ callMarker <:+: hidingLine (entries.map Entry.text) selector

instance (entries : List Entry) (selector : List Char) : Decidable (IsWritable entries selector) :=
  decidable_of_iff
    ((∀ entry ∈ entries, entry.IsWritable ',') ∧ selector ≠ [] ∧ Text.IsTrimmed selector ∧
      ¬ hidingMarker <:+: Text.join [','] (entries.map Entry.text) ∧
      (Text.join [','] (entries.map Entry.text)).getLast? ≠ some '#' ∧
      ¬ callMarker <:+: hidingLine (entries.map Entry.text) selector)
    ⟨fun ⟨each, nonempty, trimmed, noMarker, noHash, noCall⟩ =>
        ⟨each, nonempty, trimmed, noMarker, noHash, noCall⟩,
      fun ⟨each, nonempty, trimmed, noMarker, noHash, noCall⟩ =>
        ⟨each, nonempty, trimmed, noMarker, noHash, noCall⟩⟩

/-- However the line is laid out, it stands for the rule that is meant. -/
theorem ofChars?_hidingLine (writable : IsWritable entries selector)
    (spelled : Spelled tokens entries) (beforeBlank : Text.AllBlank before)
    (afterBlank : Text.AllBlank after) :
    ofChars? (hidingLine tokens (before ++ selector ++ after)) =
      some {
        action := .hide (.ofList selector)
        trigger :=
          { urlFilter := ".*"
            ifDomain := entries.filterMap Entry.included?
            unlessDomain := entries.filterMap Entry.excluded? } } := by
  have isFirst : Text.IsFirst hidingMarker (hidingLine tokens (before ++ selector ++ after))
      (Text.join [','] tokens) (before ++ selector ++ after) :=
    isFirst_hidingMarker (fun occurs => writable.noMarker (hiding_infix_of_spelled spelled occurs))
      (fun ends => writable.noHash (ends_of_spelled spelled ends)) _
  have noCall : ¬ callMarker <:+: hidingLine tokens (before ++ selector ++ after) := by
    intro isCall
    have behind :=
      call_infix_of_padded beforeBlank afterBlank (call_infix_of_isFirst isFirst isCall)
    refine writable.noCall (behind.trans ?_)
    rw [hidingLine, List.append_assoc]
    exact (List.suffix_append _ _).isInfix
  have trimmed : Text.trim (before ++ selector ++ after) = selector := by
    rw [Text.trim_append_right afterBlank, Text.trim_append_left beforeBlank,
      Text.trim_eq_self writable.trimmed]
  have notBlank : ¬ Text.AllBlank (before ++ selector ++ after) := by
    rw [← Text.trim_eq_nil_iff, trimmed]
    exact writable.nonempty
  rw [ofChars?_of_hidden noCall isFirst, hiding?_eq, if_neg notBlank, trimmed, hidingOn,
    spelled.parse_join writable.each (by decide) (by decide)]
  rfl

/-- A line that hides elements is read back as it was written, and as well if there are blanks
around its entries and its selector, and blank entries. -/
theorem hiddenElements_roundTrip {selector : String}
    (writable : IsWritable entries selector.toList) :
    ofLine? (.ofList (hidingLine (entries.map Entry.text) selector.toList)) = some
        { action := .hide selector
          trigger :=
            { urlFilter := ".*"
              ifDomain := entries.filterMap Entry.included?
              unlessDomain := entries.filterMap Entry.excluded? } } ∧
      ∀ tokens before after, Spelled tokens entries → Text.AllBlank before →
        Text.AllBlank after →
        ofLine? (.ofList (hidingLine tokens (before ++ selector.toList ++ after))) = some
          { action := .hide selector
            trigger :=
              { urlFilter := ".*"
                ifDomain := entries.filterMap Entry.included?
                unlessDomain := entries.filterMap Entry.excluded? } } := by
  have read := fun tokens before after (spelled : Spelled tokens entries)
    (beforeBlank : Text.AllBlank before) (afterBlank : Text.AllBlank after) =>
      ofChars?_hidingLine writable spelled beforeBlank afterBlank
  simp only [ofLine?, String.toList_ofList, String.ofList_toList] at read ⊢
  refine ⟨?_, read⟩
  have noBlanks : Text.AllBlank [] := List.forall_mem_nil _
  simpa using read _ [] [] (DomainList.spelled_map_text entries) noBlanks noBlanks

/-- The selector starts with a `#` of its own, so there are three in a row, and holds the marker. -/
theorem hiddenElements_roundTrip_hash :
    IsWritable [.included "a.com".toList, .excluded "b.a.com".toList] "#ad[title=x##y]".toList ∧
      ofLine? "a.com,~b.a.com###ad[title=x##y]" = some
        { action := .hide "#ad[title=x##y]"
          trigger := { urlFilter := ".*", ifDomain := ["a.com"], unlessDomain := ["b.a.com"] } } ∧
      ofLine? " a.com, , ~b.a.com## #ad[title=x##y] " =
        ofLine? "a.com,~b.a.com###ad[title=x##y]" := by
  have writable : IsWritable [.included "a.com".toList, .excluded "b.a.com".toList]
      "#ad[title=x##y]".toList := by
    decide +kernel
  have blank : Text.AllBlank " ".toList := by decide
  have nothing : Text.AllBlank [] := List.forall_mem_nil _
  have spelled : Spelled [" ".toList ++ Entry.text (.included "a.com".toList) ++ [], " ".toList,
      " ".toList ++ Entry.text (.excluded "b.a.com".toList) ++ []]
      [.included "a.com".toList, .excluded "b.a.com".toList] :=
    .entry blank nothing (.blank blank (.entry blank nothing .nil))
  obtain ⟨plain, spaced⟩ := hiddenElements_roundTrip writable
  exact ⟨writable, plain, (spaced _ " ".toList " ".toList spelled blank blank).trans plain.symm⟩

end FilterLists.Rule
