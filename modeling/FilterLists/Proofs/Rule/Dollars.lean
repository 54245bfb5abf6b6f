/-
This file shows that a pattern can hold any `$` if a backslash is put before each, and that reading
the line takes these backslashes away and no others. Two functions have to agree on this: the one
that looks for the options passes over a `$` behind a backslash, and the one that takes the
backslashes away does not know where the other has looked. They could differ where the pattern has
backslashes of its own. But each `$` of the written pattern comes with its backslash, whatever is
before that; so the options start at the `$` that is not part of the pattern, unless the pattern
ends in a backslash and would take it for its own.

The escaping brings no marker into the line, since no marker has a backslash in it.
-/

import FilterLists.Proofs.Rule.Line

namespace FilterLists

/-- All that options say about when a rule applies. -/
theorem LineOptions.trigger_eq (options : LineOptions) (urlFilter : String) :
    options.trigger urlFilter =
      { urlFilter
        ifDomain := (options.domains.getD {}).included
        unlessDomain := (options.domains.getD {}).excluded
        loadType := options.party.loadType
        resourceTypes := options.resourceTypes
        firstParty := options.party.first } := by
  obtain ⟨_ | _, _, _⟩ := options <;> rfl

namespace Rule

variable {action : Action} {character : Char} {pattern rest marker : List Char}

/-- A pattern with a backslash before every `$`. -/
def escapeDollars (pattern : List Char) : List Char :=
  pattern.flatMap fun character => if character = '$' then ['\\', '$'] else [character]

@[simp]
theorem escapeDollars_nil : escapeDollars [] = [] :=
  rfl

@[simp]
theorem escapeDollars_dollar : escapeDollars ('$' :: rest) = '\\' :: '$' :: escapeDollars rest :=
  rfl

theorem escapeDollars_cons (other : character ≠ '$') :
    escapeDollars (character :: rest) = character :: escapeDollars rest := by
  rw [escapeDollars, List.flatMap_cons, if_neg other]
  rfl

/-! ### Taking the backslashes away -/

theorem head?_escapeDollars_ne : (escapeDollars pattern).head? ≠ some '$' := by
  cases pattern with
  | nil => simp
  | cons character rest =>
    by_cases dollar : character = '$'
    · simp [dollar]
    · simpa [escapeDollars_cons dollar] using dollar

theorem unescapeDollars_cons (noDollar : rest.head? ≠ some '$') :
    unescapeDollars (character :: rest) = character :: unescapeDollars rest := by
  rw [unescapeDollars.eq_def]
  split <;> simp_all

theorem unescapeDollars_escapeDollars (pattern : List Char) :
    unescapeDollars (escapeDollars pattern) = pattern := by
  induction pattern with
  | nil => rfl
  | cons character rest inductionHypothesis =>
    by_cases dollar : character = '$'
    · rw [dollar, escapeDollars_dollar, unescapeDollars, inductionHypothesis]
    · rw [escapeDollars_cons dollar, unescapeDollars_cons head?_escapeDollars_ne,
        inductionHypothesis]

theorem escapeDollars_eq_nil_iff : escapeDollars pattern = [] ↔ pattern = [] := by
  rw [← unescapeDollars_eq_nil_iff, unescapeDollars_escapeDollars]

/-! ### Looking for the options -/

/-- No `$` of an escaped pattern is taken for the start of the options, and what is behind the
pattern is read as if it stood behind the last character that is meant. -/
theorem splitOptionsAfter_escapeDollars (previous : Option Char) (pattern rest : List Char) :
    splitOptionsAfter previous (escapeDollars pattern ++ rest) =
      (escapeDollars pattern ++ (splitOptionsAfter (pattern.getLast?.or previous) rest).1,
        (splitOptionsAfter (pattern.getLast?.or previous) rest).2) := by
  induction pattern generalizing previous with
  | nil => rfl
  | cons character others inductionHypothesis =>
    have last : (character :: others).getLast?.or previous =
        others.getLast?.or (some character) := by
      rw [List.getLast?_cons]
      cases others.getLast? <;> rfl
    rw [last]
    by_cases dollar : character = '$'
    · subst dollar
      simp [splitOptionsAfter, inductionHypothesis]
    · simp [splitOptionsAfter, escapeDollars_cons dollar, dollar, inductionHypothesis]

theorem splitOptions_escapeDollars (pattern : List Char) :
    splitOptions (escapeDollars pattern) = (escapeDollars pattern, none) := by
  have whole := splitOptionsAfter_escapeDollars none pattern []
  rwa [List.append_nil, splitOptionsAfter, List.append_nil] at whole

theorem splitOptions_escapeDollars_append (noBackslash : pattern.getLast? ≠ some '\\')
    (options : List Char) :
    splitOptions (escapeDollars pattern ++ '$' :: options) =
      (escapeDollars pattern, some options) := by
  rw [splitOptions, splitOptionsAfter_escapeDollars, Option.or_none]
  simp [splitOptionsAfter, noBackslash]

/-! ### Markers -/

theorem prefix_of_prefix_escapeDollars (noBackslash : '\\' ∉ marker)
    (starts : marker <+: escapeDollars pattern) : marker <+: pattern := by
  induction pattern generalizing marker with
  | nil => exact starts
  | cons character rest inductionHypothesis =>
    cases marker with
    | nil => exact List.nil_prefix
    | cons first others =>
      obtain ⟨notFirst, notInOthers⟩ := List.ne_and_not_mem_of_not_mem_cons noBackslash
      by_cases dollar : character = '$'
      · rw [dollar, escapeDollars_dollar, List.cons_prefix_cons] at starts
        exact absurd starts.1.symm notFirst
      · rw [escapeDollars_cons dollar, List.cons_prefix_cons] at starts
        exact List.cons_prefix_cons.mpr ⟨starts.1, inductionHypothesis notInOthers starts.2⟩

theorem infix_of_infix_escapeDollars (noBackslash : '\\' ∉ marker)
    (occurs : marker <:+: escapeDollars pattern) : marker <:+: pattern := by
  induction pattern with
  | nil => exact occurs
  | cons character rest inductionHypothesis =>
    have atStart (starts : marker <+: escapeDollars (character :: rest)) :
        marker <:+: character :: rest :=
      (prefix_of_prefix_escapeDollars noBackslash starts).isInfix
    have later (occurs : marker <:+: escapeDollars rest) : marker <:+: character :: rest :=
      (inductionHypothesis occurs).trans (List.suffix_cons character rest).isInfix
    by_cases dollar : character = '$'
    · subst dollar
      rw [escapeDollars_dollar, List.infix_cons_iff, List.infix_cons_iff] at occurs
      obtain starts | atDollar | occurs := occurs
      · exact atStart starts
      · -- Then the marker starts with the `$` itself, and goes on as in the pattern.
        cases marker with
        | nil => exact List.nil_infix
        | cons first others =>
          obtain ⟨same, othersStart⟩ := List.cons_prefix_cons.mp atDollar
          have notInOthers := (List.ne_and_not_mem_of_not_mem_cons noBackslash).2
          exact (List.cons_prefix_cons.mpr
            ⟨same, prefix_of_prefix_escapeDollars notInOthers othersStart⟩).isInfix
      · exact later occurs
    · rw [escapeDollars_cons dollar, List.infix_cons_iff, ← escapeDollars_cons dollar] at occurs
      exact occurs.elim atStart later

/-! ### Reading a line that was written -/

theorem network?_escapeDollars {pattern : String} {line : List Char}
    {options : Option (List Char)} (action : Action) (nonempty : pattern ≠ "")
    (parts : splitOptions line = (escapeDollars pattern.toList, options)) :
    network? action line = some {
      action
      trigger := (options.elim {} LineOptions.parse).trigger (Pattern.translate pattern) } := by
  have someCharacters : escapeDollars pattern.toList ≠ [] := by
    simpa [escapeDollars_eq_nil_iff] using nonempty
  rw [network?_of_splitOptions action parts, if_neg someCharacters, unescapeDollars_escapeDollars,
    String.ofList_toList]

/-- Whether a line has no marker, so that it is a line of pattern and options. -/
structure IsUnmarked (line : List Char) : Prop where
  noHiding : ¬ hidingMarker <:+: line
  noException : ¬ exceptionMarker <+: line

theorem IsUnmarked.escapeDollars (unmarked : IsUnmarked pattern) :
    IsUnmarked (escapeDollars pattern) where
  noHiding occurs := unmarked.noHiding (infix_of_infix_escapeDollars (by decide) occurs)
  noException starts := unmarked.noException (prefix_of_prefix_escapeDollars (by decide) starts)

/-- Options cannot bring in the mark of exceptions, which would be in front of them. -/
theorem IsUnmarked.append_options (unmarked : IsUnmarked pattern)
    {options : List Char} (noHiding : ¬ hidingMarker <:+: options) :
    IsUnmarked (pattern ++ '$' :: options) where
  noHiding occurs := by
    rw [Text.infix_append_cons_iff (by decide) (by decide)] at occurs
    exact occurs.elim unmarked.noHiding noHiding
  noException starts :=
    unmarked.noException ((Text.prefix_append_cons_iff (by decide)).mp starts)

theorem IsUnmarked.ofChars?_eq {line : List Char} (unmarked : IsUnmarked line) :
    ofChars? line = network? .block line :=
  ofChars?_of_blocked unmarked.noHiding unmarked.noException

/-- The mark of exceptions has no `#`, so it is no part of another marker. -/
theorem IsUnmarked.ofChars?_append {line : List Char} (unmarked : IsUnmarked line) :
    ofChars? (exceptionMarker ++ line) = network? .ignorePrevious line :=
  ofChars?_of_exception
    (fun occurs => unmarked.noHiding ((Text.cons_infix_append_iff (by decide)).mp occurs)) rfl

/-- A pattern is read back from how it is written, and the options are read as they are. Behind the
mark of exceptions, the line stands for the exception from what it would block without the mark. -/
theorem ofLine?_escapeDollars {pattern : String} (nonempty : pattern ≠ "")
    (unmarked : IsUnmarked pattern.toList) :
    (pattern.toList.getLast? ≠ some '\\' →
      ∀ options : String, ¬ hidingMarker <:+: options.toList →
        let line := String.ofList (escapeDollars pattern.toList) ++ "$" ++ options
        let read := LineOptions.parse options.toList
        ofLine? line = some
            { action := .block
              trigger :=
                { urlFilter := Pattern.translate pattern
                  ifDomain := (read.domains.getD {}).included
                  unlessDomain := (read.domains.getD {}).excluded
                  loadType := read.party.loadType
                  resourceTypes := read.resourceTypes
                  firstParty := read.party.first } } ∧
          ofLine? ("@@" ++ line) =
            (ofLine? line).map fun rule => { rule with action := .ignorePrevious }) ∧
      ofLine? (.ofList (escapeDollars pattern.toList)) =
        some { action := .block, trigger := { urlFilter := Pattern.translate pattern } } := by
  constructor
  · intro noBackslash options noHiding line read
    have characters : line.toList = escapeDollars pattern.toList ++ '$' :: options.toList := by
      simp [line]
    have unmarkedLine : IsUnmarked line.toList := by
      rw [characters]
      exact unmarked.escapeDollars.append_options noHiding
    have parts : splitOptions line.toList =
        (escapeDollars pattern.toList, some options.toList) := by
      rw [characters]
      exact splitOptions_escapeDollars_append noBackslash options.toList
    have blocks : ofLine? line =
        some { action := .block, trigger := read.trigger (Pattern.translate pattern) } :=
      unmarkedLine.ofChars?_eq.trans (network?_escapeDollars .block nonempty parts)
    have excepts : ofLine? ("@@" ++ line) = some
        { action := .ignorePrevious, trigger := read.trigger (Pattern.translate pattern) } := by
      rw [ofLine?, String.toList_append]
      exact unmarkedLine.ofChars?_append.trans
        (network?_escapeDollars .ignorePrevious nonempty parts)
    rw [excepts, blocks, LineOptions.trigger_eq]
    exact ⟨rfl, rfl⟩
  · rw [ofLine?, String.toList_ofList, unmarked.escapeDollars.ofChars?_eq,
      network?_escapeDollars .block nonempty (splitOptions_escapeDollars pattern.toList)]
    rfl

/-- Backslashes of a pattern are kept, also before a `$` and at the end; and so are those of the
options, where a `$` is nothing special. -/
theorem ofLine?_escapeDollars_backslashes :
    IsUnmarked "a\\$b$c".toList ∧ "a\\$b$c".toList.getLast? ≠ some '\\' ∧
      ofLine? "a\\\\$b\\$c$script,$\\,domain=a\\|~$" = some
        { action := .block
          trigger :=
            { urlFilter := "a\\\\\\$b\\$c"
              ifDomain := ["a\\"]
              unlessDomain := ["$"]
              resourceTypes := [.script] } } ∧
      IsUnmarked "$\\".toList ∧
      ofLine? "\\$\\" = some { action := .block, trigger := { urlFilter := "\\$\\\\" } } := by
  have inside : IsUnmarked "a\\$b$c".toList := ⟨by decide +kernel, by decide +kernel⟩
  have atEnd : IsUnmarked "$\\".toList := ⟨by decide +kernel, by decide +kernel⟩
  have noBackslash : "a\\$b$c".toList.getLast? ≠ some '\\' := by decide
  have lineInside : String.ofList (escapeDollars "a\\$b$c".toList) ++ "$" ++
      "script,$\\,domain=a\\|~$" = "a\\\\$b\\$c$script,$\\,domain=a\\|~$" := by
    decide +kernel
  have lineAtEnd : String.ofList (escapeDollars "$\\".toList) = "\\$\\" := by decide +kernel
  have blocks := ((ofLine?_escapeDollars (by decide) inside).1 noBackslash
    "script,$\\,domain=a\\|~$" (by decide +kernel)).1
  have alone := (ofLine?_escapeDollars (by decide) atEnd).2
  refine ⟨inside, noBackslash, ?_, atEnd, ?_⟩
  · rw [← lineInside, blocks]
    decide +kernel
  · rw [← lineAtEnd, alone]
    decide +kernel

end Rule

end FilterLists
