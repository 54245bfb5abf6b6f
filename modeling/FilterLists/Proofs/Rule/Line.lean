/-
This file says which lines stand for a rule, and for a rule of which kind. The markers in a line
overlap -- the one of calls starts with the one of hidden elements -- so what decides is which of
them occurs at all, and where it occurs first. That gives each line exactly one shape, and a shape
is complete if the part of the line that its rule cannot do without is there.

For lines of pattern and options the part is the pattern. It goes through the splitting, the
unescaping and the translation, none of which makes nothing of something; so there is a rule unless
the options, or the end of the line, come first.
-/

import FilterLists.Proofs.Pattern.Grammar
import FilterLists.Proofs.Text.Marker
import FilterLists.Proofs.Text.Split
import FilterLists.Proofs.Text.Trim
import FilterLists.Rule.Line

namespace FilterLists.Rule

variable {line call domains selector inside rest : List Char} {rule : Rule} {action : Action}

/-! ### Calls -/

/-- The rule that calls a scriptlet. -/
def calling (name : List Char) (arguments : List (List Char)) : Rule where
  action := .scriptlet (.ofList name) (arguments.map .ofList)
  trigger := scriptletTrigger (.ofList name)

/-- A call that is closed stands for a rule unless its name is blank. -/
theorem ofCall?_of_isFirst {name : List Char} {arguments : List (List Char)}
    (closes : Text.IsFirst [')'] call inside rest)
    (pieces : Text.splitOn ',' inside = name :: arguments) :
    ofCall? call =
      if Text.AllBlank name then none
      else some (calling (Text.trim name) (arguments.map Text.trim)) := by
  have found : Text.cut? [')'] call = some (inside, rest) := Text.cut?_eq_some_iff.mpr closes
  simp only [ofCall?, found, Option.bind_eq_bind, Option.bind_some, pieces, List.map_cons]
  by_cases blank : Text.AllBlank name
  · rw [if_pos blank, Text.trim_eq_nil_iff.mpr blank]
  · obtain ⟨first, others, trimmed⟩ :=
      List.exists_cons_of_ne_nil fun nothing => blank (Text.trim_eq_nil_iff.mp nothing)
    rw [if_neg blank, trimmed]
    rfl

theorem ofCall?_eq_some_iff :
    ofCall? call = some rule ↔ ∃ inside rest name arguments,
      Text.IsFirst [')'] call inside rest ∧ Text.splitOn ',' inside = name :: arguments ∧
        ¬ Text.AllBlank name ∧ rule = calling (Text.trim name) (arguments.map Text.trim) := by
  constructor
  · intro accepted
    obtain ⟨⟨inside, rest⟩, found, -⟩ := Option.bind_eq_some_iff.mp accepted
    have closes := Text.cut?_eq_some_iff.mp found
    obtain ⟨arguments, pieces⟩ := Text.exists_splitOn_eq_cons ',' inside
    rw [ofCall?_of_isFirst closes pieces] at accepted
    split at accepted
    · cases accepted
    · rename_i notBlank
      cases accepted
      exact ⟨inside, rest, _, arguments, closes, pieces, notBlank, rfl⟩
  · rintro ⟨inside, rest, name, arguments, closes, pieces, notBlank, rfl⟩
    rw [ofCall?_of_isFirst closes pieces, if_neg notBlank]

/-! ### Hidden elements -/

/-- The rule that hides what a selector finds. -/
def hidingOn (domains selector : List Char) : Rule where
  action := .hide (.ofList selector)
  trigger := ({ urlFilter := everyAddress } : Trigger).onDomains (.parse ',' domains)

theorem hiding?_eq (domains selector : List Char) :
    hiding? domains selector =
      if Text.AllBlank selector then none else some (hidingOn domains (Text.trim selector)) := by
  unfold hiding?
  by_cases blank : Text.AllBlank selector
  · rw [if_pos blank, Text.trim_eq_nil_iff.mpr blank]
  · obtain ⟨first, others, trimmed⟩ :=
      List.exists_cons_of_ne_nil fun nothing => blank (Text.trim_eq_nil_iff.mp nothing)
    rw [if_neg blank, trimmed]
    rfl

/-! ### Patterns -/

theorem unescapeDollars_eq_nil_iff {pattern : List Char} :
    unescapeDollars pattern = [] ↔ pattern = [] := by
  fun_cases unescapeDollars pattern <;> simp

theorem print_pieces_eq_nil_iff {pattern : List Char} :
    Pattern.print (Pattern.pieces pattern) = [] ↔ pattern = [] := by
  constructor
  · exact fun nothing => by_contra fun nonempty =>
      (Pattern.isUrlFilter_print_pieces nonempty).nonempty nothing
  · rintro rfl
    rfl

/-- A line of pattern and options stands for a rule unless its pattern is empty. -/
theorem network?_of_splitOptions {pattern : List Char} {options : Option (List Char)}
    (action : Action) (parts : splitOptions line = (pattern, options)) :
    network? action line =
      if pattern = [] then none
      else some {
        action
        trigger := (options.elim {} LineOptions.parse).trigger
          (Pattern.translate (.ofList (unescapeDollars pattern))) } := by
  have translated : Pattern.translate (.ofList (unescapeDollars pattern)) =
      .ofList (Pattern.print (Pattern.pieces (unescapeDollars pattern))) := by
    rw [Pattern.translate, String.toList_ofList]
  rw [network?, parts, translated]
  dsimp only
  by_cases empty : pattern = []
  · rw [if_pos empty, empty]
    rfl
  · obtain ⟨first, others, printed⟩ := List.exists_cons_of_ne_nil
      fun nothing => empty (unescapeDollars_eq_nil_iff.mp (print_pieces_eq_nil_iff.mp nothing))
    rw [if_neg empty, printed]
    cases options <;> rfl

/-- Nothing stands before the options of a line if the line starts with them, or is empty. -/
theorem fst_splitOptions_eq_nil_iff :
    (splitOptions line).1 = [] ↔ line = [] ∨ line.head? = some '$' := by
  cases line with
  | nil => simp [splitOptions, splitOptionsAfter]
  | cons character rest =>
    by_cases dollar : character = '$' <;> simp [splitOptions, splitOptionsAfter, dollar]

theorem isSome_network?_iff :
    (network? action line).isSome = true ↔ line ≠ [] ∧ line.head? ≠ some '$' := by
  rw [network?_of_splitOptions action (Prod.mk.eta).symm, ← not_or, ← fst_splitOptions_eq_nil_iff]
  split <;> simp [*]

theorem action_of_network? (accepted : network? action line = some rule) :
    rule.action = action := by
  rw [network?_of_splitOptions action (Prod.mk.eta).symm] at accepted
  split at accepted
  · cases accepted
  · cases accepted
    rfl

/-! ### Shapes of lines -/

/-- The shapes of lines, each with the part that its rule cannot do without. -/
inductive Shape
  /-- A scriptlet is called, as it says behind the marker. -/
  | call (call : List Char)
  /-- Elements are hidden, as it says behind the marker. -/
  | hidden (selector : List Char)
  /-- An exception is made, as it says behind the marker. -/
  | exception (rest : List Char)
  /-- Loads are blocked. -/
  | blocked (line : List Char)

/-- Whether a line has a shape. The first marker of the line that occurs decides: that of calls
anywhere, else that of hidden elements anywhere, else that of exceptions at the start. -/
inductive HasShape (line : List Char) : Shape → Prop
  | call {domains call : List Char} :
    Text.IsFirst callMarker line domains call → HasShape line (.call call)
  | hidden {domains selector : List Char} :
    ¬ callMarker <:+: line → Text.IsFirst hidingMarker line domains selector →
      HasShape line (.hidden selector)
  | exception {rest : List Char} :
    ¬ callMarker <:+: line → ¬ hidingMarker <:+: line → line = exceptionMarker ++ rest →
      HasShape line (.exception rest)
  | blocked :
    ¬ callMarker <:+: line → ¬ hidingMarker <:+: line → ¬ exceptionMarker <+: line →
      HasShape line (.blocked line)

namespace Shape

/-- Whether the part is there that the rule of a shape cannot do without. -/
def IsComplete : Shape → Prop
  | .call call => ∃ inside rest, Text.IsFirst [')'] call inside rest ∧
      ¬ Text.AllBlank (inside.takeWhile (· != ','))
  | .hidden selector => ¬ Text.AllBlank selector
  | .exception rest => rest ≠ [] ∧ rest.head? ≠ some '$'
  | .blocked line => line ≠ [] ∧ line.head? ≠ some '$'

/-- Whether an action is one that lines of a shape stand for. -/
def Allows : Shape → Action → Prop
  | .call _, action => ∃ name arguments, action = .scriptlet name arguments
  | .hidden selector, action => action = .hide (.ofList (Text.trim selector))
  | .exception _, action => action = .ignorePrevious
  | .blocked _, action => action = .block

end Shape

theorem exists_hasShape (line : List Char) : ∃ shape, HasShape line shape := by
  cases isCall : Text.cut? callMarker line with
  | some parts => exact ⟨_, .call (Text.cut?_eq_some_iff.mp isCall)⟩
  | none =>
    have noCall := Text.cut?_eq_none_iff.mp isCall
    cases isHidden : Text.cut? hidingMarker line with
    | some parts => exact ⟨_, .hidden noCall (Text.cut?_eq_some_iff.mp isHidden)⟩
    | none =>
      have noMarker := Text.cut?_eq_none_iff.mp isHidden
      by_cases isException : exceptionMarker <+: line
      · obtain ⟨rest, parts⟩ := isException
        exact ⟨_, .exception noCall noMarker parts.symm⟩
      · exact ⟨_, .blocked noCall noMarker isException⟩

/-- No marker occurs first at two places, and none occurs and does not. -/
theorem HasShape.unique {shape other : Shape} (hasShape : HasShape line shape)
    (hasOther : HasShape line other) : shape = other := by
  cases hasShape with
  | call isFirst =>
    cases hasOther with
    | call otherFirst => rw [(isFirst.unique otherFirst).2]
    | hidden noCall _ => exact absurd isFirst.isInfix noCall
    | exception noCall _ _ => exact absurd isFirst.isInfix noCall
    | blocked noCall _ _ => exact absurd isFirst.isInfix noCall
  | hidden noCall isFirst =>
    cases hasOther with
    | call otherFirst => exact absurd otherFirst.isInfix noCall
    | hidden _ otherFirst => rw [(isFirst.unique otherFirst).2]
    | exception _ noMarker _ => exact absurd isFirst.isInfix noMarker
    | blocked _ noMarker _ => exact absurd isFirst.isInfix noMarker
  | exception noCall noMarker parts =>
    cases hasOther with
    | call otherFirst => exact absurd otherFirst.isInfix noCall
    | hidden _ otherFirst => exact absurd otherFirst.isInfix noMarker
    | exception _ _ otherParts => rw [List.append_cancel_left (parts.symm.trans otherParts)]
    | blocked _ _ noException => exact absurd ⟨_, parts.symm⟩ noException
  | blocked noCall noMarker noException =>
    cases hasOther with
    | call otherFirst => exact absurd otherFirst.isInfix noCall
    | hidden _ otherFirst => exact absurd otherFirst.isInfix noMarker
    | exception _ _ parts => exact absurd ⟨_, parts.symm⟩ noException
    | blocked _ _ _ => rfl

/-! ### The rule of a line -/

theorem ofChars?_of_call (isFirst : Text.IsFirst callMarker line domains call) :
    ofChars? line = ofCall? call := by
  rw [ofChars?, Text.cut?_eq_some_iff.mpr isFirst]

theorem ofChars?_of_hidden (noCall : ¬ callMarker <:+: line)
    (isFirst : Text.IsFirst hidingMarker line domains selector) :
    ofChars? line = hiding? domains selector := by
  rw [ofChars?, Text.cut?_eq_none_iff.mpr noCall, Text.cut?_eq_some_iff.mpr isFirst]

/-- Where elements are not hidden, no scriptlet is called. -/
theorem not_call_of_not_hiding (noMarker : ¬ hidingMarker <:+: line) : ¬ callMarker <:+: line :=
  fun isCall => noMarker (List.IsInfix.trans (by decide) isCall)

theorem ofChars?_of_exception (noMarker : ¬ hidingMarker <:+: line)
    (parts : line = exceptionMarker ++ rest) : ofChars? line = network? .ignorePrevious rest := by
  have starts : exceptionMarker.isPrefixOf? line = some rest :=
    List.isPrefixOf?_eq_some_iff_append_eq.mpr parts.symm
  rw [ofChars?, Text.cut?_eq_none_iff.mpr (not_call_of_not_hiding noMarker),
    Text.cut?_eq_none_iff.mpr noMarker, starts]

theorem ofChars?_of_blocked (noMarker : ¬ hidingMarker <:+: line)
    (noException : ¬ exceptionMarker <+: line) : ofChars? line = network? .block line := by
  have starts : exceptionMarker.isPrefixOf? line = none :=
    Text.isPrefixOf?_eq_none_iff.mpr noException
  rw [ofChars?, Text.cut?_eq_none_iff.mpr (not_call_of_not_hiding noMarker),
    Text.cut?_eq_none_iff.mpr noMarker, starts]

theorem isSome_ofCall?_iff :
    (ofCall? call).isSome = true ↔ (Shape.call call).IsComplete := by
  constructor
  · intro accepted
    obtain ⟨rule, read⟩ := Option.isSome_iff_exists.mp accepted
    obtain ⟨inside, rest, name, arguments, closes, pieces, notBlank, -⟩ :=
      ofCall?_eq_some_iff.mp read
    obtain ⟨others, firstPiece⟩ := Text.exists_splitOn_eq_cons ',' inside
    obtain ⟨rfl, -⟩ := List.cons.inj (pieces.symm.trans firstPiece)
    exact ⟨inside, rest, closes, notBlank⟩
  · rintro ⟨inside, rest, closes, notBlank⟩
    obtain ⟨arguments, pieces⟩ := Text.exists_splitOn_eq_cons ',' inside
    rw [ofCall?_of_isFirst closes pieces, if_neg notBlank]
    rfl

theorem isSome_ofChars?_iff {shape : Shape} (hasShape : HasShape line shape) :
    (ofChars? line).isSome = true ↔ shape.IsComplete := by
  cases hasShape with
  | call isFirst =>
    rw [ofChars?_of_call isFirst]
    exact isSome_ofCall?_iff
  | hidden noCall isFirst =>
    rw [ofChars?_of_hidden noCall isFirst, hiding?_eq]
    split <;> simp_all [Shape.IsComplete]
  | exception _ noMarker parts =>
    rw [ofChars?_of_exception noMarker parts]
    exact isSome_network?_iff
  | blocked _ noMarker noException =>
    rw [ofChars?_of_blocked noMarker noException]
    exact isSome_network?_iff

theorem allows_of_ofChars? {shape : Shape} (hasShape : HasShape line shape)
    (accepted : ofChars? line = some rule) : shape.Allows rule.action := by
  cases hasShape with
  | call isFirst =>
    rw [ofChars?_of_call isFirst] at accepted
    obtain ⟨_, _, _, _, -, -, -, rfl⟩ := ofCall?_eq_some_iff.mp accepted
    exact ⟨_, _, rfl⟩
  | hidden noCall isFirst =>
    rw [ofChars?_of_hidden noCall isFirst, hiding?_eq] at accepted
    split at accepted
    · cases accepted
    · cases accepted
      rfl
  | exception _ noMarker parts =>
    rw [ofChars?_of_exception noMarker parts] at accepted
    exact action_of_network? accepted
  | blocked _ noMarker noException =>
    rw [ofChars?_of_blocked noMarker noException] at accepted
    exact action_of_network? accepted

/-- Every line has one shape. It stands for a rule just if it is complete, and the action of the
rule is then one of the shape. -/
theorem ofLine?_follows_shape (line : String) :
    ∃ shape, (∀ other, HasShape line.toList other ↔ other = shape) ∧
      ((ofLine? line).isSome = true ↔ shape.IsComplete) ∧
      ∀ rule, ofLine? line = some rule → shape.Allows rule.action := by
  obtain ⟨shape, hasShape⟩ := exists_hasShape line.toList
  refine ⟨shape, fun other => ⟨fun hasOther => hasOther.unique hasShape, ?_⟩,
    isSome_ofChars?_iff hasShape, fun rule accepted => allows_of_ofChars? hasShape accepted⟩
  rintro rfl
  exact hasShape

/-- A call wins over the hidden elements that the line could be about as well. -/
example : (ofLine? "a.com##.ad###+js( log ,)").map Rule.action = some (.scriptlet "log" [""]) := by
  decide +kernel

end FilterLists.Rule
