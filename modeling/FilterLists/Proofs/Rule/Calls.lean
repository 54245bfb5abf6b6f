/-
This file shows that calls of scriptlets can be written as lines and are read back as they were
meant. The marker of a call is found at the intended place though what stands before it may end
like the marker, for the last character of the marker occurs nowhere else in it; and a name or an
argument may hold the marker, for it comes later. The call ends at its first closing bracket and is
split at every comma, so only texts without either can be written; and blanks at their ends are
lost. All names and arguments that are read are of this kind.
-/

import FilterLists.Proofs.Rule.Line

namespace FilterLists.Rule

variable {line domains name part rest : String} {arguments : List String} {rule : Rule}

/-! ### Lines with a call -/

/-- Whether a text can be written as the name or as an argument of a call. -/
structure IsCallPart (text : List Char) : Prop where
  trimmed : Text.IsTrimmed text
  noComma : ',' ∉ text
  noBracket : ')' ∉ text

instance (text : List Char) : Decidable (IsCallPart text) :=
  decidable_of_iff (Text.IsTrimmed text ∧ ',' ∉ text ∧ ')' ∉ text)
    ⟨fun ⟨trimmed, noComma, noBracket⟩ => ⟨trimmed, noComma, noBracket⟩,
      fun ⟨trimmed, noComma, noBracket⟩ => ⟨trimmed, noComma, noBracket⟩⟩

/-- The line of a call. Any texts may stand before and behind it, but the marker not before it. -/
def callLine (domains name : String) (arguments : List String) (rest : String) : String :=
  domains ++ "##+js(" ++ ", ".intercalate (name :: arguments) ++ ")" ++ rest

/-- The text between the brackets of a call. -/
def callText (name : String) (arguments : List String) : List Char :=
  Text.join [',', ' '] ((name :: arguments).map String.toList)

theorem toList_callLine (domains name : String) (arguments : List String) (rest : String) :
    (callLine domains name arguments rest).toList =
      domains.toList ++ callMarker ++ (callText name arguments ++ ')' :: rest.toList) := by
  have closing : ")".toList = [')'] := rfl
  have separator : ", ".toList = [',', ' '] := rfl
  rw [callLine, String.toList_append, String.toList_append, String.toList_append,
    String.toList_append, String.toList_intercalate, closing, separator, callText,
    Text.join_eq_intercalate, List.append_assoc, List.append_assoc, List.singleton_append]
  rfl

/-! ### Reading a call that was written -/

/-- The last character of the marker is only there, so the marker starts where it was written. -/
theorem isFirst_callMarker (noMarker : ¬ callMarker <:+: domains.toList) (call : List Char) :
    Text.IsFirst callMarker (domains.toList ++ callMarker ++ call) domains.toList call := by
  refine Text.isFirst_of_not_infix call fun occurs => noMarker ?_
  have opening : callMarker = "##+js".toList ++ ['('] := rfl
  rw [opening, List.dropLast_concat, Text.concat_infix_append_iff (by decide), ← opening] at occurs
  exact occurs

theorem bracket_not_mem_callText (parts : ∀ part ∈ name :: arguments, IsCallPart part.toList) :
    ')' ∉ callText name arguments := by
  intro member
  obtain inSeparator | ⟨_, isPart, inPart⟩ := Text.mem_of_mem_join member
  · exact absurd inSeparator (by decide)
  · obtain ⟨part, member, rfl⟩ := List.mem_map.mp isPart
    exact (parts part member).noBracket inPart

/-- The arguments are found with the blank in front of them. -/
theorem splitOn_callText (parts : ∀ part ∈ name :: arguments, IsCallPart part.toList) :
    Text.splitOn ',' (callText name arguments) =
      name.toList :: arguments.map fun argument => ' ' :: argument.toList := by
  rw [callText, List.map_cons, Text.join_cons, Text.splitOn_join (List.cons_ne_nil _ _)]
  · rw [List.map_map]
    rfl
  · simp only [List.forall_mem_cons, List.forall_mem_map] at parts ⊢
    refine ⟨parts.1.noComma, fun argument member => ?_⟩
    simpa using (parts.2 argument member).noComma

theorem trim_argument (isPart : IsCallPart part.toList) :
    Text.trim (' ' :: part.toList) = part.toList := by
  rw [Text.trim_cons_of_isBlank (by decide), Text.trim_eq_self isPart.trimmed]

theorem ofLine?_callLine (noMarker : ¬ callMarker <:+: domains.toList) (named : name ≠ "")
    (parts : ∀ part ∈ name :: arguments, IsCallPart part.toList) :
    ofLine? (callLine domains name arguments rest) =
      some { action := .scriptlet name arguments, trigger := scriptletTrigger name } := by
  have closes := Text.isFirst_of_not_mem (bracket_not_mem_callText parts) rest.toList
  have nameTrimmed : Text.trim name.toList = name.toList :=
    Text.trim_eq_self (parts name List.mem_cons_self).trimmed
  have argumentsTrimmed :
      (arguments.map fun argument => ' ' :: argument.toList).map Text.trim =
        arguments.map String.toList := by
    rw [List.map_map]
    exact List.map_congr_left fun argument member =>
      trim_argument (parts argument (List.mem_cons_of_mem _ member))
  have notBlank : ¬ Text.AllBlank name.toList := by
    rw [← Text.trim_eq_nil_iff, nameTrimmed]
    simpa using named
  rw [ofLine?, toList_callLine, ofChars?_of_call (isFirst_callMarker noMarker _),
    ofCall?_of_isFirst closes (splitOn_callText parts), if_neg notBlank, nameTrimmed,
    argumentsTrimmed]
  simp [calling]

/-! ### What is read from a call -/

theorem isCallPart_trim {call inside after piece : List Char}
    (closes : Text.IsFirst [')'] call inside after) (isPiece : piece ∈ Text.splitOn ',' inside) :
    IsCallPart (Text.trim piece) where
  trimmed := Text.isTrimmed_trim piece
  noComma member := Text.not_mem_of_mem_splitOn isPiece (Text.mem_of_mem_trim member)
  noBracket member :=
    closes.not_mem (Text.mem_of_mem_splitOn isPiece (Text.mem_of_mem_trim member))

/-- What is read from a call can be written, and says all that the rule depends on. -/
theorem exists_call_of_ofLine? (accepted : ofLine? line = some rule)
    (calls : rule.action = .scriptlet name arguments) :
    name ≠ "" ∧ (∀ part ∈ name :: arguments, IsCallPart part.toList) ∧
      rule.trigger = scriptletTrigger name := by
  obtain ⟨shape, hasShape⟩ := exists_hasShape line.toList
  have allows := allows_of_ofChars? hasShape accepted
  rw [calls] at allows
  cases hasShape with
  | call isFirst =>
    rw [ofLine?, ofChars?_of_call isFirst] at accepted
    obtain ⟨inside, after, first, others, closes, pieces, notBlank, rfl⟩ :=
      ofCall?_eq_some_iff.mp accepted
    cases calls
    refine ⟨?_, ?_, rfl⟩
    · rwa [← Text.trim_eq_nil_iff, ← String.ofList_eq_empty_iff] at notBlank
    · have piecesTrimmed : ∀ piece ∈ first :: others, IsCallPart (Text.trim piece) :=
        fun piece isPiece => isCallPart_trim closes (pieces ▸ isPiece)
      simpa using piecesTrimmed
  | hidden => cases allows
  | exception => cases allows
  | blocked => cases allows

theorem scriptletTrigger_eq (name : String) :
    scriptletTrigger name =
      { urlFilter := ".*"
        ifDomain := if name ∈ playerScriptlets then playerDomains else scriptletDomains
        resourceTypes := if name ∈ playerScriptlets then [.document, .script] else [] } := by
  unfold scriptletTrigger
  by_cases isPlayer : name ∈ playerScriptlets <;> simp [isPlayer, everyAddress]

/-- Every call that can be written is read back as it was meant, whatever stands around it; and
every call that is read can be written, and is then read as the same rule. -/
theorem calls_roundTrip :
    (∀ domains name arguments rest, ¬ callMarker <:+: domains.toList → name ≠ "" →
      (∀ part ∈ name :: arguments, IsCallPart part.toList) →
      ofLine? (callLine domains name arguments rest) = some
        { action := .scriptlet name arguments
          trigger :=
            { urlFilter := ".*"
              ifDomain := if name ∈ playerScriptlets then playerDomains else scriptletDomains
              resourceTypes := if name ∈ playerScriptlets then [.document, .script] else [] } }) ∧
    ∀ line rule name arguments, ofLine? line = some rule →
      rule.action = .scriptlet name arguments →
      name ≠ "" ∧ (∀ part ∈ name :: arguments, IsCallPart part.toList) ∧
        ∀ domains rest, ¬ callMarker <:+: domains.toList →
          ofLine? (callLine domains name arguments rest) = some rule := by
  constructor
  · intro domains name arguments rest noMarker named parts
    rw [ofLine?_callLine noMarker named parts, scriptletTrigger_eq]
  · rintro line ⟨action, trigger⟩ name arguments accepted rfl
    obtain ⟨named, parts, rfl⟩ := exists_call_of_ofLine? accepted rfl
    exact ⟨named, parts, fun domains rest noMarker => ofLine?_callLine noMarker named parts⟩

/-- The marker starts one character later than a `#` that stands before it, the second part is
empty, and the third one holds the marker. -/
example : (∀ part ∈ ["set-attr", "", "##+js(x"], IsCallPart part.toList) ∧
    (ofLine? (callLine "a.com#" "set-attr" ["", "##+js(x"] ") b")).map Rule.action =
      some (.scriptlet "set-attr" ["", "##+js(x"]) := by
  decide +kernel

end FilterLists.Rule
