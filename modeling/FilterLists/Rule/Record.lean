/-
This file writes rules as the records that the content blocking engine reads, and reads such
records back. In writing, the lists of a trigger are left out when they are empty, and the first
party mark always is. In reading, fields that the engine does not know are passed over, a list in
place of a record gives the fields by position, and a field that is known must be of its type.

The kind of an action says what its other fields mean, and it may stand after them. So the fields
of an action are held until the kind is known, and even those that nobody will read must be such
that they can be held: strings that say something, numbers within range, and no deeper nesting
than a reader's stack allows.
-/

import FilterLists.Json.Definite
import FilterLists.Json.Printer
import FilterLists.Json.Reader
import FilterLists.Rule.Basic

namespace FilterLists

open Json

/-! ### Writing -/

namespace Action

def toMembers : Action → List (Content × Value)
  | block => []
  | ignorePrevious => []
  | hide selector => [member "selector" (.text selector)]
  | scriptlet name arguments =>
    [member "scriptlet" (.text name), member "arguments" (.texts arguments)]

def toJson (action : Action) : Value :=
  .object (member "type" (.text action.kindName) :: action.toMembers)

end Action

namespace Trigger

/-- A member for a list of strings, unless the list is empty. -/
def listMember (name : String) (contents : List String) : List (Content × Value) :=
  if contents.isEmpty then [] else [member name (.texts contents)]

def toJson (trigger : Trigger) : Value :=
  .object (member "url-filter" (.text trigger.urlFilter)
    :: listMember "if-domain" trigger.ifDomain
    ++ listMember "unless-domain" trigger.unlessDomain
    ++ listMember "load-type" (trigger.loadType.toList.map LoadType.name)
    ++ listMember "resource-type" (trigger.resourceTypes.map ResourceType.name))

end Trigger

namespace Rule

def toJson (rule : Rule) : Value :=
  .object [member "action" rule.action.toJson, member "trigger" rule.trigger.toJson]

/-- Rules as the text of a container. -/
def encode (rules : List Rule) : String :=
  (Value.array (rules.map toJson)).print

end Rule

/-! ### Reading -/

namespace Action

/-- How deep the fields of an action may be nested. The action itself stands in a record, and the
record in a list; together they stay below 128 levels. -/
def maximumDepth : Nat := 125

/-- Whether fields are none: an object is passed over with all its members, a list must be
empty. -/
def areNone : Value → Bool
  | .array items => items.isEmpty
  | _ => true

/-- The action of a kind with the given fields, which are the members of an object or a list by
position. -/
def ofFields? (kind : String) (fields : Value) : Option Action :=
  match kind with
  | "block" => if areNone fields then some block else none
  | "ignore-previous-rules" => if areNone fields then some ignorePrevious else none
  | "css-display-none" => do
    let [some selector] ← fields.fields? ["selector"] | none
    some (hide (← selector.asText?))
  | "scriptlet" => do
    let [some name, arguments] ← fields.fields? ["scriptlet", "arguments"] | none
    some (scriptlet (← name.asText?) (← arguments.elim (some []) Value.asTexts?))
  | _ => none

/-- The kind of an action and its other fields. -/
def split? : Value → Option (Value × Value)
  | .object members => do
    let some kind ← Value.unique? "type" members | none
    some (kind, .object (members.filter fun member => member.1 != some "type"))
  | .array (kind :: items) => some (kind, .array items)
  | _ => none

def ofJson? (value : Value) : Option Action := do
  if value.isDefinite ∧ value.depth ≤ maximumDepth then
    let (kind, fields) ← split? value
    ofFields? (← kind.asText?) fields
  else none

end Action

namespace Trigger

/-- The strings of a field that may be missing. -/
def textsOf? (field : Option Value) : Option (List String) :=
  field.elim (some []) Value.asTexts?

/-- The choices among names of a field that may be missing. -/
def choicesOf? (field : Option Value) : Option (List String) :=
  field.elim (some []) Value.asChoices?

/-- All items of `load-type` must be known, and the first one counts. -/
def ofJson? (value : Value) : Option Trigger := do
  let [some urlFilter, ifDomain, unlessDomain, loadType, resourceType] ←
    value.fields? ["url-filter", "if-domain", "unless-domain", "load-type", "resource-type"]
    | none
  some {
    urlFilter := ← urlFilter.asText?
    ifDomain := ← textsOf? ifDomain
    unlessDomain := ← textsOf? unlessDomain
    loadType := (← (← choicesOf? loadType).mapM LoadType.ofName?).head?
    resourceTypes := ← (← choicesOf? resourceType).mapM ResourceType.ofName? }

end Trigger

namespace Rule

def ofJson? (value : Value) : Option Rule := do
  let [some action, some trigger] ← value.fields? ["action", "trigger"] | none
  some { action := ← Action.ofJson? action, trigger := ← Trigger.ofJson? trigger }

/-- The rules of the text of a container, or nothing if the text is no list of records. -/
def decode? (text : String) : Option (List Rule) := do
  (← (← Value.parse? text).asItems?).mapM ofJson?

end Rule

end FilterLists
