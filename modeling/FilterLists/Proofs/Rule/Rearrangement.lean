/-
This file proves that a text of rules may be laid out in any way. The members of a record, of its
action and of its trigger may stand in any order, with members among them that nobody knows; an
empty list may be written or left out; and there may be blanks between tokens. The rules that are
read are the same.

The kind of an action may stand after its fields. The reader takes the kind out and leaves the other
members in their order, so what is left is again an object with its members in some order, and the
fields of each kind are looked up in it by name. That is the one place where what is foreign depends
on what has been read: a field of one kind of action is foreign to the others.
-/

import FilterLists.Proofs.Json.Members
import FilterLists.Proofs.Json.Spelling
import FilterLists.Proofs.Rule.Record
import Mathlib.Data.List.Forall2

namespace FilterLists

open Json

/-! ### Lists that may be left out -/

/-- The members that can show a list of strings in an object: a member with the list, or none if
the list is empty. -/
inductive ListShown (name : String) (contents : List String) : List (Content × Value) → Prop
  | written : ListShown name contents [member name (.texts contents)]
  | left_out : contents = [] → ListShown name contents []

namespace ListShown

variable {name : String} {contents : List String} {shown : List (Content × Value)}

theorem eq_of_mem (listShown : ListShown name contents shown) {found : Content × Value}
    (isMember : found ∈ shown) : found = member name (.texts contents) := by
  cases listShown with
  | written => exact List.mem_singleton.mp isMember
  | left_out _ => exact absurd isMember List.not_mem_nil

theorem filter_eq (listShown : ListShown name contents shown) (other : String) :
    (shown.filter fun member => member.1 == some other) = if name = other then shown else [] := by
  cases listShown with
  | written => by_cases same : name = other <;> simp [member, same]
  | left_out _ => simp

/-- A list is found by its name where no other member has the name. -/
theorem exists_unique?_eq (listShown : ListShown name contents shown)
    (members : List (Content × Value))
    (only : (members.filter fun member => member.1 == some name) = shown) :
    ∃ field, Value.unique? name members = some field ∧ Trigger.ListFound contents field := by
  unfold Value.unique?
  rw [only]
  cases listShown with
  | written => exact ⟨_, rfl, .written⟩
  | left_out empty => exact ⟨_, rfl, .missing empty⟩

theorem fits (listShown : ListShown name contents shown) :
    ∀ found ∈ shown, found.1.isSome = true ∧ found.2.isDefinite = true ∧ found.2.depth ≤ 1 := by
  intro found isMember
  rw [listShown.eq_of_mem isMember]
  exact ⟨rfl, Action.isDefinite_texts contents, Action.depth_texts_le contents⟩

end ListShown

/-! ### Actions -/

namespace Action

/-- The names that the object of an action knows. -/
def knownNames : Action → List String
  | block => ["type"]
  | ignorePrevious => ["type"]
  | hide _ => ["type", "selector"]
  | scriptlet _ _ => ["type", "scriptlet", "arguments"]

/-- The members that can show an action, besides its kind. -/
inductive Shown : Action → List (Content × Value) → Prop
  | block : Shown block []
  | ignorePrevious : Shown ignorePrevious []
  | hide (selector : String) : Shown (hide selector) [member "selector" (.text selector)]
  | scriptlet (name : String) {arguments : List String} {shown : List (Content × Value)} :
    ListShown "arguments" arguments shown →
    Shown (scriptlet name arguments) (member "scriptlet" (.text name) :: shown)

/-- The objects that write an action. -/
inductive Rearranged (action : Action) : Value → Prop
  | object {shown found : List (Content × Value)} :
    Shown action shown →
    Scattered action.knownNames (member "type" (.text action.kindName) :: shown) found →
    Rearranged action (.object found)

theorem type_mem_knownNames (action : Action) : "type" ∈ action.knownNames := by
  cases action <;> exact List.mem_cons_self

theorem Shown.fits {action : Action} {shown : List (Content × Value)}
    (isShown : Shown action shown) :
    ∀ found ∈ shown, found.1.isSome = true ∧ found.2.isDefinite = true ∧ found.2.depth ≤ 1 := by
  cases isShown with
  | block | ignorePrevious => exact fun _ isMember => absurd isMember List.not_mem_nil
  | hide selector =>
    exact List.forall_mem_singleton.mpr ⟨rfl, rfl, Nat.zero_le 1⟩
  | scriptlet name listShown =>
    exact List.forall_mem_cons.mpr ⟨⟨rfl, rfl, Nat.zero_le 1⟩, listShown.fits⟩

theorem Shown.ne_type {action : Action} {shown : List (Content × Value)}
    (isShown : Shown action shown) : ∀ found ∈ shown, found.1 ≠ some "type" := by
  cases isShown with
  | block | ignorePrevious => exact fun _ isMember => absurd isMember List.not_mem_nil
  | hide selector => exact List.forall_mem_singleton.mpr (by simp [member])
  | scriptlet name listShown =>
    refine List.forall_mem_cons.mpr ⟨by simp [member], fun found isMember => ?_⟩
    rw [listShown.eq_of_mem isMember]
    simp [member]

/-- An action is made from its kind and its fields, in whatever order these are left. -/
theorem ofFields?_of_scattered {action : Action} {shown found : List (Content × Value)}
    (isShown : Shown action shown) (scattered : Scattered action.knownNames shown found) :
    ofFields? action.kindName (.object found) = some action := by
  have named : ∀ member ∈ shown, member.1.isSome = true :=
    fun member isMember => (isShown.fits member isMember).1
  cases isShown with
  | block | ignorePrevious => rfl
  | hide selector =>
    have fields : (Value.object found).fields? ["selector"] = some [some (.text selector)] := by
      rw [scattered.fields?_eq (by simp [knownNames]) named]
      rfl
    show ((Value.object found).fields? ["selector"]).bind _ = _
    rw [fields]
    rfl
  | @scriptlet name arguments shown listShown =>
    obtain ⟨field, read, isList⟩ := listShown.exists_unique?_eq
      (member "scriptlet" (.text name) :: shown)
      (by simp [member, listShown.filter_eq])
    have nameRead : Value.unique? "scriptlet" (member "scriptlet" (.text name) :: shown) =
        some (some (.text name)) := by
      have only : ((member "scriptlet" (.text name) :: shown).filter fun member =>
          member.1 == some "scriptlet") = [member "scriptlet" (.text name)] := by
        simp [member, listShown.filter_eq]
      rw [Value.unique?, only]
      rfl
    have fields : (Value.object found).fields? ["scriptlet", "arguments"] =
        some [some (.text name), field] := by
      rw [scattered.fields?_eq (by simp [knownNames]) named]
      simp only [List.mapM_cons, List.mapM_nil, nameRead, read]
      rfl
    show ((Value.object found).fields? ["scriptlet", "arguments"]).bind _ = _
    rw [fields]
    show ((Trigger.textsOf? field).bind fun contents => some (Action.scriptlet name contents)) = _
    rw [isList.textsOf?_eq]
    rfl

theorem split?_of_scattered {action : Action} {shown found : List (Content × Value)}
    (isShown : Shown action shown)
    (scattered : Scattered action.knownNames
      (member "type" (.text action.kindName) :: shown) found) :
    split? (.object found) = some (.text action.kindName,
      .object (found.filter fun member => member.1 != some "type")) := by
  have only : ((member "type" (.text action.kindName) :: shown).filter fun member =>
      member.1 == some "type") = [member "type" (.text action.kindName)] := by
    rw [List.filter_cons_of_pos (by simp [member]), List.filter_eq_nil_iff.mpr]
    intro other isOther
    simpa using isShown.ne_type other isOther
  have kind : Value.unique? "type" found = some (some (.text action.kindName)) := by
    rw [scattered.unique?_eq action.type_mem_knownNames, Value.unique?, only]
    rfl
  show (Value.unique? "type" found).bind _ = _
  rw [kind]
  rfl

theorem ofJson?_of_rearranged {action : Action} {value : Value}
    (rearranged : Rearranged action value) : ofJson? value = some action := by
  obtain ⟨isShown, scattered⟩ := rearranged
  rename_i shown found
  have rest : (member "type" (.text action.kindName) :: shown).filter
      (fun member => member.1 != some "type") = shown := by
    rw [List.filter_cons_of_neg (by simp [member]), List.filter_eq_self]
    intro other isOther
    simpa using isShown.ne_type other isOther
  have fit := scattered.fits (List.forall_mem_cons.mpr ⟨⟨rfl, rfl, Nat.zero_le 1⟩, isShown.fits⟩)
  have left : Scattered action.knownNames shown (found.filter fun member =>
      member.1 != some "type") := by
    have filtered := scattered.filter fun member => member.1 != some "type"
    rwa [rest] at filtered
  unfold ofJson?
  rw [if_pos ⟨fit.1, Nat.le_trans fit.2 (by decide)⟩, split?_of_scattered isShown scattered]
  exact ofFields?_of_scattered isShown left

theorem rearranged_toJson (action : Action) : Rearranged action action.toJson := by
  have shown : Shown action action.toMembers := by
    cases action with
    | block => exact .block
    | ignorePrevious => exact .ignorePrevious
    | hide selector => exact .hide selector
    | scriptlet name arguments => exact .scriptlet name .written
  exact .object shown (.refl _ _)

end Action

/-! ### Triggers -/

namespace Trigger

/-- The names that the object of a trigger knows. -/
def knownNames : List String :=
  ["url-filter", "if-domain", "unless-domain", "load-type", "resource-type"]

/-- The objects that write a trigger. -/
inductive Rearranged (trigger : Trigger) : Value → Prop
  | object {ifDomain unlessDomain loadType resourceType found : List (Content × Value)} :
    ListShown "if-domain" trigger.ifDomain ifDomain →
    ListShown "unless-domain" trigger.unlessDomain unlessDomain →
    ListShown "load-type" (trigger.loadType.toList.map LoadType.name) loadType →
    ListShown "resource-type" (trigger.resourceTypes.map ResourceType.name) resourceType →
    Scattered knownNames
      (member "url-filter" (.text trigger.urlFilter) :: ifDomain ++ unlessDomain ++ loadType ++
        resourceType) found →
    Rearranged trigger (.object found)

theorem ofJson?_of_rearranged {trigger : Trigger} {value : Value}
    (rearranged : Rearranged trigger value) :
    ofJson? value = some { trigger with firstParty := false } := by
  obtain ⟨ifDomainShown, unlessDomainShown, loadTypeShown, resourceTypeShown, scattered⟩ :=
    rearranged
  rename_i ifDomain unlessDomain loadType resourceType found
  let members := member "url-filter" (.text trigger.urlFilter) :: ifDomain ++ unlessDomain ++
    loadType ++ resourceType
  have named : ∀ member ∈ members, member.1.isSome = true := by
    simp only [members, List.cons_append, List.forall_mem_cons, List.forall_mem_append]
    exact ⟨rfl, ⟨⟨fun found isMember => (ifDomainShown.fits found isMember).1,
      fun found isMember => (unlessDomainShown.fits found isMember).1⟩,
      fun found isMember => (loadTypeShown.fits found isMember).1⟩,
      fun found isMember => (resourceTypeShown.fits found isMember).1⟩
  have ofName : ∀ name, (members.filter fun member => member.1 == some name) =
      (if "url-filter" = name then [member "url-filter" (.text trigger.urlFilter)] else []) ++
        (if "if-domain" = name then ifDomain else []) ++
        (if "unless-domain" = name then unlessDomain else []) ++
        (if "load-type" = name then loadType else []) ++
        (if "resource-type" = name then resourceType else []) := by
    intro name
    simp only [members, List.cons_append, List.filter_cons, List.filter_append,
      ifDomainShown.filter_eq, unlessDomainShown.filter_eq, loadTypeShown.filter_eq,
      resourceTypeShown.filter_eq]
    by_cases same : "url-filter" = name <;> simp [member, same]
  have urlFilterRead : Value.unique? "url-filter" members =
      some (some (.text trigger.urlFilter)) := by
    rw [Value.unique?, ofName]
    rfl
  obtain ⟨ifDomainField, ifDomainRead, ifDomainFound⟩ :=
    ifDomainShown.exists_unique?_eq members (by simp [ofName])
  obtain ⟨unlessDomainField, unlessDomainRead, unlessDomainFound⟩ :=
    unlessDomainShown.exists_unique?_eq members (by simp [ofName])
  obtain ⟨loadTypeField, loadTypeRead, loadTypeFound⟩ :=
    loadTypeShown.exists_unique?_eq members (by simp [ofName])
  obtain ⟨resourceTypeField, resourceTypeRead, resourceTypeFound⟩ :=
    resourceTypeShown.exists_unique?_eq members (by simp [ofName])
  refine ofJson?_of_fields? ?_ ifDomainFound unlessDomainFound loadTypeFound resourceTypeFound
  show (Value.object found).fields? knownNames = _
  rw [scattered.fields?_eq (fun _ isName => isName) named]
  show knownNames.mapM (fun name => Value.unique? name members) = _
  simp only [knownNames, List.mapM_cons, List.mapM_nil, urlFilterRead, ifDomainRead,
    unlessDomainRead, loadTypeRead, resourceTypeRead]
  rfl

theorem listShown_listMember (name : String) (contents : List String) :
    ListShown name contents (listMember name contents) := by
  unfold listMember
  split
  · rename_i empty
    exact .left_out (List.isEmpty_iff.mp empty)
  · exact .written

theorem rearranged_toJson (trigger : Trigger) : Rearranged trigger trigger.toJson :=
  .object (listShown_listMember _ _) (listShown_listMember _ _) (listShown_listMember _ _)
    (listShown_listMember _ _) (.refl _ _)

end Trigger

/-! ### Records -/

namespace Rule

/-- The objects that write a rule. -/
inductive Rearranged (rule : Rule) : Value → Prop
  | object {action trigger : Value} {found : List (Content × Value)} :
    Action.Rearranged rule.action action →
    Trigger.Rearranged rule.trigger trigger →
    Scattered ["action", "trigger"] [member "action" action, member "trigger" trigger] found →
    Rearranged rule (.object found)

theorem ofJson?_of_rearranged {rule : Rule} {value : Value} (rearranged : Rearranged rule value) :
    ofJson? value = some rule.withoutMark := by
  obtain ⟨actionRearranged, triggerRearranged, scattered⟩ := rearranged
  rename_i action trigger found
  have fields : (Value.object found).fields? ["action", "trigger"] =
      some [some action, some trigger] := by
    rw [scattered.fields?_eq (fun _ isName => isName) (by simp [member])]
    rfl
  show ((Value.object found).fields? ["action", "trigger"]).bind _ = _
  rw [fields]
  show ((Action.ofJson? action).bind fun action =>
    (Trigger.ofJson? trigger).bind fun trigger => some (Rule.mk action trigger)) = _
  rw [Action.ofJson?_of_rearranged actionRearranged,
    Trigger.ofJson?_of_rearranged triggerRearranged]
  rfl

theorem rearranged_toJson (rule : Rule) : Rearranged rule rule.toJson :=
  .object rule.action.rearranged_toJson rule.trigger.rearranged_toJson (.refl _ _)

/-! ### Texts -/

/-- Whether a text writes rules one after the other as a list of their records, each of them
rearranged in some way. -/
def LaidOut (rules : List Rule) (text : String) : Prop :=
  ∃ values, List.Forall₂ Rearranged rules values ∧ Written (Value.array values).tokens text.toList

/-- The text of a container is one way to write its rules. -/
theorem laidOut_encode (rules : List Rule) : LaidOut rules (encode rules) := by
  refine ⟨rules.map toJson, ?_, ?_⟩
  · rw [List.forall₂_map_right_iff]
    exact List.forall₂_same.mpr fun rule _ => rule.rearranged_toJson
  · exact (layout_print (isPlain_map_toJson rules)).written

theorem mapM_ofJson?_of_rearranged {rules : List Rule} {values : List Value}
    (each : List.Forall₂ Rearranged rules values) :
    values.mapM ofJson? = some (rules.map withoutMark) := by
  induction each with
  | nil => rfl
  | cons rearranged _ inductionHypothesis =>
    rw [List.mapM_cons, ofJson?_of_rearranged rearranged, inductionHypothesis]
    rfl

/-- However the records of rules are laid out, the same rules are read. -/
theorem decode?_of_laidOut {rules : List Rule} {text : String} (laidOut : LaidOut rules text) :
    decode? text = some (rules.map withoutMark) := by
  obtain ⟨values, each, written⟩ := laidOut
  unfold decode?
  rw [parse?_of_written written]
  exact mapM_ofJson?_of_rearranged each

/-- A marked rule that runs a scriptlet without arguments. -/
def markedCall : Rule where
  action := .scriptlet "log" []
  trigger := { urlFilter := ".", firstParty := true }

/-- A record of that rule from back to front, with the mark as a member that is not known, an empty
list written and the empty arguments left out. -/
def reversedCall : Value :=
  .object [
    member "trigger" (.object [member "first-party" (.boolean true),
      member "if-domain" (.texts []), member "url-filter" (.text ".")]),
    member "action" (.object [member "note" .null, member "scriptlet" (.text "log"),
      member "type" (.text "scriptlet")])]

theorem rearranged_reversedCall : Rearranged markedCall reversedCall := by
  have note : IsForeign ["type", "scriptlet", "arguments"] (member "note" .null) :=
    ⟨⟨"note", rfl, by decide⟩, .null⟩
  have mark : IsForeign Trigger.knownNames (member "first-party" (.boolean true)) :=
    ⟨⟨"first-party", rfl, by decide⟩, .boolean true⟩
  have action : Action.Rearranged markedCall.action (.object [member "note" .null,
      member "scriptlet" (.text "log"), member "type" (.text "scriptlet")]) :=
    .object (.scriptlet "log" (.left_out rfl))
      ⟨_, List.forall_mem_singleton.mpr note, List.reverse_perm [_, _, _]⟩
  have trigger : Trigger.Rearranged markedCall.trigger (.object [
      member "first-party" (.boolean true), member "if-domain" (.texts []),
      member "url-filter" (.text ".")]) :=
    .object .written (.left_out rfl) (.left_out rfl) (.left_out rfl)
      ⟨_, List.forall_mem_singleton.mpr mark, List.reverse_perm [_, _, _]⟩
  exact .object action trigger ⟨[], List.forall_mem_nil _, .swap _ _ []⟩

/-- A text of that record, with some blanks, and with the dot written by its number. -/
def reversedText : String :=
  "[ \x7b\"trigger\":\x7b\"first-party\":true,\"if-domain\":[],\"url-filter\":\"\\u002e\"\x7d,
\"action\":\x7b\"note\":null,\"scriptlet\":\"log\",\"type\":\"scriptlet\"\x7d\x7d ]"

set_option maxRecDepth 4000 in
theorem written_reversedText :
    Written (Value.array [reversedCall]).tokens reversedText.toList := by
  show Written _ (String.ofList _).toList
  rw [String.toList_ofList]
  simp only [reversedCall, Value.tokens, Value.texts, Value.text, furtherItems, furtherMembers,
    memberTokens, member, List.map_nil, List.cons_append, List.nil_append]
  repeat' first
    | exact .nil
    | exact .close
    | apply Written.space rfl
    | apply Written.string
    | apply Written.token rfl
    | apply Spells.plain (by decide) (by decide) (by decide)
    | apply Spells.unit rfl rfl rfl

/-- The scriptlet comes back without arguments, and the mark is not read. -/
theorem decode?_reversedText : LaidOut [markedCall] reversedText ∧
    decode? reversedText = some [⟨.scriptlet "log" [], { urlFilter := "." }⟩] := by
  have laidOut : LaidOut [markedCall] reversedText :=
    ⟨[reversedCall], .cons rearranged_reversedCall .nil, written_reversedText⟩
  exact ⟨laidOut, decode?_of_laidOut laidOut⟩

end Rule

end FilterLists
