/-
This file proves that rules come back from their text as they were, except that the first party
mark is taken off. The text is read back as the JSON value that was printed, and the value of a
rule is then read field by field.

Two points need care. A trigger leaves out its empty lists, so its fields are found in what is
left of them; a lookup by name does not mind. And an action is held in memory before its kind is
known, which limits its depth; the action of a rule is two levels deep at most.
-/

import FilterLists.Proofs.Json.RoundTrip
import FilterLists.Rule.Record

namespace FilterLists

open Json

/-! ### Lists -/

/-- A list that is written item by item is read item by item. -/
theorem mapM_map_eq_some {Item Written Kept : Type} {write : Item → Written}
    {read? : Written → Option Kept} {keep : Item → Kept}
    (reads : ∀ item, read? (write item) = some (keep item)) (items : List Item) :
    (items.map write).mapM read? = some (items.map keep) := by
  have composed : read? ∘ write = fun item => pure (keep item) := funext reads
  rw [List.mapM_map, composed, List.mapM_pure]
  rfl

theorem asTexts?_texts (contents : List String) :
    (Value.texts contents).asTexts? = some contents := by
  show (contents.map Value.text).mapM Value.asText? = some contents
  have reads : ∀ content, Value.asText? (.text content) = some (id content) := fun _ => rfl
  rw [mapM_map_eq_some reads, List.map_id]

theorem asChoices?_texts (contents : List String) :
    (Value.texts contents).asChoices? = some contents := by
  show (contents.map Value.text).mapM Value.asChoice? = some contents
  have reads : ∀ content, Value.asChoice? (.text content) = some (id content) := fun _ => rfl
  rw [mapM_map_eq_some reads, List.map_id]

/-! ### Names -/

theorem ResourceType.ofName?_name (type : ResourceType) : ofName? type.name = some type := by
  cases type <;> decide

theorem LoadType.ofName?_name (type : LoadType) : ofName? type.name = some type := by
  cases type
  decide

/-! ### Actions -/

namespace Action

theorem depth_texts_le (contents : List String) : (Value.texts contents).depth ≤ 1 := by
  show depthOfItems (contents.map Value.text) + 1 ≤ 1
  induction contents with
  | nil => simp [depthOfItems]
  | cons content rest inductionHypothesis =>
    simpa [depthOfItems, Value.text, Value.depth] using inductionHypothesis

theorem isDefinite_texts (contents : List String) : (Value.texts contents).isDefinite = true := by
  show areDefinite (contents.map Value.text) = true
  induction contents with
  | nil => rfl
  | cons content rest inductionHypothesis =>
    simpa [areDefinite, Value.text, Value.isDefinite] using inductionHypothesis

/-- The record of an action can be held until its kind is known. -/
theorem toJson_fits (action : Action) :
    action.toJson.isDefinite = true ∧ action.toJson.depth ≤ maximumDepth := by
  cases action with
  | block | ignorePrevious => exact ⟨rfl, by decide⟩
  | hide selector =>
    have depth : (hide selector).toJson.depth = 1 := rfl
    exact ⟨rfl, depth ▸ by decide⟩
  | scriptlet name arguments =>
    have definite : (scriptlet name arguments).toJson.isDefinite =
        ((Value.texts arguments).isDefinite && true) := rfl
    have depth : (scriptlet name arguments).toJson.depth =
        max 0 (max 0 (max (Value.texts arguments).depth 0)) + 1 := rfl
    have listDepth := depth_texts_le arguments
    refine ⟨by rw [definite, isDefinite_texts, Bool.and_true], ?_⟩
    rw [depth, maximumDepth]
    omega

theorem isPlain_toJson (action : Action) : action.toJson.IsPlain := by
  refine isPlain_object (List.forall_mem_cons.mpr ⟨⟨rfl, isPlain_text _⟩, ?_⟩)
  cases action with
  | block | ignorePrevious => exact fun _ isMember => absurd isMember List.not_mem_nil
  | hide selector =>
    exact List.forall_mem_cons.mpr
      ⟨⟨rfl, isPlain_text selector⟩, fun _ isMember => absurd isMember List.not_mem_nil⟩
  | scriptlet name arguments =>
    exact List.forall_mem_cons.mpr ⟨⟨rfl, isPlain_text name⟩, List.forall_mem_cons.mpr
      ⟨⟨rfl, isPlain_texts arguments⟩, fun _ isMember => absurd isMember List.not_mem_nil⟩⟩

theorem ofJson?_toJson (action : Action) : ofJson? action.toJson = some action := by
  unfold ofJson?
  rw [if_pos action.toJson_fits]
  cases action with
  | block | ignorePrevious | hide _ => rfl
  | scriptlet name arguments =>
    show ((Value.texts arguments).asTexts?.bind fun found => some (scriptlet name found)) = _
    rw [asTexts?_texts]
    rfl

end Action

/-! ### Triggers -/

namespace Trigger

/-- The field of a list that is left out when it is empty. -/
def listField (contents : List String) : Option Value :=
  if contents.isEmpty then none else some (.texts contents)

/-- A field that shows a list, and is missing only if the list is empty. -/
inductive ListFound (contents : List String) : Option Value → Prop
  | written : ListFound contents (some (.texts contents))
  | missing : contents = [] → ListFound contents none

theorem listFound_listField (contents : List String) :
    ListFound contents (listField contents) := by
  cases contents with
  | nil => exact .missing rfl
  | cons content rest => exact .written

theorem ListFound.textsOf?_eq {contents : List String} {field : Option Value}
    (found : ListFound contents field) : textsOf? field = some contents := by
  cases found with
  | written => exact asTexts?_texts contents
  | missing empty => exact empty ▸ rfl

theorem ListFound.choicesOf?_eq {contents : List String} {field : Option Value}
    (found : ListFound contents field) : choicesOf? field = some contents := by
  cases found with
  | written => exact asChoices?_texts contents
  | missing empty => exact empty ▸ rfl

theorem filter_listMember (name other : String) (contents : List String) :
    ((listMember other contents).filter fun member => member.1 == some name) =
      if other = name then listMember other contents else [] := by
  unfold listMember
  split <;> split <;> simp_all [member]

theorem unique?_of_filter_eq {name : String} {contents : List String}
    {members : List (Content × Value)}
    (found : (members.filter fun member => member.1 == some name) = listMember name contents) :
    Value.unique? name members = some (listField contents) := by
  unfold Value.unique?
  rw [found]
  cases contents <;> rfl

/-- The members that a trigger is written with. -/
def members (trigger : Trigger) : List (Content × Value) :=
  member "url-filter" (.text trigger.urlFilter)
    :: listMember "if-domain" trigger.ifDomain
    ++ listMember "unless-domain" trigger.unlessDomain
    ++ listMember "load-type" (trigger.loadType.toList.map LoadType.name)
    ++ listMember "resource-type" (trigger.resourceTypes.map ResourceType.name)

theorem toJson_eq (trigger : Trigger) : trigger.toJson = .object trigger.members :=
  rfl

theorem eq_of_mem_listMember {name : String} {contents : List String}
    {found : Content × Value} (isMember : found ∈ listMember name contents) :
    found = member name (.texts contents) := by
  unfold listMember at isMember
  split at isMember
  · exact absurd isMember List.not_mem_nil
  · exact List.mem_singleton.mp isMember

/-- Every member of a trigger has a name that says something, and a string or a list of strings. -/
theorem isPlainMember_of_mem {trigger : Trigger} {found : Content × Value}
    (isMember : found ∈ trigger.members) : IsPlainMember found := by
  simp only [members, List.cons_append, List.mem_cons, List.mem_append] at isMember
  obtain rfl | ((inList | inList) | inList) | inList := isMember
  · exact ⟨rfl, isPlain_text _⟩
  all_goals exact eq_of_mem_listMember inList ▸ ⟨rfl, isPlain_texts _⟩

theorem isPlain_toJson (trigger : Trigger) : trigger.toJson.IsPlain :=
  isPlain_object fun _ => isPlainMember_of_mem

/-- The fields of a trigger are found by their names, whichever of its lists were left out. -/
theorem fields?_toJson (trigger : Trigger) :
    trigger.toJson.fields?
        ["url-filter", "if-domain", "unless-domain", "load-type", "resource-type"] =
      some [some (.text trigger.urlFilter), listField trigger.ifDomain,
        listField trigger.unlessDomain,
        listField (trigger.loadType.toList.map LoadType.name),
        listField (trigger.resourceTypes.map ResourceType.name)] := by
  have named : (trigger.members.all fun member => member.1.isSome) = true :=
    List.all_eq_true.mpr fun _ isMember => (isPlainMember_of_mem isMember).1
  have urlFilter : Value.unique? "url-filter" trigger.members =
      some (some (.text trigger.urlFilter)) := by
    have only : (trigger.members.filter fun member => member.1 == some "url-filter") =
        [member "url-filter" (.text trigger.urlFilter)] := by
      simp [members, filter_listMember, member]
    rw [Value.unique?, only]
    rfl
  have ifDomain : Value.unique? "if-domain" trigger.members =
      some (listField trigger.ifDomain) :=
    unique?_of_filter_eq (by simp [members, filter_listMember, member])
  have unlessDomain : Value.unique? "unless-domain" trigger.members =
      some (listField trigger.unlessDomain) :=
    unique?_of_filter_eq (by simp [members, filter_listMember, member])
  have loadType : Value.unique? "load-type" trigger.members =
      some (listField (trigger.loadType.toList.map LoadType.name)) :=
    unique?_of_filter_eq (by simp [members, filter_listMember, member])
  have resourceType : Value.unique? "resource-type" trigger.members =
      some (listField (trigger.resourceTypes.map ResourceType.name)) :=
    unique?_of_filter_eq (by simp [members, filter_listMember, member])
  rw [toJson_eq, Value.fields?, if_pos named]
  simp only [List.mapM_cons, List.mapM_nil, urlFilter, ifDomain, unlessDomain, loadType,
    resourceType]
  rfl

/-- A trigger is read from its fields, whichever of its empty lists are missing. -/
theorem ofJson?_of_fields? {trigger : Trigger} {value : Value}
    {ifDomain unlessDomain loadType resourceType : Option Value}
    (fields : value.fields?
        ["url-filter", "if-domain", "unless-domain", "load-type", "resource-type"] =
      some [some (.text trigger.urlFilter), ifDomain, unlessDomain, loadType, resourceType])
    (ifDomainFound : ListFound trigger.ifDomain ifDomain)
    (unlessDomainFound : ListFound trigger.unlessDomain unlessDomain)
    (loadTypeFound : ListFound (trigger.loadType.toList.map LoadType.name) loadType)
    (resourceTypeFound :
      ListFound (trigger.resourceTypes.map ResourceType.name) resourceType) :
    ofJson? value = some { trigger with firstParty := false } := by
  have loadTypes : (trigger.loadType.toList.map LoadType.name).mapM LoadType.ofName? =
      some trigger.loadType.toList := by
    have reads : ∀ type : LoadType, LoadType.ofName? type.name = some (id type) :=
      LoadType.ofName?_name
    rw [mapM_map_eq_some reads, List.map_id]
  have resourceTypes : (trigger.resourceTypes.map ResourceType.name).mapM ResourceType.ofName? =
      some trigger.resourceTypes := by
    have reads : ∀ type : ResourceType, ResourceType.ofName? type.name = some (id type) :=
      ResourceType.ofName?_name
    rw [mapM_map_eq_some reads, List.map_id]
  have head : trigger.loadType.toList.head? = trigger.loadType := by
    cases trigger.loadType <;> rfl
  unfold ofJson?
  rw [fields]
  simp [ifDomainFound.textsOf?_eq, unlessDomainFound.textsOf?_eq, loadTypeFound.choicesOf?_eq,
    resourceTypeFound.choicesOf?_eq, loadTypes, resourceTypes, head, Value.text, Value.asText?]

theorem ofJson?_toJson (trigger : Trigger) :
    ofJson? trigger.toJson = some { trigger with firstParty := false } :=
  ofJson?_of_fields? (fields?_toJson trigger) (listFound_listField _) (listFound_listField _)
    (listFound_listField _) (listFound_listField _)

theorem firstParty_of_ofJson? {value : Value} {trigger : Trigger}
    (read : ofJson? value = some trigger) : trigger.firstParty = false := by
  simp only [ofJson?, bind, Option.bind_eq_some_iff] at read
  obtain ⟨fields, _, read⟩ := read
  split at read
  · simp only [Option.bind_eq_some_iff] at read
    obtain ⟨_, _, _, _, _, _, _, _, _, _, _, _, _, _, same⟩ := read
    exact Option.some.inj same ▸ rfl
  · contradiction

end Trigger

/-! ### Rules -/

namespace Rule

theorem ofJson?_toJson (rule : Rule) : ofJson? rule.toJson = some rule.withoutMark := by
  show ((Action.ofJson? rule.action.toJson).bind fun action =>
    (Trigger.ofJson? rule.trigger.toJson).bind fun trigger =>
      some (Rule.mk action trigger)) = _
  rw [Action.ofJson?_toJson, Trigger.ofJson?_toJson]
  rfl

theorem isPlain_toJson (rule : Rule) : rule.toJson.IsPlain := by
  refine isPlain_object fun found isMember => ?_
  simp only [List.mem_cons, List.not_mem_nil, or_false] at isMember
  obtain rfl | rfl := isMember
  · exact ⟨rfl, rule.action.isPlain_toJson⟩
  · exact ⟨rfl, rule.trigger.isPlain_toJson⟩

theorem isPlain_map_toJson (rules : List Rule) : (Value.array (rules.map toJson)).IsPlain := by
  refine isPlain_array fun value isItem => ?_
  obtain ⟨rule, _, rfl⟩ := List.mem_map.mp isItem
  exact isPlain_toJson rule

theorem decode?_encode (rules : List Rule) :
    decode? (encode rules) = some (rules.map withoutMark) := by
  unfold decode? encode
  rw [parse?_print (isPlain_map_toJson rules)]
  exact mapM_map_eq_some ofJson?_toJson rules

/-! ### What has been read -/

theorem withoutMark_eq_self {rule : Rule} (unmarked : rule.trigger.firstParty = false) :
    rule.withoutMark = rule := by
  rw [withoutMark, ← unmarked]

theorem withoutMark_of_ofJson? {value : Value} {rule : Rule} (read : ofJson? value = some rule) :
    rule.withoutMark = rule := by
  simp only [ofJson?, bind, Option.bind_eq_some_iff] at read
  obtain ⟨fields, _, read⟩ := read
  split at read
  · simp only [Option.bind_eq_some_iff] at read
    obtain ⟨action, _, trigger, triggerRead, same⟩ := read
    rw [← Option.some.inj same]
    exact withoutMark_eq_self (Trigger.firstParty_of_ofJson? triggerRead)
  · contradiction

theorem map_withoutMark_of_mapM {values : List Value} {rules : List Rule}
    (read : values.mapM ofJson? = some rules) : rules.map withoutMark = rules := by
  induction values generalizing rules with
  | nil =>
    obtain rfl : [] = rules := by simpa using read
    rfl
  | cons value rest inductionHypothesis =>
    simp only [List.mapM_cons, bind, Option.bind_eq_some_iff] at read
    obtain ⟨rule, ruleRead, others, othersRead, same⟩ := read
    rw [← Option.some.inj same, List.map_cons, withoutMark_of_ofJson? ruleRead,
      inductionHypothesis othersRead]

/-- No rule that has been read has a first party mark. -/
theorem map_withoutMark_of_decode? {text : String} {rules : List Rule}
    (read : decode? text = some rules) : rules.map withoutMark = rules := by
  obtain ⟨value, _, items_read⟩ := Option.bind_eq_some_iff.mp read
  obtain ⟨items, _, each_read⟩ := Option.bind_eq_some_iff.mp items_read
  exact map_withoutMark_of_mapM each_read

theorem encode_map_withoutMark (rules : List Rule) :
    encode (rules.map withoutMark) = encode rules := by
  unfold encode
  rw [List.map_map]
  rfl

/-- Two lists of rules have the same text if they differ in first party marks only, and only
then. -/
theorem encode_eq_iff {first second : List Rule} :
    encode first = encode second ↔ first.map withoutMark = second.map withoutMark := by
  constructor
  · intro same
    have read := decode?_encode first
    rw [same, decode?_encode second] at read
    exact (Option.some.inj read).symm
  · intro same
    rw [← encode_map_withoutMark first, same, encode_map_withoutMark]

/-- Rules that are written read back as they were, but for their first party marks. So whatever
has been read is read again as the same after it is written again, writing what was read back
changes nothing in the text, and texts are the same for rules that differ in marks only. -/
theorem decode?_encode_roundTrip (rules others : List Rule) (text : String) :
    decode? (encode rules) = some (rules.map withoutMark) ∧
      ((decode? text).bind fun found => decode? (encode found)) = decode? text ∧
      (decode? (encode rules)).map encode = some (encode rules) ∧
      (encode rules = encode others ↔ rules.map withoutMark = others.map withoutMark) := by
  refine ⟨decode?_encode rules, ?_, ?_, encode_eq_iff⟩
  · cases read : decode? text with
    | none => rfl
    | some found =>
      show decode? (encode found) = some found
      rw [decode?_encode, map_withoutMark_of_decode? read]
  · rw [decode?_encode, Option.map_some, encode_map_withoutMark]

end Rule

end FilterLists
