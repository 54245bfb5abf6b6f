/-
This file proves that a JSON value that is printed is read back as it was. Tokens stand between
the two: the printed text lays out the tokens of the value, and the reader builds the value again
from its tokens, whatever is open around it.

The induction is on the value, together with the items of a list and the members of an object
after the first one. These are printed with the comma before them, and the reader takes the comma
when a value is complete.
-/

import FilterLists.Proofs.Json.Layout

namespace FilterLists.Json

/-! ### The tokens of a value -/

mutual

/-- The tokens that a value is written with. -/
def Value.tokens : Value → List Token
  | .null => [.null]
  | .boolean value => [.boolean value]
  | .number numeral => [.number numeral]
  | .string content => [.string content]
  | .array [] => [.openList, .closeList]
  | .array (item :: items) => .openList :: (item.tokens ++ furtherItems items)
  | .object [] => [.openObject, .closeObject]
  | .object (member :: members) => .openObject :: (memberTokens member ++ furtherMembers members)

/-- The tokens of the items of a list after the first, and of its end. -/
def furtherItems : List Value → List Token
  | [] => [.closeList]
  | item :: items => .comma :: (item.tokens ++ furtherItems items)

/-- The tokens of a member of an object. -/
def memberTokens : Content × Value → List Token
  | (name, value) => .string name :: .colon :: value.tokens

/-- The tokens of the members of an object after the first, and of its end. -/
def furtherMembers : List (Content × Value) → List Token
  | [] => [.closeObject]
  | member :: members => .comma :: (memberTokens member ++ furtherMembers members)

end

/-- Whether a value is written with plain tokens: it holds no numbers, and its strings and names
say something. -/
def Value.IsPlain (value : Value) : Prop :=
  ∀ token ∈ value.tokens, token.isPlain = true

/-! ### Reading -/

/-- A value starts with a token that may start the first item of a list too. -/
theorem step_firstItem (value : Value) (stack : List Frame) :
    value.tokens.foldlM State.step (.firstItem stack) =
      value.tokens.foldlM State.step (.value (.array [] :: stack)) := by
  match value with
  | .null | .boolean _ | .number _ | .string _ => rfl
  | .array [] | .array (_ :: _) | .object [] | .object (_ :: _) => rfl

mutual

/-- The tokens of a value are read as the value, whatever is open around it. -/
theorem foldlM_step_tokens (value : Value) (stack : List Frame) :
    value.tokens.foldlM State.step (.value stack) = some (.after value stack) := by
  match value with
  | .null | .boolean _ | .number _ | .string _ => rfl
  | .array [] | .object [] => rfl
  | .array (item :: items) =>
    show (item.tokens ++ furtherItems items).foldlM State.step (.firstItem stack) = _
    rw [List.foldlM_append, step_firstItem, foldlM_step_tokens item]
    exact foldlM_step_furtherItems [] item items stack
  | .object ((name, value) :: members) =>
    show (value.tokens ++ furtherMembers members).foldlM State.step
      (.value (.object [] name :: stack)) = _
    rw [List.foldlM_append, foldlM_step_tokens value]
    exact foldlM_step_furtherMembers [] name value members stack

/-- After an item of a list, its further items are read. -/
theorem foldlM_step_furtherItems (done : List Value) (item : Value) (items : List Value)
    (stack : List Frame) :
    (furtherItems items).foldlM State.step (.after item (.array done :: stack)) =
      some (.after (.array (done.reverse ++ item :: items)) stack) := by
  match items with
  | [] => simp [furtherItems, State.step]
  | next :: rest =>
    show (next.tokens ++ furtherItems rest).foldlM State.step
      (.value (.array (item :: done) :: stack)) = _
    rw [List.foldlM_append, foldlM_step_tokens next]
    refine (foldlM_step_furtherItems (item :: done) next rest stack).trans ?_
    rw [List.reverse_cons, List.append_assoc, List.singleton_append]

/-- After a member of an object, its further members are read. -/
theorem foldlM_step_furtherMembers (done : List (Content × Value)) (name : Content)
    (value : Value) (members : List (Content × Value)) (stack : List Frame) :
    (furtherMembers members).foldlM State.step (.after value (.object done name :: stack)) =
      some (.after (.object (done.reverse ++ (name, value) :: members)) stack) := by
  match members with
  | [] => simp [furtherMembers, State.step]
  | (nextName, next) :: rest =>
    show (next.tokens ++ furtherMembers rest).foldlM State.step
      (.value (.object ((name, value) :: done) nextName :: stack)) = _
    rw [List.foldlM_append, foldlM_step_tokens next]
    refine (foldlM_step_furtherMembers ((name, value) :: done) nextName next rest stack).trans ?_
    rw [List.reverse_cons, List.append_assoc, List.singleton_append]

end

theorem ofTokens?_tokens (value : Value) : Value.ofTokens? value.tokens = some value := by
  rw [Value.ofTokens?, foldlM_step_tokens]
  rfl

/-! ### Printing -/

theorem layout_newLine (depth : Nat) {tokens : List Token} {text : List Char}
    (layout : Layout tokens text) : Layout tokens (newLine depth ++ text) := by
  refine .space rfl (.spaces (fun blank member => ?_) layout)
  rw [List.eq_of_mem_replicate member]
  rfl

mutual

/-- A printed value lays out its tokens, before anything that is laid out. -/
theorem layout_printAt (depth : Nat) (value : Value) (plain : value.IsPlain)
    {tokens : List Token} {text : List Char} (layout : Layout tokens text) :
    Layout (value.tokens ++ tokens) (printAt depth value ++ text) := by
  match value with
  | .null | .boolean true | .boolean false => exact .token rfl layout
  | .number numeral => exact absurd (plain (.number numeral) List.mem_cons_self) Bool.false_ne_true
  | .string content => exact .token (plain (.string content) List.mem_cons_self) layout
  | .array [] => exact .token rfl (.token rfl layout)
  | .object [] => exact .token rfl (.token rfl layout)
  | .array (item :: items) =>
    obtain ⟨itemPlain, itemsPlain⟩ := List.forall_mem_append.mp (List.forall_mem_cons.mp plain).2
    have further := layout_furtherItems depth items itemsPlain layout
    have first := layout_newLine (depth + 1) (layout_printAt (depth + 1) item itemPlain further)
    show Layout (.openList :: (item.tokens ++ furtherItems items) ++ tokens)
      ('[' :: newLine (depth + 1) ++ printAt (depth + 1) item ++ printItems depth items ++ text)
    simpa only [List.cons_append, List.append_assoc] using first.openList
  | .object (member :: members) =>
    obtain ⟨memberPlain, membersPlain⟩ :=
      List.forall_mem_append.mp (List.forall_mem_cons.mp plain).2
    have further := layout_furtherMembers depth members membersPlain layout
    have first := layout_newLine (depth + 1)
      (layout_printMember (depth + 1) member memberPlain further)
    show Layout (.openObject :: (memberTokens member ++ furtherMembers members) ++ tokens)
      ('\x7b' :: newLine (depth + 1) ++ printMember (depth + 1) member ++
        printMembers depth members ++ text)
    simpa only [List.cons_append, List.append_assoc] using first.openObject

theorem layout_furtherItems (depth : Nat) (items : List Value)
    (plain : ∀ token ∈ furtherItems items, token.isPlain = true)
    {tokens : List Token} {text : List Char} (layout : Layout tokens text) :
    Layout (furtherItems items ++ tokens) (printItems depth items ++ text) := by
  match items with
  | [] =>
    have closed := layout_newLine depth layout.closeList
    simpa [furtherItems, printItems] using closed
  | item :: rest =>
    obtain ⟨itemPlain, restPlain⟩ := List.forall_mem_append.mp (List.forall_mem_cons.mp plain).2
    have further := layout_furtherItems depth rest restPlain layout
    have first := layout_newLine (depth + 1) (layout_printAt (depth + 1) item itemPlain further)
    simpa [furtherItems, printItems] using first.comma

theorem layout_printMember (depth : Nat) (member : Content × Value)
    (plain : ∀ token ∈ memberTokens member, token.isPlain = true)
    {tokens : List Token} {text : List Char} (layout : Layout tokens text) :
    Layout (memberTokens member ++ tokens) (printMember depth member ++ text) := by
  match member with
  | (name, value) =>
    obtain ⟨namePlain, rest⟩ := List.forall_mem_cons.mp plain
    have inner := layout_printAt depth value (List.forall_mem_cons.mp rest).2 layout
    have separated : Layout (value.tokens ++ tokens) (' ' :: (printAt depth value ++ text)) :=
      .space rfl inner
    simpa [memberTokens, printMember, Token.text] using Layout.token namePlain separated.colon

theorem layout_furtherMembers (depth : Nat) (members : List (Content × Value))
    (plain : ∀ token ∈ furtherMembers members, token.isPlain = true)
    {tokens : List Token} {text : List Char} (layout : Layout tokens text) :
    Layout (furtherMembers members ++ tokens) (printMembers depth members ++ text) := by
  match members with
  | [] =>
    have closed := layout_newLine depth layout.closeObject
    simpa [furtherMembers, printMembers] using closed
  | member :: rest =>
    obtain ⟨memberPlain, restPlain⟩ := List.forall_mem_append.mp (List.forall_mem_cons.mp plain).2
    have further := layout_furtherMembers depth rest restPlain layout
    have first := layout_newLine (depth + 1)
      (layout_printMember (depth + 1) member memberPlain further)
    simpa [furtherMembers, printMembers] using first.comma

end

theorem layout_print {value : Value} (plain : value.IsPlain) :
    Layout value.tokens value.print.toList := by
  rw [Value.print, String.toList_ofList]
  simpa using layout_printAt 0 value plain .nil

/-- A plain value that is printed is read back as it was. -/
theorem parse?_print {value : Value} (plain : value.IsPlain) :
    Value.parse? value.print = some value := by
  rw [Value.parse?, Value.ofChars?, tokens_of_layout (layout_print plain)]
  exact ofTokens?_tokens value

/-! ### Plain values -/

theorem isPlain_text (content : String) : (Value.text content).IsPlain := by
  intro token member
  rw [List.mem_singleton.mp member]
  rfl

theorem isPlain_furtherItems {items : List Value} (each : ∀ item ∈ items, item.IsPlain) :
    ∀ token ∈ furtherItems items, token.isPlain = true := by
  induction items with
  | nil => decide
  | cons item rest inductionHypothesis =>
    obtain ⟨itemPlain, restPlain⟩ := List.forall_mem_cons.mp each
    exact List.forall_mem_cons.mpr ⟨rfl,
      List.forall_mem_append.mpr ⟨itemPlain, inductionHypothesis restPlain⟩⟩

theorem isPlain_array {items : List Value} (each : ∀ item ∈ items, item.IsPlain) :
    (Value.array items).IsPlain := by
  cases items with
  | nil => exact (by decide : ∀ token ∈ [Token.openList, .closeList], token.isPlain = true)
  | cons item rest =>
    obtain ⟨itemPlain, restPlain⟩ := List.forall_mem_cons.mp each
    exact List.forall_mem_cons.mpr ⟨rfl,
      List.forall_mem_append.mpr ⟨itemPlain, isPlain_furtherItems restPlain⟩⟩

theorem isPlain_texts (contents : List String) : (Value.texts contents).IsPlain := by
  refine isPlain_array fun item isItem => ?_
  obtain ⟨content, _, rfl⟩ := List.mem_map.mp isItem
  exact isPlain_text content

/-- Whether a member of an object has a name that says something and a plain value. -/
def IsPlainMember (member : Content × Value) : Prop :=
  member.1.isSome = true ∧ member.2.IsPlain

theorem isPlain_memberTokens {member : Content × Value} (plain : IsPlainMember member) :
    ∀ token ∈ memberTokens member, token.isPlain = true := by
  match member, plain with
  | (some name, value), ⟨_, valuePlain⟩ =>
    exact List.forall_mem_cons.mpr ⟨rfl, List.forall_mem_cons.mpr ⟨rfl, valuePlain⟩⟩

theorem isPlain_furtherMembers {members : List (Content × Value)}
    (each : ∀ member ∈ members, IsPlainMember member) :
    ∀ token ∈ furtherMembers members, token.isPlain = true := by
  induction members with
  | nil => decide
  | cons member rest inductionHypothesis =>
    obtain ⟨memberPlain, restPlain⟩ := List.forall_mem_cons.mp each
    exact List.forall_mem_cons.mpr ⟨rfl, List.forall_mem_append.mpr
      ⟨isPlain_memberTokens memberPlain, inductionHypothesis restPlain⟩⟩

theorem isPlain_object {members : List (Content × Value)}
    (each : ∀ member ∈ members, IsPlainMember member) : (Value.object members).IsPlain := by
  cases members with
  | nil => exact (by decide : ∀ token ∈ [Token.openObject, .closeObject], token.isPlain = true)
  | cons member rest =>
    obtain ⟨memberPlain, restPlain⟩ := List.forall_mem_cons.mp each
    exact List.forall_mem_cons.mpr ⟨rfl, List.forall_mem_append.mpr
      ⟨isPlain_memberTokens memberPlain, isPlain_furtherMembers restPlain⟩⟩

end FilterLists.Json
