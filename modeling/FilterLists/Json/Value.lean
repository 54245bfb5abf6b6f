/-
This file defines the values that JSON texts stand for, as far as rule records and manifests need
them. Some texts are well formed but say nothing: a string can name half of a surrogate pair by
an escape, and a number can be out of the range of every machine number. Where such a value stands
in a field that nobody reads, it does no harm, so values keep what was written, and the reader of
a field decides.
-/

namespace FilterLists.Json

/-- What a string literal says, or nothing if an escape in it names half of a surrogate pair. -/
abbrev Content := Option String

/-- A JSON value. -/
inductive Value
  | null
  | boolean (value : Bool)
  /-- A number, as it is written. -/
  | number (numeral : String)
  | string (content : Content)
  | array (items : List Value)
  /-- Members in the order in which they are written, repeated names included. -/
  | object (members : List (Content × Value))
  deriving Repr

/-- A member of an object, with a name that says something. -/
def member (name : String) (value : Value) : Content × Value :=
  (some name, value)

namespace Value

/-- A string that says something. -/
def text (content : String) : Value :=
  .string (some content)

/-- A list of strings. -/
def texts (contents : List String) : Value :=
  .array (contents.map text)

/-! ### Reading values as something in particular -/

def asText? : Value → Option String
  | .string content => content
  | _ => none

def asBoolean? : Value → Option Bool
  | .boolean value => some value
  | _ => none

def asItems? : Value → Option (List Value)
  | .array items => some items
  | _ => none

def asTexts? (value : Value) : Option (List String) := do
  (← value.asItems?).mapM asText?

/-- The choice that a value makes among names. It is made by a string, or by an object with one
member of the chosen name, which holds nothing. -/
def asChoice? : Value → Option String
  | .string content => content
  | .object [(name, .null)] => name
  | _ => none

def asChoices? (value : Value) : Option (List String) := do
  (← value.asItems?).mapM asChoice?

/-! ### Fields -/

/-- The value of the member of a name: nothing inside if there is none, nothing at all if there
are several. -/
def unique? (name : String) (members : List (Content × Value)) : Option (Option Value) :=
  match members.filter fun member => member.1 == some name with
  | [] => some none
  | [(_, value)] => some (some value)
  | _ => none

/-- The values of the fields with the given names, in the order of the names. An object gives
them by name and may hold other members too, but each name must say something and none of the
given ones may come twice. A list gives them by position, and the later ones may be missing. -/
def fields? (names : List String) : Value → Option (List (Option Value))
  | .object members =>
    if members.all fun member => member.1.isSome then names.mapM fun name => unique? name members
    else none
  | .array items =>
    if items.length ≤ names.length then
      some (items.map some ++ List.replicate (names.length - items.length) none)
    else none
  | _ => none

end Value

end FilterLists.Json
