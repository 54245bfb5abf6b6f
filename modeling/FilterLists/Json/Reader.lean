/-
This file reads JSON texts. The reader takes the tokens of a text one by one and keeps the lists
and objects that are still open on a stack; a text is a value if its last token completes a value
with nothing left open. There is no limit on nesting here: where one holds, it is a condition on
the value.
-/

import FilterLists.Json.Token

namespace FilterLists.Json

/-- A list or an object that is still open, with what has been read of it, latest first. Of an
object, the name of the member whose value comes next has been read too. -/
inductive Frame
  | array (items : List Value)
  | object (members : List (Content × Value)) (name : Content)

/-- What may come next, given the lists and objects that are open around it, innermost first. -/
inductive State
  /-- A value. -/
  | value (stack : List Frame)
  /-- The first item of a list, or the end of the list. -/
  | firstItem (stack : List Frame)
  /-- The first member of an object, or the end of the object. -/
  | firstMember (stack : List Frame)
  /-- The name of a member of an object with some members. -/
  | name (members : List (Content × Value)) (stack : List Frame)
  /-- The colon after the name of a member. -/
  | colon (members : List (Content × Value)) (name : Content) (stack : List Frame)
  /-- What follows a complete value. -/
  | after (value : Value) (stack : List Frame)

namespace State

/-- The state after a token that starts a value. -/
def startValue (stack : List Frame) : Token → Option State
  | .null => some (after .null stack)
  | .boolean truth => some (after (.boolean truth) stack)
  | .number numeral => some (after (.number numeral) stack)
  | .string content => some (after (.string content) stack)
  | .openList => some (firstItem stack)
  | .openObject => some (firstMember stack)
  | _ => none

/-- The state after a token, if the token may come. -/
def step : State → Token → Option State
  | value stack, token => startValue stack token
  | firstItem stack, .closeList => some (after (.array []) stack)
  | firstItem stack, token => startValue (.array [] :: stack) token
  | firstMember stack, .closeObject => some (after (.object []) stack)
  | firstMember stack, .string content => some (colon [] content stack)
  | name members stack, .string content => some (colon members content stack)
  | colon members label stack, .colon => some (value (.object members label :: stack))
  | after item (.array items :: stack), .comma => some (value (.array (item :: items) :: stack))
  | after item (.array items :: stack), .closeList =>
    some (after (.array (item :: items).reverse) stack)
  | after item (.object members label :: stack), .comma =>
    some (name ((label, item) :: members) stack)
  | after item (.object members label :: stack), .closeObject =>
    some (after (.object ((label, item) :: members).reverse) stack)
  | _, _ => none

/-- The value that has been read, if it is complete and nothing around it is open. -/
def result? : State → Option Value
  | after found [] => some found
  | _ => none

end State

/-- The value that tokens write. -/
def Value.ofTokens? (tokens : List Token) : Option Value := do
  (← tokens.foldlM State.step (.value [])).result?

/-- The value that a text writes. -/
def Value.ofChars? (text : List Char) : Option Value := do
  ofTokens? (← tokens text)

/-- The value that a text writes. -/
def Value.parse? (text : String) : Option Value :=
  ofChars? text.toList

end FilterLists.Json
