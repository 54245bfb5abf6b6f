/-
This file prints JSON values, one item or member on a line and each level indented by two blanks
more than the one around it. Empty lists and objects stay on one line. There is no line end after
the last line.
-/

import FilterLists.Json.Quoted

namespace FilterLists.Json

/-- A line end, and the blanks that the next line starts with. -/
def newLine (depth : Nat) : List Char :=
  '\n' :: List.replicate (2 * depth) ' '

/-- The literal of a string. One that says nothing has no literal of its own and is printed as
the empty text. -/
def printContent (content : Content) : List Char :=
  quoteChars (content.getD "").toList

mutual

/-- How a value is printed whose first line stands `depth` levels deep. -/
def printAt (depth : Nat) : Value → List Char
  | .null => "null".toList
  | .boolean true => "true".toList
  | .boolean false => "false".toList
  | .number numeral => numeral.toList
  | .string content => printContent content
  | .array [] => ['[', ']']
  | .array (item :: items) =>
    '[' :: newLine (depth + 1) ++ printAt (depth + 1) item ++ printItems depth items
  | .object [] => ['\x7b', '\x7d']
  | .object (member :: members) =>
    '\x7b' :: newLine (depth + 1) ++ printMember (depth + 1) member ++ printMembers depth members

/-- The items of a list after the first, and the end of the list. -/
def printItems (depth : Nat) : List Value → List Char
  | [] => newLine depth ++ [']']
  | item :: items =>
    ',' :: newLine (depth + 1) ++ printAt (depth + 1) item ++ printItems depth items

/-- A member of an object. -/
def printMember (depth : Nat) : Content × Value → List Char
  | (name, value) => printContent name ++ ':' :: ' ' :: printAt depth value

/-- The members of an object after the first, and the end of the object. -/
def printMembers (depth : Nat) : List (Content × Value) → List Char
  | [] => newLine depth ++ ['\x7d']
  | member :: members =>
    ',' :: newLine (depth + 1) ++ printMember (depth + 1) member ++ printMembers depth members

end

/-- A value as text. -/
def Value.print (value : Value) : String :=
  .ofList (printAt 0 value)

end FilterLists.Json
