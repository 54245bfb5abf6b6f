/-
This file says which JSON values can be kept in memory before it is known what they are for. Such
a value must be definite: every string in it says something, and every number is within range.
How deep it is nested matters too, for a reader that keeps it does so on a stack.
-/

import FilterLists.Json.Range
import FilterLists.Json.Value

namespace FilterLists.Json

mutual

/-- How deep the lists and objects of a value are nested. -/
def Value.depth : Value → Nat
  | .array items => depthOfItems items + 1
  | .object members => depthOfMembers members + 1
  | _ => 0

def depthOfItems : List Value → Nat
  | [] => 0
  | item :: items => max item.depth (depthOfItems items)

def depthOfMembers : List (Content × Value) → Nat
  | [] => 0
  | (_, value) :: members => max value.depth (depthOfMembers members)

end

mutual

/-- Whether all strings of a value say something and all its numbers are within range. -/
def Value.isDefinite : Value → Bool
  | .number numeral => Json.isInRange numeral
  | .string content => content.isSome
  | .array items => areDefinite items
  | .object members => membersAreDefinite members
  | _ => true

def areDefinite : List Value → Bool
  | [] => true
  | item :: items => item.isDefinite && areDefinite items

def membersAreDefinite : List (Content × Value) → Bool
  | [] => true
  | (name, value) :: members => name.isSome && value.isDefinite && membersAreDefinite members

end

end FilterLists.Json
