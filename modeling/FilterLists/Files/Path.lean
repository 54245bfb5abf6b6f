/-
This file takes file paths apart and puts them together. A path is text: names with slashes
between them, absolute if it starts with a slash. Joined paths and the paths of enclosing
directories keep the text as it was given. A path is taken apart only at names that make a
difference to where it leads, so not at empty names and, except at the start, not at the name `.`.
-/

import FilterLists.Text.Split

namespace FilterLists.Path

/-- Whether a path starts at the root, given as characters. -/
def isAbsolute : List Char → Bool
  | '/' :: _ => true
  | _ => false

/-- The path of a file that is named relative to a directory. An absolute name leads to the same
file from everywhere. -/
def join (directory name : String) : String :=
  if isAbsolute name.toList then name
  else if directory.isEmpty ∨ directory.toList.getLast? = some '/' then directory ++ name
  else directory ++ "/" ++ name

/-- The names of a path, empty ones left out. -/
def names (path : List Char) : List (List Char) :=
  (Text.splitOn '/' path).filter fun name => !name.isEmpty

/-- A name in a path. -/
structure Part where
  name : List Char
  /-- How many characters of the path stand before the end of the name. -/
  stop : Nat

/-- Names with a slash between any two neighbours as the parts of a path, the first of which
begins at `start`. -/
def partsFrom (start : Nat) : List (List Char) → List Part
  | [] => []
  | name :: rest =>
    { name, stop := start + name.length } :: partsFrom (start + name.length + 1) rest

/-- The parts of a path that tell where it leads: those with a name, where the name `.` counts
only at the very start. -/
def parts (path : List Char) : List Part :=
  match partsFrom 0 (Text.splitOn '/' path) with
  | [] => []
  | first :: rest =>
    (if first.name = [] then [] else [first])
      ++ rest.filter fun part => part.name != [] && part.name != ['.']

/-- The paths of the directories that a path leads through, innermost first. Each is the path as
it was given, as far as the name of the directory. Neither the root nor the directory where
relative paths start is among them. -/
def ancestors (path : String) : List String :=
  (parts path.toList).dropLast.reverse.map fun part => .ofList (path.toList.take part.stop)

/-- The last name of a path, unless it leads to a directory by `.` or `..`. -/
def fileName? (path : List Char) : Option (List Char) :=
  match (parts path).getLast? with
  | none => none
  | some part => if part.name = ['.'] ∨ part.name = ['.', '.'] then none else some part.name

/-- The last name of a path without its extension, which is the last dot and what follows it. A
dot at the start of a name starts no extension. -/
def stem (path : String) : String :=
  match fileName? path.toList with
  | none => ""
  | some name =>
    match (name.reverse.dropWhile (· != '.')).drop 1 with
    | [] => .ofList name
    | reversed => .ofList reversed.reverse

end FilterLists.Path
