/-
This file models the file system as a value. A disk knows what lies at each location, which is the
list of names that leads there from the root, and in which directory relative paths start. The
operations are those that the program needs, with the causes for which each of them fails; none
of them changes anything when it fails, and a write takes place as a whole.

There are only files and directories. Links, devices and permissions are not modelled: a file is at
one location, and every file can be read and written. That the system may refuse a request for
reasons of its own is said of requests, not of disks.
-/

import FilterLists.Files.Cause
import FilterLists.Files.Path

namespace FilterLists

/-- The names that lead somewhere from the root. -/
abbrev Location := List String

/-- What lies at a location. -/
inductive Node
  | file (content : ByteArray)
  | directory

/-- A file system. The root is always a directory and has no entry of its own. -/
structure Disk where
  /-- Where relative paths start. -/
  home : Location
  entries : List (Location × Node)

/-- What is known of a file or a directory without opening it. -/
structure Status where
  isDirectory : Bool
  size : Nat
  deriving DecidableEq, Repr

namespace Disk

/-! ### Locations -/

/-- What lies at a location. -/
def get? (disk : Disk) (location : Location) : Option Node :=
  if location = [] then some .directory else disk.entries.lookup location

/-- The disk with something else at a location. -/
def set (disk : Disk) (location : Location) (node : Node) : Disk :=
  { disk with
    entries := (location, node) :: disk.entries.filter fun entry => entry.1 != location }

/-- The disk with nothing at a location. -/
def erase (disk : Disk) (location : Location) : Disk :=
  { disk with entries := disk.entries.filter fun entry => entry.1 != location }

theorem lookup_filter (entries : List (Location × Node)) {location other : Location}
    (different : other ≠ location) :
    (entries.filter fun entry => entry.1 != location).lookup other = entries.lookup other := by
  induction entries with
  | nil => rfl
  | cons entry rest inductionHypothesis =>
    obtain ⟨place, node⟩ := entry
    by_cases here : place = location
    · subst here
      simp [List.lookup_cons, inductionHypothesis, beq_eq_false_iff_ne.mpr different]
    · rw [List.filter_cons_of_pos (by simp [here]), List.lookup_cons, List.lookup_cons,
        inductionHypothesis]

/-- What was put at a location lies there, and nothing else has changed. -/
theorem get?_set (disk : Disk) {location : Location} (node : Node) (inside : location ≠ [])
    (other : Location) :
    (disk.set location node).get? other =
      if other = location then some node else disk.get? other := by
  unfold get? set
  by_cases same : other = location
  · subst same
    simp [inside]
  · simp only [same, if_false, List.lookup_cons, beq_eq_false_iff_ne.mpr same]
    rw [lookup_filter _ same]

/-! ### Where paths lead -/

/-- The longest name that the system allows, in bytes. -/
def maximumNameSize : Nat := 255

/-- The longest path that the system allows, in bytes. -/
def maximumPathSize : Nat := 4095

/-- Where a name leads from a location. The root is its own parent. -/
def step (location : Location) (name : List Char) : Location :=
  if name = ['.'] then location
  else if name = ['.', '.'] then location.dropLast
  else location ++ [.ofList name]

/-- Where names lead from a location. Whatever is left by a name must be a directory; what is
reached in the end may be anything, or nothing. -/
def walk (disk : Disk) (location : Location) : List (List Char) → Except Cause Location
  | [] => .ok location
  | name :: rest =>
    match disk.get? location with
    | none => .error .notFound
    | some (.file _) => .error .notDirectory
    | some .directory =>
      if maximumNameSize < (String.ofList name).utf8ByteSize then .error .nameTooLong
      else disk.walk (step location name) rest

/-- Where names lead from where a path starts. The path must be one that the system accepts. -/
def walkFor (disk : Disk) (path : String) (names : List (List Char)) : Except Cause Location :=
  if path.toList.contains '\x00' then .error .nulInPath
  else if path.isEmpty then .error .notFound
  else if maximumPathSize < path.utf8ByteSize then .error .nameTooLong
  else disk.walk (if Path.isAbsolute path.toList then [] else disk.home) names

/-- Where a path leads. -/
def locate (disk : Disk) (path : String) : Except Cause Location :=
  disk.walkFor path (Path.names path.toList)

/-- Which directory the last name of a path is looked up in. -/
def locateParent (disk : Disk) (path : String) : Except Cause Location :=
  disk.walkFor path ((Path.names path.toList).dropLast ++ [['.']])

/-- Whether a path insists that it leads to a directory: it ends with a slash. -/
def insistsOnDirectory (path : String) : Bool :=
  path.toList.getLast? == some '/'

/-- Whether the last name of a path is one that something can be given. -/
def endsWithName (path : String) : Bool :=
  match (Path.names path.toList).getLast? with
  | none => false
  | some name => name != ['.'] && name != ['.', '.']

/-! ### Operations -/

/-- What a program is told of the size of a directory. -/
def directorySize : Nat := 4096

/-- What is known of what a path leads to. -/
def inspect (disk : Disk) (path : String) : Except Cause Status := do
  match disk.get? (← disk.locate path) with
  | none => .error .notFound
  | some .directory => .ok { isDirectory := true, size := directorySize }
  | some (.file content) =>
    if insistsOnDirectory path then .error .notDirectory
    else .ok { isDirectory := false, size := content.size }

/-- The content of a file. -/
def read (disk : Disk) (path : String) : Except Cause ByteArray := do
  match disk.get? (← disk.locate path) with
  | none => .error .notFound
  | some .directory => .error .isDirectory
  | some (.file content) =>
    if insistsOnDirectory path then .error .notDirectory else .ok content

/-- Where a file can be written, and its content so far. A path that insists on a directory is
refused before its last name is looked up. -/
def writable (disk : Disk) (path : String) : Except Cause (Location × ByteArray) := do
  if insistsOnDirectory path then
    let _ ← disk.locateParent path
    .error .isDirectory
  else
    let location ← disk.locate path
    match disk.get? location with
    | none => .ok (location, .empty)
    | some .directory => .error .isDirectory
    | some (.file content) => .ok (location, content)

/-- Writes a file, which is made if it is not there. Its directory must be there. -/
def write (disk : Disk) (path : String) (content : ByteArray) : Except Cause Disk := do
  let (location, _) ← disk.writable path
  return disk.set location (.file content)

/-- Writes at the end of a file, which is made if it is not there. -/
def append (disk : Disk) (path : String) (content : ByteArray) : Except Cause Disk := do
  let (location, before) ← disk.writable path
  return disk.set location (.file (before ++ content))

/-- Makes a directory. Its own directory must be there. -/
def createDirectory (disk : Disk) (path : String) : Except Cause Disk := do
  let location ← disk.locate path
  match disk.get? location with
  | none => .ok (disk.set location .directory)
  | some _ => .error .alreadyExists

/-- Removes a file. -/
def removeFile (disk : Disk) (path : String) : Except Cause Disk := do
  let location ← disk.locate path
  match disk.get? location with
  | none => .error .notFound
  | some .directory => .error .isDirectory
  | some (.file _) =>
    if insistsOnDirectory path then .error .notDirectory else .ok (disk.erase location)

/-- Removes whatever lies at or below a location. -/
def removeTree (disk : Disk) (location : Location) : Disk :=
  { disk with entries := disk.entries.filter fun entry => !location.isPrefixOf entry.1 }

/-- Moves whatever lies at or below one location to another. -/
def moveTree (disk : Disk) (source target : Location) : Disk :=
  { disk with
    entries := disk.entries.map fun entry =>
      match source.isPrefixOf? entry.1 with
      | some below => (target ++ below, entry.2)
      | none => entry }

/-- Moves a file or a directory. A file takes the place of another file, and a directory that of
an empty one. What is moved, and where to, must be given by name. -/
def rename (disk : Disk) (source target : String) : Except Cause Disk := do
  let sourceLocation ← disk.locate source
  let targetLocation ← disk.locate target
  if !endsWithName source ∨ !endsWithName target then throw .busy
  match disk.get? sourceLocation, disk.get? targetLocation with
  | none, _ => .error .notFound
  | some (.file content), there =>
    if insistsOnDirectory source ∨ insistsOnDirectory target then .error .notDirectory
    else
      match there with
      | some .directory => .error .isDirectory
      | _ => .ok ((disk.erase sourceLocation).set targetLocation (.file content))
  | some .directory, there =>
    if sourceLocation = targetLocation then .ok disk
    else if sourceLocation.isPrefixOf targetLocation then .error .invalidMove
    else
      match there with
      | some (.file _) => .error .notDirectory
      | some .directory =>
        if disk.entries.any fun entry =>
            targetLocation.isPrefixOf entry.1 && entry.1 != targetLocation then
          .error .notEmpty
        else .ok ((disk.removeTree targetLocation).moveTree sourceLocation targetLocation)
      | none => .ok (disk.moveTree sourceLocation targetLocation)

/-! ### Listing -/

/-- Whether a location comes before another: by the first name that differs, in the order of its
characters, and a directory before what it holds. -/
def comesBefore : Location → Location → Bool
  | [], _ => true
  | _ :: _, [] => false
  | name :: rest, otherName :: otherRest =>
    if name = otherName then comesBefore rest otherRest else name < otherName

/-- What lies below the directory where relative paths start, each with the names that lead there
from it. -/
def listing (disk : Disk) : List (Location × Node) :=
  (disk.entries.filterMap fun (location, node) =>
    match disk.home.isPrefixOf? location with
    | some (name :: rest) => some (name :: rest, node)
    | _ => none).mergeSort fun first second => comesBefore first.1 second.1

end Disk

end FilterLists
