/-
This file holds the settings of the program and reads them from a configuration, which is a TOML
document. A setting that the document does not have keeps its standard value, and keys that the
program does not know are passed over.
-/

import FilterLists.Files.Access
import FilterLists.Toml.Reader

namespace FilterLists

/-- The files of the three containers. -/
structure ContainerFiles where
  first : String
  second : String
  third : String
  deriving DecidableEq, Repr

namespace ContainerFiles

def standard : ContainerFiles where
  first := "blockerList.json"
  second := "blockerList2.json"
  third := "blockerList3.json"

def toList (files : ContainerFiles) : List String :=
  [files.first, files.second, files.third]

end ContainerFiles

/-- The settings of the program. -/
structure Settings where
  /-- How many rules a container takes. -/
  capacity : Nat := engineCapacity
  containers : ContainerFiles := .standard
  /-- Where the containers and the resources for pages are written. -/
  outputDirectory : String := "."
  /-- Where the filter lists are. -/
  listsDirectory : String := "."
  /-- Where the activity log is, if one is kept. -/
  logFile : Option String := none
  /-- The size in bytes over which the activity log is not added to. -/
  maximumLogSize : Nat := 1024 * 1024
  deriving DecidableEq, Repr

namespace Settings

def limits (settings : Settings) : Limits :=
  { capacity := settings.capacity }

/-- Where the containers are written, in order. -/
def containerPaths (settings : Settings) : List String :=
  settings.containers.toList.map (Path.join settings.outputDirectory)

/-! ### Reading -/

open Toml in
/-- The value of a key, or the standard value if the key is missing. -/
def field? {α : Type} (document : Members) (key : String) (standard : α)
    (read : Value → Option α) : Option α :=
  match document.get? key with
  | none => some standard
  | some value => read value

open Toml in
/-- A number that is not negative. -/
def readNatural? : Value → Option Nat
  | .integer (.ofNat value) => some value
  | _ => none

open Toml in
def readText? : Value → Option String
  | .string content => some content
  | _ => none

open Toml in
/-- The files of the containers are a list of strings. There are at least three; what follows
them is passed over. -/
def readContainers? : Value → Option ContainerFiles
  | .array (first :: second :: third :: _) => do
    some { first := ← readText? first, second := ← readText? second, third := ← readText? third }
  | _ => none

/-- The settings of a configuration, or nothing if the text is none. -/
def parse? (text : String) : Option Settings := do
  let document ← Toml.parse? text
  let standard : Settings := {}
  some {
    capacity := ← field? document "capacity" standard.capacity readNatural?
    containers := ← field? document "containers" standard.containers readContainers?
    outputDirectory := ← field? document "output_dir" standard.outputDirectory readText?
    listsDirectory := ← field? document "lists_dir" standard.listsDirectory readText?
    logFile := ← field? document "log_file" standard.logFile fun value =>
      (readText? value).map some
    maximumLogSize := ← field? document "max_log_bytes" standard.maximumLogSize readNatural? }

/-- The settings of the configuration in a file, or the standard ones if no file is given. -/
def load : Option String → Job Settings
  | none => return {}
  | some path => do Job.ofOption (.badConfiguration path) (parse? (← Files.load path))

end Settings

end FilterLists
