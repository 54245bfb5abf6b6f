/-
This file reads and writes whole files for the commands. Writing makes the directories that are
missing on the way, so that a command can be told to put its output anywhere; what fails is
reported with the path that was asked for.
-/

import FilterLists.Failure
import FilterLists.Program.Basic

namespace FilterLists

/-- A program that can fail. -/
abbrev Job := ExceptT Failure Program

namespace Job

/-- Ends with what the request is answered with. -/
def request (request : Request) : Job request.Reply :=
  ExceptT.lift (.request request)

/-- Notes entries in the journal. -/
def noteAll (entries : List Journal.Entry) : Job Unit :=
  ExceptT.lift (.noteAll entries)

/-- Shows a line to the user. -/
def printLine (text : String) : Job Unit :=
  ExceptT.lift (.printLine text)

/-- The value of something that did not fail. -/
def ofExcept {ε α : Type} (failure : ε → Failure) : Except ε α → Job α
  | .ok value => pure value
  | .error error => throw (failure error)

/-- The value of something that is there. -/
def ofOption {α : Type} (failure : Failure) : Option α → Job α
  | some value => pure value
  | none => throw failure

end Job

namespace Files

/-- Whether a path leads to a directory. -/
def isDirectory (path : String) : Program Bool := do
  match ← Program.request (.inspect path) with
  | .ok status => return status.isDirectory
  | .error _ => return false

/-- Whether a path leads to anything. -/
def isPresent (path : String) : Program Bool := do
  match ← Program.request (.inspect path) with
  | .ok _ => return true
  | .error _ => return false

/-- Makes the directory at the first of some paths. The others are those of the directories that
it is in, innermost first; they are made too, as far as they are missing. -/
def createDirectories : List String → Program (Except Cause Unit)
  | [] => return .ok ()
  | path :: parents => do
    match ← Program.request (.createDirectory path) with
    | .ok () => return .ok ()
    | .error .notFound =>
      match ← createDirectories parents with
      | .error cause => return .error cause
      | .ok () => settle path (← Program.request (.createDirectory path))
    | .error cause => settle path (.error cause)
where
  /-- A directory that is there need not be made. -/
  settle (path : String) : Except Cause Unit → Program (Except Cause Unit)
    | .ok () => return .ok ()
    | .error cause => do if ← isDirectory path then return .ok () else return .error cause

/-- Makes the content of a file the given text. -/
def save? (path content : String) : Program (Except Cause Unit) := do
  match ← createDirectories (Path.ancestors path) with
  | .error cause => return .error cause
  | .ok () => Program.request (.write path content)

/-- The text of a file. -/
def load (path : String) : Job String := do
  Job.ofExcept (.reading path) (← Job.request (.read path))

/-- Makes the text the content of a file, and makes the directories that are missing. -/
def save (path content : String) : Job Unit := do
  Job.ofExcept (.writing path) (← ExceptT.lift (save? path content))

end Files

end FilterLists
