/-
This file runs the program on a real system. It answers the requests of programs -- files, the
clock, what is shown to the user -- and decides nothing: what a command does is said elsewhere.
-/

import FilterLists.CommandLine.Commands
import FilterLists.CommandLine.Help
import FilterLists.Program.World
import Std.Time.DateTime

namespace FilterLists.Host

/-- The cause of a failed operation. -/
def causeOf : IO.Error → Cause
  | .noFileOrDirectory .. => .notFound
  | .alreadyExists _ code details => ofCode code details
  | .inappropriateType _ code details => ofCode code details
  | .resourceExhausted _ code details => ofCode code details
  | .invalidArgument _ code details => ofCode code details
  | .permissionDenied _ code details => ofCode code details
  | .noSuchThing _ code details => ofCode code details
  | .resourceBusy code details => ofCode code details
  | .otherError code details => ofCode code details
  | .userError details => .other details
  | other => .other (toString other)
where
  ofCode (code : UInt32) (details : String) : Cause :=
    if code = 2 then .notFound
    else if code = 16 then .busy
    else if code = 17 then .alreadyExists
    else if code = 20 then .notDirectory
    else if code = 21 then .isDirectory
    else if code = 22 then .invalidMove
    else if code = 36 then .nameTooLong
    else if code = 39 then .notEmpty
    else .other (details ++ " (os error " ++ toString code ++ ")")

/-- How an operation ended. -/
def attempt {α : Type} (operation : IO α) : IO (Except Cause α) := do
  try
    return .ok (← operation)
  catch error =>
    return .error (causeOf error)

/-- The content of a file as text. -/
def readText (path : String) : IO (Except Cause String) := do
  match ← attempt (IO.FS.readBinFile path) with
  | .ok content => return World.decode content
  | .error cause => return .error cause

/-- Adds a text to the end of a file. -/
def appendText (path content : String) : IO Unit := do
  let file ← IO.FS.Handle.mk path .append
  file.putStr content

/-- What is known of a file or a directory. What is there but cannot be read counts as an empty
file. -/
def inspect (path : String) : IO (Except Cause Status) := do
  match ← attempt (IO.FS.readBinFile path) with
  | .ok content => return .ok { isDirectory := false, size := content.size }
  | .error .isDirectory => return .ok { isDirectory := true, size := Disk.directorySize }
  | .error (.other _) => return .ok { isDirectory := false, size := 0 }
  | .error cause => return .error cause

/-- Answers a request. -/
def answer : (request : Request) → IO request.Reply
  | .read path => readText path
  | .write path content => attempt (IO.FS.writeFile path content)
  | .append path content => attempt (appendText path content)
  | .inspect path => inspect path
  | .createDirectory path => attempt (IO.FS.createDir path)
  | .removeFile path => attempt (IO.FS.removeFile path)
  | .rename source target => attempt (IO.FS.rename source target)
  | .print text => do
    let output ← IO.getStdout
    output.putStr text
    output.flush
  | .note entry => do
    if CommandLine.logLimit.admits entry.level then IO.eprintln entry.line
  | .time => do
    let now ← Std.Time.Timestamp.now
    return now.toSecondsSinceUnixEpoch.val.toNat
  | .ticks => IO.monoNanosNow

/-- Carries out a program. -/
def perform {α : Type} : Program α → IO α
  | .done value => return value
  | .ask request next => do perform (next (← answer request))

end FilterLists.Host

open FilterLists in
/-- Runs the program on its arguments. It ends with 1 if a command fails, and with 2 if the
arguments make no sense. -/
def main (arguments : List String) : IO UInt32 := do
  match CommandLine.Wish.parse? arguments with
  | none =>
    CommandLine.Topic.program.lines.forM IO.eprintln
    return 2
  | some (.help topic) =>
    topic.lines.forM IO.println
    return 0
  | some (.run invocation) =>
    match ← Host.perform invocation.run with
    | .ok () => return 0
    | .error failure =>
      IO.eprintln ("Error: " ++ failure.message)
      return 1
