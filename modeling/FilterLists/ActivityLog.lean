/-
This file keeps an activity log: a file to which entries are added, each with the time before it.
When the file has grown over a limit, the next entry starts a new one, and the old one is kept as
a backup in place of the backup before it. So at most two files are ever kept.
-/

import FilterLists.Program.Basic
import FilterLists.Timestamp

namespace FilterLists

/-- An activity log: its file, and the size in bytes over which the file is not added to. -/
structure ActivityLog where
  path : String
  maximumSize : Nat
  deriving DecidableEq, Repr

namespace ActivityLog

/-- The file that is kept when a new one is started. -/
def backupPath (log : ActivityLog) : String :=
  log.path ++ ".old"

/-- What is written for a message at a time. -/
def entry (time : Nat) (message : String) : String :=
  "[" ++ Timestamp.render time ++ "] " ++ message ++ "\n"

/-- How a request ended, where it does not matter that a file was not there. -/
def unlessMissing : Except Cause Unit → Except Cause Unit
  | .error .notFound => .ok ()
  | outcome => outcome

/-- Makes the file of the log its backup. -/
def rotate (log : ActivityLog) : Program (Except Cause Unit) := do
  match unlessMissing (← .request (.removeFile log.backupPath)) with
  | .error cause => return .error cause
  | .ok () => .request (.rename log.path log.backupPath)

/-- Makes the file of the log its backup if it is over the limit. -/
def rotateIfFull (log : ActivityLog) : Program (Except Cause Unit) := do
  match ← Program.request (.inspect log.path) with
  | .error .notFound => return .ok ()
  | .error cause => return .error cause
  | .ok status => if log.maximumSize < status.size then log.rotate else return .ok ()

/-- Adds an entry. -/
def append (log : ActivityLog) (message : String) : Program (Except Cause Unit) := do
  match ← log.rotateIfFull with
  | .error cause => return .error cause
  | .ok () => .request (.append log.path (entry (← .request .time) message))

/-- The entries since the file was started. A log that has no file has no entries. -/
def read (log : ActivityLog) : Program (Except Cause String) := do
  match ← Program.request (.read log.path) with
  | .error .notFound => return .ok ""
  | outcome => return outcome

/-- Removes the file of the log, but not its backup. -/
def clear (log : ActivityLog) : Program (Except Cause Unit) := do
  return unlessMissing (← .request (.removeFile log.path))

/-- Adds an entry of the journal, if the limit admits it. That the log cannot be written is no
reason to stop what is being logged, so then the entry is lost. -/
def record (log : ActivityLog) (limit : Journal.Limit) (entry : Journal.Entry) : Program Unit := do
  if limit.admits entry.level then
    let _ ← log.append entry.line

end ActivityLog

end FilterLists
