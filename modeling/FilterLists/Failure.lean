/-
This file names the failures that end a command, and words them for the user.
-/

import FilterLists.Containers
import FilterLists.Files.Cause
import FilterLists.Scriptlet.Catalog

namespace FilterLists

/-- Why a command could not be carried out. -/
inductive Failure
  | reading (path : String) (cause : Cause)
  | writing (path : String) (cause : Cause)
  | badJson (path : String)
  | badConfiguration (path : String)
  | distribution (error : DistributionError)
  | scriptlet (error : Scriptlet.UnknownScriptlet)
  /-- There is no activity log to show or clear. -/
  | noActivityLog
  deriving DecidableEq, Repr

namespace Failure

def message : Failure → String
  | reading path cause => "Failed to read '" ++ path ++ "': " ++ cause.message
  | writing path cause => "Failed to write '" ++ path ++ "': " ++ cause.message
  | badJson path => "Invalid JSON in '" ++ path ++ "'"
  | badConfiguration path => "Invalid config '" ++ path ++ "'"
  | distribution error => error.message
  | scriptlet error => error.message
  | noActivityLog => "No activity log configured (set log_file or pass --log-file)"

end Failure

end FilterLists
