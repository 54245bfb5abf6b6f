/-
This file names the causes for which an operation on files can fail, and words them the way the
operating system does.
-/

namespace FilterLists

/-- Why an operation on files failed. -/
inductive Cause
  | notFound
  | isDirectory
  | notDirectory
  | alreadyExists
  | nameTooLong
  | busy
  | nulInPath
  | notEmpty
  /-- A directory cannot be moved into itself. -/
  | invalidMove
  | notText
  | other (message : String)
  deriving DecidableEq, Repr

namespace Cause

def message : Cause → String
  | notFound => "No such file or directory (os error 2)"
  | isDirectory => "Is a directory (os error 21)"
  | notDirectory => "Not a directory (os error 20)"
  | alreadyExists => "File exists (os error 17)"
  | nameTooLong => "File name too long (os error 36)"
  | busy => "Device or resource busy (os error 16)"
  | nulInPath => "file name contained an unexpected NUL byte"
  | notEmpty => "Directory not empty (os error 39)"
  | invalidMove => "Invalid argument (os error 22)"
  | notText => "stream did not contain valid UTF-8"
  | other message => message

end Cause

end FilterLists
