/-
This file turns arguments into invocations: which command is to be run, with what, and with which
configuration and activity log. Two options, for these, are known before the command as well as
after it.
-/

import FilterLists.CommandLine.Arguments

namespace FilterLists.CommandLine

/-- What the program is to do. -/
inductive Command
  | apply (manifest : String) (capacity : Option Nat)
      (outputDirectory listsDirectory : Option String)
  | convert (input : String) (outputDirectory : Option String) (verbose : Bool)
  | stats (manifest : String) (listsDirectory : Option String)
  | translate (pattern : String)
  | bundle (input output : String)
  | log (clear : Bool)
  deriving DecidableEq, Repr

/-- A command and what holds for every command: the configuration, and an activity log other than
the configured one. -/
structure Invocation where
  configuration : Option String := none
  logFile : Option String := none
  command : Command
  deriving DecidableEq, Repr

/-! ### Shapes of commands -/

structure OperandShape where
  name : String
  about : String
  deriving DecidableEq, Repr

def OperandShape.call (shape : OperandShape) : String :=
  "<" ++ shape.name ++ ">"

structure CommandShape where
  about : String
  options : List OptionShape := []
  operands : List OperandShape := []
  deriving DecidableEq, Repr

namespace CommandShape

/-- The options that are known before a command and after it. -/
def commonOptions : List OptionShape :=
  [{ long := "config", short := some 'c', about := "TOML config file" },
    { long := "log-file", about := "Write logs to this rotating file instead of stderr" }]

def manifest : OptionShape where
  long := "manifest"
  short := some 'm'
  absence := .replaced "lists.json"
  about := "Filter list manifest"

def listsDirectory : OptionShape where
  long := "lists-dir"
  short := some 'l'
  about := "Directory holding downloaded lists and the conversion cache"

/-- The option that names the directory for what is written. -/
def outputDirectory (about : String) : OptionShape where
  long := "output-dir"
  short := some 'o'
  about := about

/-- The commands that there are, by name. -/
def all : List (String × CommandShape) :=
  [("apply", {
      about := "Convert every selected list and write the container files"
      options := [
        manifest,
        { long := "capacity", kind := .number, about := "Maximum rules per container" },
        outputDirectory "Directory for container files and page resources",
        listsDirectory] }),
    ("convert", {
      about := "Convert a single filter list file"
      options := [
        { long := "input", short := some 'i', absence := .refused
          about := "Input filter list file" },
        outputDirectory
          "Write `<stem>.json`, `<stem>_advanced.json` and `<stem>_scriptlets.json` here",
        { long := "verbose", short := some 'v', kind := .flag, about := "Verbose output" }] }),
    ("stats", {
      about := "Show rule counts for the selected lists"
      options := [manifest, listsDirectory] }),
    ("translate", {
      about := "Print the engine regex for a filter pattern"
      operands := [{ name := "PATTERN", about := "ABP/uBO URL pattern" }] }),
    ("scriptlet-bundle", {
      about := "Resolve a scriptlet container into one JavaScript bundle"
      options := [
        { long := "input", short := some 'i', absence := .replaced "blockerList3.json"
          about := "Container file with scriptlet rules" },
        { long := "output", short := some 'o', absence := .replaced "scriptlets.js"
          about := "Output script" }] }),
    ("log", {
      about := "Show or clear the activity log"
      options := [
        { long := "clear", kind := .flag
          about := "Delete the current log instead of printing it" }] })]

end CommandShape

/-- The command of a name with what is given for it, if nothing that it needs is missing. -/
def Command.ofGiven? (name : String) (given : Given) : Option Command := do
  let outputDirectory := given.value? "output-dir"
  let listsDirectory := given.value? "lists-dir"
  match name, given.operands with
  | "apply", [] =>
    let capacity := (given.value? "capacity").bind number?
    return apply (← given.value? "manifest") capacity outputDirectory listsDirectory
  | "convert", [] =>
    return convert (← given.value? "input") outputDirectory (given.has "verbose")
  | "stats", [] => return stats (← given.value? "manifest") listsDirectory
  | "translate", [pattern] => return translate pattern
  | "scriptlet-bundle", [] =>
    return bundle (← given.value? "input") (← given.value? "output")
  | "log", [] => return log (given.has "clear")
  | _, _ => none

/-! ### Wishes -/

inductive Topic
  | program
  | command (name : String) (shape : CommandShape)
  | help
  deriving DecidableEq, Repr

/-- What arguments ask for. -/
inductive Wish
  | help (topic : Topic)
  | run (invocation : Invocation)
  deriving DecidableEq, Repr

namespace Wish

/-- The wish for help with a command, whose name follows, or with all of them. -/
def ofHelp? : List String → Option Wish
  | [] => some (help .program)
  | ["help"] => some (help .help)
  | [name] => (CommandShape.all.lookup name).map fun shape => help (.command name shape)
  | _ => none

/-- What arguments ask for, or nothing if they make no sense. Of a common option that is given
before the command and after it, the latter counts. A value that comes last before the command is
looked at last of all, so help with the command goes before it. -/
def parse? (arguments : List String) : Option Wish := do
  let (before, rest) ← read? CommandShape.commonOptions .command {} arguments
  if before.given.help then return help .program
  let name :: rest := rest | none
  if name = "help" then ofHelp? rest
  else
    let shape ← CommandShape.all.lookup name
    let options := shape.options ++ CommandShape.commonOptions
    let (after, _) ← read? options (.upTo shape.operands.length) {} rest
    if after.given.help then return help (.command name shape)
    let before ← before.settle?
    let after ← (← after.settle?).complete? options
    return run {
      configuration := (after.value? "config").or (before.value? "config")
      logFile := (after.value? "log-file").or (before.value? "log-file")
      command := ← Command.ofGiven? name after }

end Wish

end FilterLists.CommandLine
