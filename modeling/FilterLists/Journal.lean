/-
This file defines what the program reports about its work while it does it. A report has a level,
so that a reader can choose how much to see, and a target, the part of the program that it comes
from.
-/

namespace FilterLists.Journal

/-- How much a report matters. -/
inductive Level
  | error
  | warn
  | info
  | debug
  | trace
  deriving DecidableEq, Repr

namespace Level

def all : List Level := [error, warn, info, debug, trace]

def name : Level → String
  | error => "ERROR"
  | warn => "WARN"
  | info => "INFO"
  | debug => "DEBUG"
  | trace => "TRACE"

/-- How many levels matter as much or more. -/
def rank : Level → Nat
  | error => 1
  | warn => 2
  | info => 3
  | debug => 4
  | trace => 5

/-- The level of a name, in capital or small letters. -/
def ofName? (name : String) : Option Level :=
  all.find? fun level => level.name == name.toUpper

end Level

/-- How much of a journal is kept: everything down to a level, or nothing. -/
inductive Limit
  | off
  | downTo (level : Level)
  deriving DecidableEq, Repr

namespace Limit

/-- Whether reports of a level are kept. -/
def admits : Limit → Level → Bool
  | off, _ => false
  | downTo limit, level => level.rank ≤ limit.rank

/-- The limit of a name, in capital or small letters. -/
def ofName? (name : String) : Option Limit :=
  if name.toUpper == "OFF" then some off else (Level.ofName? name).map downTo

end Limit

/-- The parts of the program that make reports. -/
inductive Target
  | program
  | lists
  | publication
  | bundle
  | conversion
  | distribution
  | catalog
  /-- Any other origin. -/
  | other (name : String)
  deriving DecidableEq, Repr

namespace Target

def name : Target → String
  | program => "cb_cli"
  | lists => "cb_cli::lists"
  | publication => "cb_cli::apply"
  | bundle => "cb_cli::bundle"
  | conversion => "cb_compiler::converter"
  | distribution => "cb_compiler::distributor"
  | catalog => "cb_core::scriptlet"
  | other name => name

end Target

/-- One report. -/
structure Entry where
  level : Level
  target : Target
  message : String
  deriving DecidableEq, Repr

/-- A report with its level and target, as it is written to an activity log. -/
def Entry.line (entry : Entry) : String :=
  entry.level.name ++ " " ++ entry.target.name ++ ": " ++ entry.message

end FilterLists.Journal
