/-
This file writes what is shown to a user who asks for help: what the program or a command is for,
how it is called, and what can be given to it.
-/

import FilterLists.CommandLine.Invocation
import FilterLists.Text.Padding

namespace FilterLists.CommandLine

/-! ### Pages -/

/-- Things with what is said of each of them, under a title. -/
structure HelpSection where
  title : String
  rows : List (String × String)

/-- A page of help. -/
structure HelpPage where
  about : String
  usage : String
  sections : List HelpSection

/-- The lines of a section. What is said of its things lines up. -/
def HelpSection.lines (part : HelpSection) : List String :=
  let width := (part.rows.map fun row => row.1.length).foldl max 0
  ("" :: (part.title ++ ":") :: part.rows.map fun (thing, about) =>
    "  " ++ Text.padRight width thing ++ "  " ++ about)

/-- The lines of a page. -/
def HelpPage.lines (page : HelpPage) : List String :=
  [page.about, "", "Usage: " ++ page.usage] ++ page.sections.flatMap HelpSection.lines

/-! ### Rows -/

/-- The name under which a value is asked for. -/
def valueName (name : String) : String :=
  .ofList (name.toList.map fun character => if character = '-' then '_' else character.toUpper)

/-- How an option is called by its long name. -/
def OptionShape.longCall (shape : OptionShape) : String :=
  "--" ++ shape.long
    ++ (if shape.kind = .flag then "" else " <" ++ valueName shape.long ++ ">")

/-- The row of an option. -/
def OptionShape.row (shape : OptionShape) : String × String :=
  let short := match shape.short with
    | some letter => String.ofList ['-', letter, ',', ' ']
    | none => "    "
  let fallback := match shape.absence with
    | .replaced value => " [default: " ++ value ++ "]"
    | _ => ""
  (short ++ shape.longCall, shape.about ++ fallback)

/-- What an option is sorted by: its short name, or its long one if it has no other. -/
def OptionShape.key (shape : OptionShape) : List Char :=
  match shape.short with
  | some letter => [letter]
  | none => shape.long.toList

/-- Options of two kinds as they are shown together. Both keep their order, and of two that have
the same place in it the one that comes first in the alphabet is shown first. -/
def interleave : List OptionShape → List OptionShape → List OptionShape
  | first :: rest, other :: others =>
    (if first.key < other.key then [first, other] else [other, first]) ++ interleave rest others
  | [], others => others
  | shapes, [] => shapes

/-- The section of the options. Help can be asked for everywhere. -/
def optionSection (shapes : List OptionShape) : HelpSection where
  title := "Options"
  rows := shapes.map OptionShape.row ++ [("-h, --help", "Print help")]

/-! ### Topics -/

/-- What the command for help says of itself. -/
def aboutHelp : String := "Print this message or the help of the given subcommand(s)"

/-- The page of the whole program. -/
def programPage : HelpPage where
  about := "Filter list to content blocker converter and tools"
  usage := "cb-cli [OPTIONS] <COMMAND>"
  sections := [
    { title := "Commands"
      rows := CommandShape.all.map (fun (name, shape) => (name, shape.about))
        ++ [("help", aboutHelp)] },
    optionSection CommandShape.commonOptions]

/-- The page of a command. -/
def CommandShape.page (name : String) (shape : CommandShape) : HelpPage where
  about := shape.about
  usage := " ".intercalate (["cb-cli", name, "[OPTIONS]"]
    ++ (shape.options.filter fun option => option.absence = .refused).map OptionShape.longCall
    ++ shape.operands.map OperandShape.call)
  sections :=
    (if shape.operands = [] then []
      else [{
        title := "Arguments"
        rows := shape.operands.map fun operand => (operand.call, operand.about) }])
    ++ [optionSection (interleave CommandShape.commonOptions shape.options)]

/-- The page of the command for help. -/
def helpPage : HelpPage where
  about := aboutHelp
  usage := "cb-cli help [COMMAND]..."
  sections := [
    { title := "Arguments", rows := [("[COMMAND]...", "Print help for the subcommand(s)")] }]

/-- The lines that are shown about a topic. -/
def Topic.lines : Topic → List String
  | program => programPage.lines
  | help => helpPage.lines
  | command name shape => (shape.page name).lines

end FilterLists.CommandLine
