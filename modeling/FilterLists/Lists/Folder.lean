/-
This file keeps the sources of filter lists and what they were converted to. A list `easylist`
lies in its folder as `easylist.txt`. Converting it leaves three files next to the
source, one for each tier: `easylist.json`, `easylist_advanced.json` and
`easylist_scriptlets.json`. The next time the rules are read from these.

The file of the standard tier is written last, and it is the one that says that the list has been
converted. So a conversion that is broken off is done again.
-/

import FilterLists.Document
import FilterLists.Files.Access
import FilterLists.Rule.Record

namespace FilterLists

/-! ### Files of rules -/

namespace Rule

/-- The rules in a file. -/
def loadAll (path : String) : Job (List Rule) := do
  Job.ofOption (.badJson path) (decode? (← Files.load path))

/-- The rules in a file, which are none if the file is not there. -/
def loadAllIfPresent (path : String) : Job (List Rule) := do
  if ← ExceptT.lift (Files.isPresent path) then loadAll path else return []

/-- Makes rules the content of a file. -/
def saveAll (path : String) (rules : List Rule) : Job Unit :=
  Files.save path (encode rules)

end Rule

/-! ### Folders -/

/-- A directory with filter lists and what they were converted to. -/
structure ListFolder where
  directory : String
  deriving DecidableEq, Repr

namespace ListFolder

/-- Where the source of a list is. -/
def sourcePath (folder : ListFolder) (name : String) : String :=
  Path.join folder.directory (name ++ ".txt")

/-- What the name of a list is followed by in the name of the file for a tier. -/
def suffix : Tier → String
  | .standard => ".json"
  | .advanced => "_advanced.json"
  | .scriptlet => "_scriptlets.json"

/-- Where the rules of a tier of a list are. -/
def convertedPath (folder : ListFolder) (name : String) (tier : Tier) : String :=
  Path.join folder.directory (name ++ suffix tier)

/-- Whether a list has been converted. -/
def isConverted (folder : ListFolder) (name : String) : Program Bool :=
  Files.isPresent (folder.convertedPath name .standard)

/-- The rules that a list was converted to. -/
def loadConverted (folder : ListFolder) (name : String) : Job TieredRules := do
  return {
    standard := ← Rule.loadAll (folder.convertedPath name .standard)
    advanced := ← Rule.loadAllIfPresent (folder.convertedPath name .advanced)
    scriptlet := ← Rule.loadAllIfPresent (folder.convertedPath name .scriptlet) }

/-- What is reported when the rules of a list have been saved. -/
def savedEntry (name : String) (rules : TieredRules) : Journal.Entry where
  level := .info
  target := .lists
  message := "Saved " ++ toString rules.size ++ " rules for '" ++ name ++ "' ("
    ++ toString rules.advanced.length ++ " advanced, "
    ++ toString rules.scriptlet.length ++ " scriptlet)"

/-- Saves the rules that a list was converted to, those of the standard tier last. -/
def saveConverted (folder : ListFolder) (name : String) (rules : TieredRules) : Job Unit := do
  Rule.saveAll (folder.convertedPath name .advanced) rules.advanced
  Rule.saveAll (folder.convertedPath name .scriptlet) rules.scriptlet
  Rule.saveAll (folder.convertedPath name .standard) rules.standard
  Job.noteAll [savedEntry name rules]

/-- What is reported when a list has neither been converted nor has a source. -/
def missingEntry (folder : ListFolder) (name : String) : Journal.Entry where
  level := .warn
  target := .lists
  message := "Filter list '" ++ name ++ "' has no source at " ++ folder.sourcePath name

/-- What is reported when a list is about to be converted. -/
def convertingEntry (name : String) : Journal.Entry where
  level := .info
  target := .lists
  message := "Converting filter: " ++ name

/-- Converts a list and saves what it is converted to. -/
def convert (folder : ListFolder) (name : String) : Job TieredRules := do
  Job.noteAll [convertingEntry name]
  let text ← Files.load (folder.sourcePath name)
  let conversion := Document.convert text
  Job.noteAll conversion.journal
  folder.saveConverted name conversion.rules
  return conversion.rules

/-- The rules of a list: those that it was converted to, or else those of its source, which is
then converted. A list with neither has no rules to give. -/
def load (folder : ListFolder) (name : String) : Job (Option TieredRules) := do
  if ← ExceptT.lift (folder.isConverted name) then return some (← folder.loadConverted name)
  else if ← ExceptT.lift (Files.isPresent (folder.sourcePath name)) then
    return some (← folder.convert name)
  else
    Job.noteAll [folder.missingEntry name]
    return none

/-- How many rules a list has: as many as it was converted to, or else as many as its source
holds at most. -/
def countRules (folder : ListFolder) (name : String) : Job Nat := do
  if ← ExceptT.lift (folder.isConverted name) then return (← folder.loadConverted name).size
  else if ← ExceptT.lift (Files.isPresent (folder.sourcePath name)) then
    return Document.estimate (← Files.load (folder.sourcePath name))
  else return 0

end ListFolder

end FilterLists
