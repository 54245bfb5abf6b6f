/-
This file carries out the commands of the program: what each of them does, and what it shows to
the user. What a command notes in the journal goes to the activity log if there is one, and to
the surroundings otherwise.
-/

import FilterLists.ActivityLog
import FilterLists.CommandLine.Invocation
import FilterLists.Lists.Manifest
import FilterLists.Publication
import FilterLists.Scriptlet.Bundle
import FilterLists.Text.Padding

namespace FilterLists.CommandLine

/-! ### Texts -/

/-- A span of time that is given in nanoseconds, in milliseconds with one decimal place. -/
def milliseconds (nanoseconds : Nat) : String :=
  let tenths := (nanoseconds + 50000) / 100000
  toString (tenths / 10) ++ "." ++ toString (tenths % 10) ++ "ms"

/-- Shows lines to the user. -/
def printLines : List String → Job Unit
  | [] => return ()
  | line :: rest => do
    Job.printLine line
    printLines rest

/-- Shows how much time has passed since a reading of the clock. -/
def printTime (start : Nat) : Job Unit := do
  let now ← Job.request .ticks
  Job.printLine ("  Time:      " ++ milliseconds (now - start))

/-! ### Publishing -/

/-- What is reported of the progress of a publication. -/
def progressEntry (progress : Progress) : Journal.Entry where
  level := .info
  target := .program
  message := "Progress: " ++ toString progress.percent ++ "%"

/-- What is shown of a publication. -/
def publicationLines (selected capacity : Nat) (publication : Publication) : List String :=
  ["Applied " ++ toString selected ++ " selected filter lists",
    "  Converted: " ++ toString publication.converted]
  ++ (if publication.missing = 0 then []
    else ["  Missing:   " ++ toString publication.missing ++ " (not downloaded)"])
  ++ publication.plan.containers.zipIdx.map (fun (rules, index) =>
    "  Container " ++ toString (index + 1) ++ ": " ++ toString rules.length ++ " rules")
  ++ (if publication.plan.dropped.total = 0 then []
    else ["  Dropped:   " ++ toString publication.plan.dropped.total
      ++ " rules over capacity " ++ toString capacity])
  ++ publication.written.map fun path => "  Wrote:     " ++ path

/-- Publishes the selected lists of a manifest. -/
def publishSelected (settings : Settings) (manifest : String) : Job Unit := do
  let start ← Job.request .ticks
  let lists := Manifest.selected (← Manifest.load manifest)
  let publication ← Publication.publish settings
    (fun progress => Program.request (.note (progressEntry progress)))
    (lists.map FilterList.name)
  printLines (publicationLines lists.length settings.capacity publication)
  printTime start

/-! ### Converting one list -/

/-- What is shown of a conversion. -/
def conversionLines (input : String) (conversion : Conversion) : List String :=
  ["Converted '" ++ input ++ "'",
    "  Lines:     " ++ toString conversion.lines,
    "  Rules:     " ++ toString conversion.accepted ++ " (" ++ toString conversion.rejected
      ++ " rejected, " ++ toString conversion.skipped ++ " skipped)",
    "  Standard:  " ++ toString conversion.rules.standard.length,
    "  Advanced:  " ++ toString conversion.rules.advanced.length,
    "  Scriptlet: " ++ toString conversion.rules.scriptlet.length]

/-- Saves rules to files, and shows each file if the user wants to see them. -/
def saveTiers (verbose : Bool) : List (String × List Rule) → Job Unit
  | [] => return ()
  | (path, rules) :: rest => do
    Rule.saveAll path rules
    if verbose then
      Job.printLine ("  Wrote:     " ++ path ++ " (" ++ toString rules.length ++ " rules)")
    saveTiers verbose rest

/-- Converts one list, and saves its rules if there is a directory for them. -/
def convertFile (input : String) (outputDirectory : Option String) (verbose : Bool) :
    Job Unit := do
  let start ← Job.request .ticks
  let conversion := Document.convert (← Files.load input)
  Job.noteAll conversion.journal
  printLines (conversionLines input conversion)
  match outputDirectory with
  | none => pure ()
  | some directory =>
    let folder : ListFolder := { directory }
    saveTiers verbose ([Tier.standard, .advanced, .scriptlet].map fun tier =>
      (folder.convertedPath (Path.stem input) tier, conversion.rules.get tier))
  printTime start

/-! ### Counting -/

/-- Shows how many rules each list has, and adds them up. -/
def printCounts (folder : ListFolder) : List FilterList → Job Nat
  | [] => return 0
  | list :: rest => do
    let count ← folder.countRules list.name
    let source := if ← ExceptT.lift (folder.isConverted list.name) then "cached" else "estimated"
    Job.printLine ("  " ++ Text.padRight 32 list.name ++ " " ++ Text.padLeft 8 (toString count)
      ++ " rules (" ++ source ++ ")")
    return count + (← printCounts folder rest)

/-- Shows how many rules the selected lists of a manifest have. -/
def showRuleCounts (settings : Settings) (manifest : String) : Job Unit := do
  let lists := Manifest.selected (← Manifest.load manifest)
  Job.printLine ("Selected lists: " ++ toString lists.length)
  let total ← printCounts { directory := settings.listsDirectory } lists
  Job.printLine ("Total rules: " ++ toString total)

/-! ### Translating, bundling and the activity log -/

/-- Makes the bundle of a container. -/
def bundleFile (input output : String) : Job Unit := do
  let rules ← Rule.loadAll input
  let bundle := Scriptlet.Bundle.ofRules .builtin rules
  Job.noteAll (Scriptlet.Bundle.journal .builtin rules)
  Files.save output bundle.code
  printLines [
    "Wrote '" ++ output ++ "'",
    "  Resolved:  " ++ toString bundle.resolved,
    "  Skipped:   " ++ toString bundle.skipped]

/-- The activity log of some settings, if one is kept. -/
def activityLog? (settings : Settings) : Option ActivityLog :=
  settings.logFile.map fun path => { path, maximumSize := settings.maximumLogSize }

/-- Shows the activity log, or removes it. -/
def showOrClear (settings : Settings) (clear : Bool) : Job Unit := do
  let log ← Job.ofOption .noActivityLog (activityLog? settings)
  if clear then
    Job.ofExcept (.reading log.path) (← ExceptT.lift log.clear)
    Job.printLine ("Cleared '" ++ log.path ++ "'")
  else
    let text ← Job.ofExcept (.reading log.path) (← ExceptT.lift log.read)
    Job.request (.print text)

/-! ### Invocations -/

/-- Carries out a command under some settings. What a command is told of directories and capacity
goes before the settings. -/
def Command.run (settings : Settings) : Command → Job Unit
  | apply manifest capacity outputDirectory listsDirectory =>
    publishSelected {
      settings with
      capacity := capacity.getD settings.capacity
      outputDirectory := outputDirectory.getD settings.outputDirectory
      listsDirectory := listsDirectory.getD settings.listsDirectory } manifest
  | convert input outputDirectory verbose => convertFile input outputDirectory verbose
  | stats manifest listsDirectory =>
    showRuleCounts { settings with listsDirectory := listsDirectory.getD settings.listsDirectory }
      manifest
  | translate pattern => Job.printLine (Pattern.translate pattern)
  | bundle input output => bundleFile input output
  | log clear => showOrClear settings clear

/-- How much of the journal goes to the activity log. -/
def logLimit : Journal.Limit := .downTo .info

/-- A program whose notes go to the activity log of some settings, if one is kept. -/
def logged {α : Type} (settings : Settings) (program : Program α) : Program α :=
  match activityLog? settings with
  | none => program
  | some log => program.redirectNotes (log.record logLimit)

/-- Carries out an invocation. -/
def Invocation.run (invocation : Invocation) : Program (Except Failure Unit) := do
  match ← (Settings.load invocation.configuration).run with
  | .error failure => return .error failure
  | .ok configured =>
    let settings := { configured with logFile := invocation.logFile.or configured.logFile }
    logged settings (invocation.command.run settings).run

end FilterLists.CommandLine
