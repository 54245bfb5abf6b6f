/-
This file publishes a selection of filter lists. The rules of all selected lists are loaded and
joined in the order of the selection, supplemented, distributed over the containers, and written
next to the resources for the pages of the video site.

Nothing is written to the output directory before all lists have been loaded and the rules have
been distributed. The lists may be loaded in another order than that of the selection; what comes
out is put in the order of the selection again.
-/

import FilterLists.Lists.Folder
import FilterLists.Progress
import FilterLists.Settings
import FilterLists.Supplement.PageResources
import FilterLists.Supplement.Rules

namespace FilterLists

/-! ### Selections -/

namespace Selection

/-- The names of a selection, each where it comes first. `seen` holds the names before. -/
def firstsAfter (seen : List String) : List String → List String
  | [] => []
  | name :: rest =>
    if seen.contains name then firstsAfter seen rest
    else name :: firstsAfter (name :: seen) rest

/-- The names of a selection, each where it comes first. -/
def firsts (names : List String) : List String :=
  firstsAfter [] names

/-- The names of a selection that have come before. `seen` holds the names before. -/
def repeatsAfter (seen : List String) : List String → List String
  | [] => []
  | name :: rest =>
    if seen.contains name then name :: repeatsAfter seen rest
    else repeatsAfter (name :: seen) rest

/-- The names of a selection that have come before, as often as they come again. -/
def repeats (names : List String) : List String :=
  repeatsAfter [] names

/-- What is reported for a name that has come before. -/
def repeatEntry (name : String) : Journal.Entry where
  level := .warn
  target := .publication
  message := "Ignoring duplicate filter list '" ++ name ++ "'"

/-- How the loading of a list ended. -/
abbrev Outcome := Except Failure (Option TieredRules)

/-- Loads lists in the given order. A list that cannot be loaded does not keep the others from
being loaded. -/
def loadEach (folder : ListFolder) (order : List String) : Program (List (String × Outcome)) :=
  order.mapM fun name => return (name, ← (folder.load name).run)

/-- The rules of the lists that were loaded, in order, unless one of them could not be; the first
such failure counts. After every list the progress is reported: `done` of `total` lists have been
collected before. -/
def collect (report : Progress → Program Unit) (total done : Nat) :
    List Outcome → Job (List (Option TieredRules))
  | [] => return []
  | .error failure :: _ => throw failure
  | .ok loaded :: rest => do
    ExceptT.lift (report (.loaded (done + 1) total))
    return loaded :: (← collect report total (done + 1) rest)

/-- Loads the lists of some names in a given order, and gives their rules in the order of the
names. -/
def load (report : Progress → Program Unit) (folder : ListFolder) (order names : List String) :
    Job (List (Option TieredRules)) := do
  let outcomes ← ExceptT.lift (loadEach folder order)
  collect report names.length 0 (names.filterMap fun name => outcomes.lookup name)

end Selection

/-! ### Publications -/

/-- What a publication comes to. -/
structure Publication where
  /-- How many lists had rules to give. -/
  converted : Nat
  /-- How many lists had neither been converted nor had a source. -/
  missing : Nat
  plan : Plan
  /-- The files that were written, in order. -/
  written : List String
  deriving DecidableEq, Repr

namespace Publication

/-- What is reported when the rules of all lists have been joined. -/
def joinedEntry (rules : TieredRules) : Journal.Entry where
  level := .info
  target := .publication
  message := "Merged " ++ toString rules.size ++ " rules ("
    ++ toString rules.standard.length ++ " standard, "
    ++ toString rules.advanced.length ++ " advanced, "
    ++ toString rules.scriptlet.length ++ " scriptlet)"

/-- What is reported when a container has been written. -/
def savedEntry (path : String) (rules : List Rule) : Journal.Entry where
  level := .info
  target := .publication
  message := "Saved " ++ toString rules.length ++ " rules to " ++ path

/-- Writes containers to their files. -/
def writeContainers : List (String × List Rule) → Job Unit
  | [] => return ()
  | (path, rules) :: rest => do
    Rule.saveAll path rules
    Job.noteAll [savedEntry path rules]
    writeContainers rest

/-- Writes texts to files. -/
def writeTexts : List (String × String) → Job Unit
  | [] => return ()
  | (path, content) :: rest => do
    Files.save path content
    writeTexts rest

/-- The resources for pages, each with its file. -/
def resources (settings : Settings) : Job (List (String × String)) := do
  let presetScript ← Job.ofExcept .scriptlet (Supplement.presetScript .builtin)
  return [
    (Path.join settings.outputDirectory "youtube-adblock.js", Supplement.pageScript),
    (Path.join settings.outputDirectory "youtube-adblock.css", Supplement.stylesheet),
    (Path.join settings.outputDirectory "youtube-scriptlets.js", presetScript)]

/-- Writes the containers of a plan and the resources for pages, and gives the files written. -/
def writePlan (settings : Settings) (report : Progress → Program Unit) (plan : Plan) :
    Job (List String) := do
  writeContainers (settings.containerPaths.zip plan.containers)
  let resources ← resources settings
  writeTexts resources
  ExceptT.lift (report .finished)
  return settings.containerPaths ++ resources.map fun resource => resource.1

/-- Publishes the rules of lists that have been loaded. -/
def publishLoaded (settings : Settings) (report : Progress → Program Unit)
    (loaded : List (Option TieredRules)) : Job Publication := do
  let found := loaded.filterMap id
  let rules := TieredRules.join found
  Job.noteAll [joinedEntry rules]
  let plan ← Job.ofExcept .distribution (distributeSupplemented settings.limits rules)
  Job.noteAll (plan.journal settings.capacity)
  let written ← writePlan settings report plan
  return { converted := found.length, missing := loaded.length - found.length, plan, written }

/-- Publishes the lists of a selection, which are loaded in a given order. -/
def publishIn (order : List String) (settings : Settings) (report : Progress → Program Unit)
    (selection : List String) : Job Publication := do
  Job.noteAll ((Selection.repeats selection).map Selection.repeatEntry)
  let loaded ← Selection.load report { directory := settings.listsDirectory } order
    (Selection.firsts selection)
  publishLoaded settings report loaded

/-- Publishes the lists of a selection. -/
def publish (settings : Settings) (report : Progress → Program Unit) (selection : List String) :
    Job Publication :=
  publishIn (Selection.firsts selection) settings report selection

end Publication

end FilterLists
