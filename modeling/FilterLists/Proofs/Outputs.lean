/-
This file shows what a publication leaves in its files. It writes six of them, one after the other,
the containers first and then the resources for pages. Where they lie is up to the settings, which
may give two of them the same name, and names may lead to the same place in other ways too, through
directories that are only made on the way. Then the later file takes the place of the earlier one.

So a container can be read back from its file if no later file is written to the same place, and
otherwise the rules that are reported for it are nowhere on the disk.
-/

import FilterLists.Proofs.Files.Saving
import FilterLists.Proofs.Lists.Reloading
import FilterLists.Proofs.Publication

namespace FilterLists.Publication

variable {settings : Settings} {report : Progress → Program Unit} {selection order : List String}
  {files : List (String × String)} {before : Disk} {world after : World} {plan : Plan}

/-! ### The files of a publication -/

/-- Where the files of a publication are written, in order. -/
def outputPaths (settings : Settings) : List String :=
  settings.containerPaths ++ resourceNames.map (Path.join settings.outputDirectory)

/-- What the files of a publication say, given the script for the presets. -/
def outputTexts (plan : Plan) (presetScript : String) : List String :=
  plan.containers.map Rule.encode ++ [Supplement.pageScript, Supplement.stylesheet, presetScript]

/-- The files of a publication, in order. -/
def outputs (settings : Settings) (plan : Plan) (presetScript : String) :
    List (String × String) :=
  (outputPaths settings).zip (outputTexts plan presetScript)

theorem map_fst_outputs (settings : Settings) (plan : Plan) (presetScript : String) :
    (outputs settings plan presetScript).map Prod.fst = outputPaths settings :=
  rfl

theorem getElem?_outputs {presetScript path text : String} {index : Nat}
    (isPath : (outputPaths settings)[index]? = some path)
    (isText : (outputTexts plan presetScript)[index]? = some text) :
    (outputs settings plan presetScript)[index]? = some (path, text) := by
  rw [outputs, List.getElem?_zip_eq_some]
  exact ⟨isPath, isText⟩

/-! ### Writing them -/

theorem writeContainers_eq_ok {containers : List (String × List Rule)}
    (ran : (writeContainers containers).runIn world = (.ok (), after))
    (wrote : Wrote files before world.disk) :
    Wrote (files ++ containers.map fun container => (container.1, Rule.encode container.2))
      before after.disk := by
  induction containers generalizing files world with
  | nil =>
    obtain ⟨-, rfl⟩ := Job.eq_of_runIn_pure ran
    simpa using wrote
  | cons container rest inductionHypothesis =>
    obtain ⟨path, rules⟩ := container
    unfold writeContainers at ran
    obtain ⟨⟨⟩, saved, ranSave, ran⟩ := Job.exists_of_runIn_bind ran
    rw [Job.runIn_bind_of_ok (Job.runIn_noteAll _ _)] at ran
    have wroteMore : Wrote (files ++ [(path, Rule.encode rules)]) before saved.disk :=
      wrote.add_of_save ranSave
    simpa using inductionHypothesis ran wroteMore

theorem writeTexts_eq_ok {texts : List (String × String)}
    (ran : (writeTexts texts).runIn world = (.ok (), after))
    (wrote : Wrote files before world.disk) :
    Wrote (files ++ texts) before after.disk := by
  induction texts generalizing files world with
  | nil =>
    obtain ⟨-, rfl⟩ := Job.eq_of_runIn_pure ran
    simpa using wrote
  | cons text rest inductionHypothesis =>
    obtain ⟨path, content⟩ := text
    unfold writeTexts at ran
    obtain ⟨⟨⟩, saved, ranSave, ran⟩ := Job.exists_of_runIn_bind ran
    simpa using inductionHypothesis ran (wrote.add_of_save ranSave)

section

variable (quiet : ∀ progress, (report progress).Asks Request.KeepsFiles)

include quiet

theorem writePlan_eq_ok {written : List String}
    (ran : (writePlan settings report plan).runIn world = (.ok written, after)) :
    written = outputPaths settings ∧
      ∃ presetScript, Supplement.presetScript .builtin = .ok presetScript ∧
        Wrote (outputs settings plan presetScript) world.disk after.disk := by
  unfold writePlan at ran
  obtain ⟨⟨⟩, contained, ranContainers, ran⟩ := Job.exists_of_runIn_bind ran
  obtain ⟨texts, found, ranResources, ran⟩ := Job.exists_of_runIn_bind ran
  obtain ⟨⟨⟩, texted, ranTexts, ran⟩ := Job.exists_of_runIn_bind ran
  rw [Job.runIn_bind_lift] at ran
  obtain ⟨rfl, still⟩ := Job.eq_of_runIn_pure ran
  unfold resources at ranResources
  cases resolved : Supplement.presetScript .builtin with
  | error error =>
    rw [resolved] at ranResources
    cases ranResources
  | ok presetScript =>
    rw [resolved] at ranResources
    cases ranResources
    refine ⟨rfl, presetScript, rfl, ?_⟩
    have wroteContainers := writeContainers_eq_ok ranContainers (.start world.disk)
    have wroteAll := writeTexts_eq_ok ranTexts wroteContainers
    rw [still, (quiet _).disk_run]
    exact wroteAll

/-- A publication of lists that have been loaded writes the plan that it reports. -/
theorem publishLoaded_eq_ok {loaded : List (Option TieredRules)} {publication : Publication}
    (ran : (publishLoaded settings report loaded).runIn world = (.ok publication, after)) :
    publication.converted = (loaded.filterMap id).length ∧
      publication.missing = loaded.length - (loaded.filterMap id).length ∧
      distributeSupplemented settings.limits (TieredRules.join (loaded.filterMap id)) =
        .ok publication.plan ∧
      publication.written = outputPaths settings ∧
      ∃ presetScript, Supplement.presetScript .builtin = .ok presetScript ∧
        Wrote (outputs settings publication.plan presetScript) world.disk after.disk := by
  unfold publishLoaded at ran
  dsimp only at ran
  rw [Job.runIn_bind_of_ok (Job.runIn_noteAll _ _)] at ran
  cases distributed :
    distributeSupplemented settings.limits (TieredRules.join (loaded.filterMap id)) with
  | error error =>
    rw [distributed] at ran
    cases ran
  | ok plan =>
    rw [distributed, Job.runIn_bind_of_ok (show (Job.ofExcept _ (.ok plan)).runIn _ = _ from
      Job.runIn_pure plan _), Job.runIn_bind_of_ok (Job.runIn_noteAll _ _)] at ran
    obtain ⟨written, between, ranWrite, ran⟩ := Job.exists_of_runIn_bind ran
    obtain ⟨rfl, rfl⟩ := Job.eq_of_runIn_pure ran
    obtain ⟨rfl, leaves⟩ := writePlan_eq_ok quiet ranWrite
    exact ⟨rfl, rfl, rfl, rfl, leaves⟩

end

/-! ### What is left in them -/

/-- What a publication has left in its files. -/
structure Leaves (settings : Settings) (publication : Publication) (after : World) : Prop where
  /-- The files are written that the settings name. -/
  written : publication.written = outputPaths settings
  /-- A container is read back from its file, without the first party marks of its rules, unless a
  later file is written to the same place. -/
  readable : ∀ (index : Nat) (path : String) (rules : List Rule),
    publication.written[index]? = some path → publication.plan.container? index = some rules →
    (∀ (later : Nat) (other : String), index < later →
      publication.written[later]? = some other → ¬after.disk.SamePlace path other) →
    (Rule.loadAll path).runIn after = (.ok (rules.map Rule.withoutMark), after)
  /-- Where several files are written to the same place, the text of the last of them lies there. -/
  overwritten : ∃ presetScript, Supplement.presetScript .builtin = .ok presetScript ∧
    ∀ (index last : Nat) (path lastPath text : String), publication.written[index]? = some path →
      publication.written[last]? = some lastPath →
      (outputTexts publication.plan presetScript)[last]? = some text →
      after.disk.SamePlace path lastPath →
      (∀ (later : Nat) (other : String), last < later →
        publication.written[later]? = some other → ¬after.disk.SamePlace path other) →
      after.disk.HoldsText path text

theorem getElem?_outputPaths {presetScript : String} {index : Nat} {file : String × String}
    (isFile : (outputs settings plan presetScript)[index]? = some file) :
    (outputPaths settings)[index]? = some file.1 := by
  rw [outputs, List.getElem?_zip_eq_some] at isFile
  exact isFile.1

theorem getElem?_outputTexts {index : Nat} {rules : List Rule}
    (isContainer : plan.container? index = some rules) (presetScript : String) :
    (outputTexts plan presetScript)[index]? = some (Rule.encode rules) := by
  have encoded : (plan.containers.map Rule.encode)[index]? = some (Rule.encode rules) := by
    rw [List.getElem?_map]
    exact congrArg (Option.map Rule.encode) isContainer
  obtain ⟨within, -⟩ := List.getElem?_eq_some_iff.mp encoded
  rw [outputTexts, List.getElem?_append_left within, encoded]

theorem length_outputTexts (settings : Settings) (plan : Plan) (presetScript : String) :
    (outputTexts plan presetScript).length = (outputPaths settings).length := by
  simp [outputTexts, outputPaths, Plan.containers, Settings.containerPaths, ContainerFiles.toList,
    resourceNames]

theorem leaves_of_wrote {publication : Publication} {presetScript : String}
    (written : publication.written = outputPaths settings)
    (resolved : Supplement.presetScript .builtin = .ok presetScript)
    (wrote : Wrote (outputs settings publication.plan presetScript) before after.disk) :
    Leaves settings publication after := by
  have holds : ∀ (index last : Nat) (path lastPath text : String),
      publication.written[index]? = some path → publication.written[last]? = some lastPath →
      (outputTexts publication.plan presetScript)[last]? = some text →
      after.disk.SamePlace path lastPath →
      (∀ (later : Nat) (other : String), last < later →
        publication.written[later]? = some other → ¬after.disk.SamePlace path other) →
      after.disk.HoldsText path text := by
    intro index last path lastPath text isPath isLast isText same unshared
    simp only [written] at isPath isLast unshared
    obtain ⟨within, -⟩ := List.getElem?_eq_some_iff.mp isPath
    rw [← length_outputTexts settings publication.plan presetScript] at within
    exact wrote.holdsText (getElem?_outputs isPath (List.getElem?_eq_getElem within))
      (getElem?_outputs isLast isText) same fun later other isLater isOther =>
        unshared later other.1 isLater (getElem?_outputPaths isOther)
  refine ⟨written, ?_, presetScript, resolved, holds⟩
  intro index path rules isPath isContainer unshared
  have isText := getElem?_outputTexts isContainer presetScript
  obtain ⟨location, located⟩ := wrote.located (path, Rule.encode rules)
    (List.mem_of_getElem? (getElem?_outputs (written ▸ isPath) isText))
  have text := holds index index path path _ isPath isPath isText ⟨location, located, located⟩
    unshared
  exact (Rule.areIn_of_holdsText text).runIn_loadAll

/-- Whatever the settings are, a publication that succeeds leaves the containers that it reports in
their files, as far as these are not the files of others written after them. -/
theorem publishIn_leaves {publication : Publication}
    (quiet : ∀ progress, (report progress).Asks Request.KeepsFiles)
    (ran : (publishIn order settings report selection).runIn world = (.ok publication, after)) :
    Leaves settings publication after := by
  unfold publishIn at ran
  rw [Job.runIn_bind_of_ok (Job.runIn_noteAll _ _)] at ran
  obtain ⟨loaded, between, -, ran⟩ := Job.exists_of_runIn_bind ran
  obtain ⟨-, -, -, written, presetScript, resolved, wrote⟩ := publishLoaded_eq_ok quiet ran
  exact leaves_of_wrote written resolved wrote

/-! ### Files with plain names -/

/-- The names of the files of a publication, in order. -/
def outputNames (settings : Settings) : List String :=
  settings.containers.toList ++ resourceNames

theorem map_join_outputNames (settings : Settings) :
    (outputNames settings).map (Path.join settings.outputDirectory) = outputPaths settings :=
  List.map_append

/-- Where all names are plain and different, no two files are written to the same place, and so
every container can be read back. -/
theorem Leaves.container_of_plain {publication : Publication}
    (leaves : Leaves settings publication after)
    (plain : ∀ name ∈ outputNames settings, Path.IsEnding name)
    (distinct : (outputNames settings).Nodup) {index : Nat} {path : String} {rules : List Rule}
    (isPath : publication.written[index]? = some path)
    (isContainer : publication.plan.container? index = some rules) :
    (Rule.loadAll path).runIn after = (.ok (rules.map Rule.withoutMark), after) := by
  refine leaves.readable index path rules isPath isContainer ?_
  intro later other isLater isOther same
  rw [leaves.written, ← map_join_outputNames, List.getElem?_map, Option.map_eq_some_iff]
    at isPath isOther
  obtain ⟨name, isName, rfl⟩ := isPath
  obtain ⟨otherName, isOtherName, rfl⟩ := isOther
  obtain rfl := Disk.eq_of_samePlace_join (plain name (List.mem_of_getElem? isName))
    (plain otherName (List.mem_of_getElem? isOtherName)) same
  obtain ⟨within, found⟩ := List.getElem?_eq_some_iff.mp isName
  have sameIndex := (List.getElem?_inj within distinct).mp (isName.trans isOtherName.symm)
  omega

/-! ### Containers of one name -/

/-- A folder with a list of one rule. -/
def loneWorld : World where
  disk := {
    home := []
    entries := [(["lone.txt"], .file "||ads.example^".toUTF8)] }

/-- Publishes the list, with containers of certain names and without a report. -/
def publishLone (containers : ContainerFiles) : Except Failure Publication × World :=
  (publishIn ["lone"] { containers } (fun _ => pure ()) ["lone"]).runIn loneWorld

/-- With the standard names, the first container is read back. -/
theorem lone_leaves : ∃ publication after,
    publishLone .standard = (.ok publication, after) ∧ Leaves {} publication after ∧
      (Rule.loadAll "./blockerList.json").runIn after =
        (.ok (publication.plan.first.map Rule.withoutMark), after) := by
  have quiet : ∀ progress : Progress,
      (pure () : Program Unit).Asks Request.KeepsFiles := fun _ => Program.asks_pure ()
  have succeeds : (publishLone .standard).1.toOption.isSome = true := by
    decide +kernel
  obtain ⟨publication, after, ran⟩ := Job.exists_of_isSome succeeds
  have leaves : Leaves {} publication after := publishIn_leaves quiet ran
  have plain : ∀ name ∈ outputNames {}, Path.IsEnding name := by
    intro name member
    have each : ∀ name ∈ outputNames {}, '/' ∉ name.toList ∧ 2 < name.toList.length := by decide
    exact ⟨(each name member).1, (each name member).2⟩
  have isPath : publication.written[0]? = some "./blockerList.json" := leaves.written ▸ rfl
  have distinct : (outputNames {}).Nodup := by decide
  have first : publication.plan.container? 0 = some publication.plan.first := rfl
  exact ⟨publication, after, ran, leaves, leaves.container_of_plain plain distinct isPath first⟩

/-- A configuration may give the first two containers one name. Then none of the rules of the first
is read back. -/
theorem lone_overwritten :
    let containers : ContainerFiles := { first := "x.json", second := "x.json", third := "y.json" }
    let ended := publishLone containers
    Settings.parse? "containers = [\"x.json\", \"x.json\", \"y.json\"]" = some { containers } ∧
    ended.1.toOption.map (fun publication =>
        (publication.written[0]?, publication.plan.first.length)) =
      some (some "./x.json", 23) ∧
    ((Rule.loadAll "./x.json").runIn ended.2).1.toOption = some [] := by
  decide +kernel

end FilterLists.Publication
