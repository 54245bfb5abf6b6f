/-
This file shows what happens when a publication is carried out once more. The first one has
converted the lists that had to be converted, so the second one reads what the first one wrote. It
comes to the same if each list still stands for what it has given, for all that is lost in the
files of a list are first party marks, and these are not written to containers either.

A list may not stand any more, for the first publication has written containers since. In the
standard settings these lie beside the lists, and a container is written to the very place where a
list of the same name keeps its converted rules. So the second publication has to be the same
where the files of each list are left alone, and need not be where they are not.
-/

import FilterLists.Proofs.Lists.Standing
import FilterLists.Proofs.Outputs

namespace FilterLists

/-! ### Rules without marks -/

theorem TieredRules.supplemented_withoutMarks (rules : TieredRules) :
    rules.withoutMarks.supplemented = rules.supplemented.withoutMarks := by
  have unmarked : Supplement.blockRules.map Rule.withoutMark = Supplement.blockRules := rfl
  simp only [supplemented, withoutMarks, List.map_append, unmarked]

theorem TieredRules.join_map_withoutMarks (collections : List TieredRules) :
    join (collections.map withoutMarks) = (join collections).withoutMarks := by
  simp only [join, withoutMarks, List.flatMap_map, List.map_flatMap]

/-- A plan as it comes back from the files of its containers. -/
def Plan.withoutMarks (plan : Plan) : Plan where
  first := plan.first.map Rule.withoutMark
  second := plan.second.map Rule.withoutMark
  third := plan.third.map Rule.withoutMark
  dropped := plan.dropped

theorem Plan.fill_withoutMarks (capacity : Nat) (rules : TieredRules) (generated : List Rule) :
    fill capacity rules.withoutMarks (generated.map Rule.withoutMark) =
      (fill capacity rules generated).withoutMarks := by
  simp only [fill, withoutMarks, TieredRules.withoutMarks, List.map_take, List.map_append,
    List.map_drop, List.length_append, List.length_drop, List.length_map]

theorem Plan.map_encode_withoutMarks (plan : Plan) :
    plan.withoutMarks.containers.map Rule.encode = plan.containers.map Rule.encode := by
  simp only [containers, withoutMarks, List.map_cons, List.map_nil, Rule.encode_map_withoutMark]

/-- How rules are distributed does not depend on their marks. -/
theorem distributeSupplemented_withoutMarks {limits : Limits} {rules : TieredRules} {plan : Plan}
    (distributed : distributeSupplemented limits rules = .ok plan) :
    distributeSupplemented limits rules.withoutMarks = .ok plan.withoutMarks := by
  have unmarked : Supplement.hidingRules.map Rule.withoutMark = Supplement.hidingRules := rfl
  unfold distributeSupplemented distribute at distributed ⊢
  cases limited : limits.error? with
  | some error =>
    rw [limited] at distributed
    cases distributed
  | none =>
    rw [limited] at distributed
    rw [← Except.ok.inj distributed, TieredRules.supplemented_withoutMarks,
      ← Plan.fill_withoutMarks, unmarked]

/-! ### Loading the lists -/

namespace Selection

variable {folder : ListFolder} {order names : List String} {world after : World}
  {outcomes : List (String × Outcome)} {result : String → Option TieredRules}
  {written : String → Prop} {before final : Disk}

theorem exists_of_run_loadEach_cons {name : String} {rest : List String}
    (ran : (loadEach folder (name :: rest)).run world = (outcomes, after)) :
    ∃ outcome between later, (folder.load name).runIn world = (outcome, between) ∧
      (loadEach folder rest).run between = (later, after) ∧
      outcomes = (name, outcome) :: later := by
  obtain ⟨outcome, between, loaded⟩ : ∃ outcome between,
      (folder.load name).runIn world = (outcome, between) := ⟨_, _, rfl⟩
  obtain ⟨later, last, ranLater⟩ : ∃ later last,
      (loadEach folder rest).run between = (later, last) := ⟨_, _, rfl⟩
  have ranFirst : (ExceptT.run (folder.load name)).run world = (outcome, between) := loaded
  rw [loadEach_cons, Program.run_bind, ranFirst, Program.run_bind, ranLater] at ran
  obtain ⟨rfl, rfl⟩ := Prod.mk.inj ran
  exact ⟨outcome, between, later, loaded, ranLater, rfl⟩

/-- Lists that are left alone stand in the end for what each of them has given. The induction is on
the order in which they are loaded: what is written after a list is written beside it. -/
theorem stands_of_loadEach (leftAlone : folder.LeftAlone names written before final)
    (areNames : ∀ name ∈ order, name ∈ names) (distinct : order.Nodup)
    (earlier : before.MoreDirectories world.disk)
    (ran : (loadEach folder order).run world = (outcomes, after))
    (succeeded : ∀ entry ∈ outcomes, entry.2 = .ok (result entry.1))
    (changes : after.disk.ChangesOnly written final) :
    ∀ name ∈ order, folder.Stands name final (result name) := by
  induction order generalizing world outcomes with
  | nil => exact fun _ member => absurd member List.not_mem_nil
  | cons name rest inductionHypothesis =>
    obtain ⟨outcome, between, later, loaded, ranLater, rfl⟩ := exists_of_run_loadEach_cons ran
    obtain ⟨isNew, restDistinct⟩ := List.nodup_cons.mp distinct
    obtain ⟨isName, restAreNames⟩ := List.forall_mem_cons.mp areNames
    obtain ⟨isOk, laterSucceeded⟩ := List.forall_mem_cons.mp succeeded
    obtain rfl : outcome = .ok (result name) := isOk
    have earlierStill : before.MoreDirectories between.disk :=
      earlier.trans (ListFolder.sameDirectories_of_load loaded).moreDirectories
    refine List.forall_mem_cons.mpr ⟨?_, inductionHypothesis restAreNames restDistinct
      earlierStill ranLater laterSucceeded⟩
    have asks : (loadEach folder rest).Asks
        (Request.WritesAt (folder.WrittenBeside names written name)) :=
      asks_loadEach fun other member => ListFolder.permits_writesAt fun tier =>
        .converted tier (restAreNames other member) fun same => isNew (same ▸ member)
    have beside : between.disk.ChangesOnly (folder.WrittenBeside names written name) final := by
      have laterChanges := asks.changesOnly_run between
      rw [ranLater] at laterChanges
      exact laterChanges.trans (changes.mono fun _ => .output)
    exact (ListFolder.stands_of_load loaded).of_keepsAt
      (leftAlone.keepsAt isName earlierStill beside)

theorem sameDirectories_of_loadEach
    (ran : (loadEach folder order).run world = (outcomes, after))
    (succeeded : ∀ entry ∈ outcomes, entry.2 = .ok (result entry.1)) :
    Disk.SameDirectories world.disk after.disk := by
  induction order generalizing world outcomes with
  | nil =>
    cases ran
    exact .refl _
  | cons name rest inductionHypothesis =>
    obtain ⟨outcome, between, later, loaded, ranLater, rfl⟩ := exists_of_run_loadEach_cons ran
    obtain ⟨isOk, laterSucceeded⟩ := List.forall_mem_cons.mp succeeded
    obtain rfl : outcome = .ok (result name) := isOk
    exact (ListFolder.sameDirectories_of_load loaded).trans
      (inductionHypothesis ranLater laterSucceeded)

/-- Lists that stand give again what they have given, but for first party marks. -/
theorem run_loadEach_of_stands
    (stands : ∀ name ∈ order, folder.Stands name world.disk (result name)) :
    ∃ after, (loadEach folder order).run world =
        (order.map fun name => (name, .ok ((result name).map TieredRules.withoutMarks)), after) ∧
      after.disk = world.disk := by
  induction order generalizing world with
  | nil => exact ⟨world, rfl, rfl⟩
  | cons name rest inductionHypothesis =>
    obtain ⟨nameStands, restStand⟩ := List.forall_mem_cons.mp stands
    obtain ⟨between, loaded, same⟩ := nameStands.runIn_load
    obtain ⟨after, ranLater, stillSame⟩ := inductionHypothesis fun other member =>
      same ▸ restStand other member
    refine ⟨after, ?_, stillSame.trans same⟩
    have ranFirst : (ExceptT.run (folder.load name)).run world = _ := loaded
    rw [loadEach_cons, Program.run_bind, ranFirst, Program.run_bind, ranLater]
    rfl

section

variable {report : Progress → Program Unit}
  (quiet : ∀ progress, (report progress).Asks Request.KeepsFiles)

include quiet

theorem runIn_collect (total done : Nat) (loaded : List (Option TieredRules)) (world : World) :
    ∃ after, (collect report total done (loaded.map .ok)).runIn world = (.ok loaded, after) ∧
      after.disk = world.disk := by
  induction loaded generalizing done world with
  | nil => exact ⟨world, rfl, rfl⟩
  | cons first rest inductionHypothesis =>
    obtain ⟨after, collected, same⟩ :=
      inductionHypothesis (done + 1) ((report (.loaded (done + 1) total)).run world).2
    refine ⟨after, ?_, same.trans ((quiet _).disk_run _)⟩
    rw [List.map_cons, collect, Job.runIn_bind_lift, Job.runIn_bind_of_ok collected]
    rfl

theorem disk_of_load {loaded : List (Option TieredRules)}
    (ran : (load report folder order names).runIn world = (.ok loaded, after)) :
    after.disk = ((loadEach folder order).run world).2.disk := by
  unfold load at ran
  rw [Job.runIn_bind_lift] at ran
  exact (asks_collect quiet _ _ _).disk_of_runIn ran

/-- Loading lists that stand, in whatever order, gives again what they have given. -/
theorem runIn_load_of_stands (distinct : names.Nodup) (sameNames : order.Perm names)
    (stands : ∀ name ∈ names, folder.Stands name world.disk (result name)) :
    ∃ after, (load report folder order names).runIn world =
        (.ok (names.map fun name => (result name).map TieredRules.withoutMarks), after) ∧
      after.disk = world.disk := by
  obtain ⟨between, ran, same⟩ := run_loadEach_of_stands fun name member =>
    stands name (sameNames.mem_iff.mp member)
  let again := fun name => (result name).map TieredRules.withoutMarks
  let outcomes := order.map fun name => (name, (.ok (again name) : Outcome))
  have looked : ∀ name ∈ names, outcomes.lookup name = some (.ok (again name)) := by
    intro name member
    refine lookup_of_mem ?_ (List.mem_map_of_mem (sameNames.mem_iff.mpr member))
    rw [List.map_map]
    exact (List.map_id order).symm ▸ sameNames.nodup_iff.mpr distinct
  obtain ⟨after, ranCollect, still⟩ := runIn_collect quiet names.length 0 (names.map again) between
  refine ⟨after, ?_, still.trans same⟩
  unfold load
  rw [Job.runIn_bind_lift, ran]
  show (collect report names.length 0 (names.filterMap fun name => outcomes.lookup name)).runIn
    between = _
  rw [filterMap_of_found looked, ranCollect]

end

end Selection

/-! ### Publishing once more -/

namespace Publication

variable {settings : Settings} {report reportAgain : Progress → Program Unit}
  {selection order orderAgain : List String} {world after again : World} {plan : Plan}
  {presetScript : String} {loaded : List (Option TieredRules)}

theorem exists_runIn_writeContainers {containers : List (String × List Rule)}
    (lead : ∀ container ∈ containers, Files.LeadsToFile world.disk container.1) :
    ∃ after, (writeContainers containers).runIn world = (.ok (), after) ∧
      ∀ path, Files.LeadsToFile world.disk path → Files.LeadsToFile after.disk path := by
  induction containers generalizing world with
  | nil => exact ⟨world, rfl, fun _ => id⟩
  | cons container rest inductionHypothesis =>
    obtain ⟨path, rules⟩ := container
    obtain ⟨pathLeads, restLead⟩ := List.forall_mem_cons.mp lead
    obtain ⟨disk, saved, still⟩ := pathLeads.runIn_save (Rule.encode rules)
    let noted : World := { world with
      disk, journal := world.journal ++ [savedEntry path rules] }
    have restLeadStill : ∀ other ∈ rest, Files.LeadsToFile noted.disk other.1 :=
      fun other member => still _ (restLead other member)
    obtain ⟨after, ran, stillThen⟩ := inductionHypothesis restLeadStill
    refine ⟨after, ?_, fun other leads => stillThen other (still other leads)⟩
    unfold writeContainers Rule.saveAll
    rw [Job.runIn_bind_of_ok saved, Job.runIn_bind_of_ok (Job.runIn_noteAll _ _)]
    exact ran

theorem exists_runIn_writeTexts {texts : List (String × String)}
    (lead : ∀ text ∈ texts, Files.LeadsToFile world.disk text.1) :
    ∃ after, (writeTexts texts).runIn world = (.ok (), after) := by
  induction texts generalizing world with
  | nil => exact ⟨world, rfl⟩
  | cons text rest inductionHypothesis =>
    obtain ⟨path, content⟩ := text
    obtain ⟨pathLeads, restLead⟩ := List.forall_mem_cons.mp lead
    obtain ⟨disk, saved, still⟩ := pathLeads.runIn_save content
    have restLeadStill : ∀ other ∈ rest,
        Files.LeadsToFile ({ world with disk } : World).disk other.1 :=
      fun other member => still _ (restLead other member)
    obtain ⟨after, ran⟩ := inductionHypothesis restLeadStill
    refine ⟨after, ?_⟩
    unfold writeTexts
    rw [Job.runIn_bind_of_ok saved]
    exact ran

/-- Where the files of a publication are there, its plan can be written. -/
theorem exists_runIn_writePlan (resolved : Supplement.presetScript .builtin = .ok presetScript)
    (lead : ∀ path ∈ outputPaths settings, Files.LeadsToFile world.disk path) :
    ∃ written after, (writePlan settings report plan).runIn world = (.ok written, after) := by
  have containersLead : ∀ container ∈ settings.containerPaths.zip plan.containers,
      Files.LeadsToFile world.disk container.1 :=
    fun container member => lead _ (List.mem_append_left _ (List.of_mem_zip member).1)
  obtain ⟨contained, ranContainers, still⟩ := exists_runIn_writeContainers containersLead
  let texts := [(Path.join settings.outputDirectory "youtube-adblock.js", Supplement.pageScript),
    (Path.join settings.outputDirectory "youtube-adblock.css", Supplement.stylesheet),
    (Path.join settings.outputDirectory "youtube-scriptlets.js", presetScript)]
  have found : (resources settings).runIn contained = (.ok texts, contained) := by
    unfold resources
    rw [resolved]
    rfl
  have textsLead : ∀ text ∈ texts, Files.LeadsToFile contained.disk text.1 := by
    intro text member
    refine still _ (lead _ (List.mem_append_right _ ?_))
    have named : text.1 ∈ texts.map Prod.fst := List.mem_map_of_mem member
    exact named
  obtain ⟨texted, ranTexts⟩ := exists_runIn_writeTexts textsLead
  unfold writePlan
  rw [Job.runIn_bind_of_ok ranContainers, Job.runIn_bind_of_ok found,
    Job.runIn_bind_of_ok ranTexts, Job.runIn_bind_lift]
  exact ⟨_, _, rfl⟩

theorem exists_runIn_publishLoaded
    (distributed : distributeSupplemented settings.limits
      (TieredRules.join (loaded.filterMap id)) = .ok plan)
    (resolved : Supplement.presetScript .builtin = .ok presetScript)
    (lead : ∀ path ∈ outputPaths settings, Files.LeadsToFile world.disk path) :
    ∃ publication after,
      (publishLoaded settings report loaded).runIn world = (.ok publication, after) := by
  let joined : World := { world with
    journal := world.journal ++ [joinedEntry (TieredRules.join (loaded.filterMap id))] }
  let noted : World := { joined with
    journal := joined.journal ++ plan.journal settings.capacity }
  obtain ⟨written, after, ran⟩ : ∃ written after,
      (writePlan settings report plan).runIn noted = (.ok written, after) :=
    exists_runIn_writePlan resolved lead
  unfold publishLoaded
  dsimp only
  rw [distributed, Job.runIn_bind_of_ok (Job.runIn_noteAll _ _),
    Job.runIn_bind_of_ok (show (Job.ofExcept _ (.ok plan)).runIn _ = _ from Job.runIn_pure plan _),
    Job.runIn_bind_of_ok (Job.runIn_noteAll _ _)]
  exact ⟨_, after, Job.runIn_bind_of_ok ran _⟩

/-! ### Repeating a publication -/

theorem filterMap_map_withoutMarks (loaded : List (Option TieredRules)) :
    (loaded.map (Option.map TieredRules.withoutMarks)).filterMap id =
      (loaded.filterMap id).map TieredRules.withoutMarks := by
  rw [List.filterMap_map, List.map_filterMap]
  rfl

/-- Whether a publication repeats another: it comes to the same, and changes no file. -/
structure Repeats (first second : Publication) (before after : Disk) : Prop where
  converted : second.converted = first.converted
  missing : second.missing = first.missing
  plan : second.plan = first.plan.withoutMarks
  written : second.written = first.written
  read : ∀ path ∈ second.written, after.read path = before.read path
  unchanged : ∀ location, after.content? location = before.content? location

theorem Repeats.dropped {first second : Publication} {before after : Disk}
    (repeats : Repeats first second before after) : second.plan.dropped = first.plan.dropped := by
  rw [repeats.plan]
  rfl

/-- Publishing lists again whose rules have lost their marks repeats the publication. -/
theorem repeats_of_publishLoaded {first : Publication}
    (quiet : ∀ progress, (report progress).Asks Request.KeepsFiles)
    (quietAgain : ∀ progress, (reportAgain progress).Asks Request.KeepsFiles)
    (ran : (publishLoaded settings report loaded).runIn world = (.ok first, after))
    (unchanged : again.disk = after.disk) :
    ∃ second final,
      (publishLoaded settings reportAgain
        (loaded.map (Option.map TieredRules.withoutMarks))).runIn again = (.ok second, final) ∧
      Repeats first second after.disk final.disk := by
  obtain ⟨converted, missing, distributed, written, presetScript, resolved, wrote⟩ :=
    publishLoaded_eq_ok quiet ran
  have distributedAgain : distributeSupplemented settings.limits (TieredRules.join
      ((loaded.map (Option.map TieredRules.withoutMarks)).filterMap id)) =
        .ok first.plan.withoutMarks := by
    rw [filterMap_map_withoutMarks, TieredRules.join_map_withoutMarks]
    exact distributeSupplemented_withoutMarks distributed
  have lead : ∀ path ∈ outputPaths settings, Files.LeadsToFile after.disk path := by
    intro path member
    rw [← map_fst_outputs settings first.plan presetScript] at member
    obtain ⟨file, isFile, rfl⟩ := List.mem_map.mp member
    exact wrote.leadsToFile isFile
  obtain ⟨second, final, ranAgain⟩ :=
    exists_runIn_publishLoaded distributedAgain resolved (unchanged ▸ lead)
  refine ⟨second, final, ranAgain, ?_⟩
  obtain ⟨convertedAgain, missingAgain, samePlan, writtenAgain, samePresetScript, sameResolved,
    wroteAgain⟩ := publishLoaded_eq_ok quietAgain ranAgain
  obtain rfl : presetScript = samePresetScript := Except.ok.inj (resolved.symm.trans sameResolved)
  have isPlan : second.plan = first.plan.withoutMarks :=
    Except.ok.inj (samePlan.symm.trans distributedAgain)
  have sameOutputs : outputs settings second.plan presetScript =
      outputs settings first.plan presetScript := by
    rw [outputs, outputs, outputTexts, outputTexts, isPlan, Plan.map_encode_withoutMarks]
  rw [sameOutputs, unchanged] at wroteAgain
  have sameContent := wrote.content?_again wroteAgain
  refine ⟨?_, ?_, isPlan, writtenAgain.trans written.symm, ?_, sameContent⟩
  · rw [convertedAgain, converted, filterMap_map_withoutMarks, List.length_map]
  · rw [missingAgain, missing, filterMap_map_withoutMarks, List.length_map, List.length_map]
  · intro path member
    obtain ⟨plain, location, located, isFile⟩ := lead path (writtenAgain ▸ member)
    obtain ⟨content, isContent⟩ := Option.isSome_iff_exists.mp isFile
    have locatedAgain := wroteAgain.changes.more.locate_eq_ok located
    have isContentAgain := (sameContent location).trans isContent
    rw [(Disk.read_eq_ok_iff plain).mpr ⟨location, located, Disk.content?_eq_some_iff.mp isContent⟩,
      (Disk.read_eq_ok_iff plain).mpr
        ⟨location, locatedAgain, Disk.content?_eq_some_iff.mp isContentAgain⟩]

/-- A publication that succeeds has loaded all its lists, and then published what they gave. -/
theorem publishIn_eq_ok {first : Publication}
    (quiet : ∀ progress, (report progress).Asks Request.KeepsFiles)
    (sameNames : order.Perm (Selection.firsts selection))
    (ran : (publishIn order settings report selection).runIn world = (.ok first, after)) :
    ∃ (result : String → Option TieredRules) (noted between loadedWorld : World)
      (outcomes : List (String × Selection.Outcome)),
      noted.disk = world.disk ∧
      (Selection.loadEach { directory := settings.listsDirectory } order).run noted =
        (outcomes, between) ∧
      (∀ entry ∈ outcomes, entry.2 = .ok (result entry.1)) ∧
      loadedWorld.disk = between.disk ∧
      (publishLoaded settings report ((Selection.firsts selection).map result)).runIn loadedWorld =
        (.ok first, after) := by
  unfold publishIn at ran
  rw [Job.runIn_bind_of_ok (Job.runIn_noteAll _ _)] at ran
  obtain ⟨loaded, loadedWorld, ranLoad, ranPublish⟩ := Job.exists_of_runIn_bind ran
  have loaded_disk := Selection.disk_of_load quiet ranLoad
  obtain ⟨result, rfl, ended⟩ :=
    Selection.load_eq_ok (Selection.nodup_firstsAfter [] selection) sameNames ranLoad
  refine ⟨result, _, _, loadedWorld, _, ?_, rfl, ended, loaded_disk, ranPublish⟩
  rfl

/-- After a publication that has left the files of its lists alone, each list stands for what it
gave to the publication. -/
theorem stands_of_publishIn {first : Publication}
    (quiet : ∀ progress, (report progress).Asks Request.KeepsFiles)
    (sameNames : order.Perm (Selection.firsts selection))
    (ran : (publishIn order settings report selection).runIn world = (.ok first, after))
    (leftAlone : ListFolder.LeftAlone { directory := settings.listsDirectory } selection
      (fun path => path ∈ outputPaths settings) world.disk after.disk) :
    ∃ (result : String → Option TieredRules) (loadedWorld : World),
      (∀ name ∈ Selection.firsts selection, ListFolder.Stands
        { directory := settings.listsDirectory } name after.disk (result name)) ∧
      (publishLoaded settings report ((Selection.firsts selection).map result)).runIn loadedWorld =
        (.ok first, after) := by
  obtain ⟨result, noted, between, loadedWorld, outcomes, started, ranLoads, succeeded, loaded,
    ranPublish⟩ := publishIn_eq_ok quiet sameNames ran
  obtain ⟨-, -, -, -, presetScript, -, wrote⟩ := publishLoaded_eq_ok quiet ranPublish
  rw [loaded] at wrote
  have distinct : order.Nodup :=
    sameNames.nodup_iff.mpr (Selection.nodup_firstsAfter [] selection)
  have areSelected : ∀ name ∈ order, name ∈ selection :=
    fun name member => Selection.mem_firsts_iff.mp (sameNames.subset member)
  have earlier : world.disk.MoreDirectories noted.disk := started ▸ ⟨rfl, fun _ => id⟩
  have stands := Selection.stands_of_loadEach leftAlone areSelected distinct earlier ranLoads
    succeeded wrote.changes
  exact ⟨result, loadedWorld, fun name member => stands name (sameNames.mem_iff.mpr member),
    ranPublish⟩

/-- A publication can be repeated as long as each list stands for what it gave. -/
theorem exists_repeats_of_stands {first : Publication} {result : String → Option TieredRules}
    (quiet : ∀ progress, (report progress).Asks Request.KeepsFiles)
    (quietAgain : ∀ progress, (reportAgain progress).Asks Request.KeepsFiles)
    (sameNamesAgain : orderAgain.Perm (Selection.firsts selection))
    (stands : ∀ name ∈ Selection.firsts selection, ListFolder.Stands
      { directory := settings.listsDirectory } name after.disk (result name))
    (ran : (publishLoaded settings report ((Selection.firsts selection).map result)).runIn world =
      (.ok first, after))
    (unchanged : again.disk = after.disk) :
    ∃ second final,
      (publishIn orderAgain settings reportAgain selection).runIn again = (.ok second, final) ∧
      Repeats first second after.disk final.disk := by
  let noted : World := { again with
    journal := again.journal ++ (Selection.repeats selection).map Selection.repeatEntry }
  have standStill : ∀ name ∈ Selection.firsts selection, ListFolder.Stands
      { directory := settings.listsDirectory } name noted.disk (result name) := by
    rw [show noted.disk = after.disk from unchanged]
    exact stands
  obtain ⟨loaded, ranLoad, same⟩ := Selection.runIn_load_of_stands quietAgain
    (Selection.nodup_firstsAfter [] selection) sameNamesAgain standStill
  obtain ⟨second, final, ranAgain, repeats⟩ :=
    repeats_of_publishLoaded quiet quietAgain ran (same.trans unchanged)
  refine ⟨second, final, ?_, repeats⟩
  unfold publishIn
  rw [List.map_map] at ranAgain
  rw [Job.runIn_bind_of_ok (Job.runIn_noteAll _ _)]
  exact (Job.runIn_bind_of_ok ranLoad _).trans ranAgain

/-- A publication that succeeds in leaving the files of its lists alone can be repeated: it succeeds
again, comes to the same and changes no file, in whatever orders the lists are loaded. -/
theorem publishIn_again {first : Publication}
    (quiet : ∀ progress, (report progress).Asks Request.KeepsFiles)
    (quietAgain : ∀ progress, (reportAgain progress).Asks Request.KeepsFiles)
    (sameNames : order.Perm (Selection.firsts selection))
    (sameNamesAgain : orderAgain.Perm (Selection.firsts selection))
    (ran : (publishIn order settings report selection).runIn world = (.ok first, after))
    (leftAlone : ListFolder.LeftAlone { directory := settings.listsDirectory } selection
      (fun path => path ∈ outputPaths settings) world.disk after.disk)
    (unchanged : again.disk = after.disk) :
    ∃ second final,
      (publishIn orderAgain settings reportAgain selection).runIn again = (.ok second, final) ∧
      Repeats first second after.disk final.disk := by
  obtain ⟨result, loadedWorld, stands, ranPublish⟩ :=
    stands_of_publishIn quiet sameNames ran leftAlone
  exact exists_repeats_of_stands quiet quietAgain sameNamesAgain stands ranPublish unchanged

/-! ### Lists and containers in one directory -/

/-- Whether the files of a publication and those of its lists have plain names in one directory, and
no two of them have the same name. -/
structure KeptApart (settings : Settings) (selection : List String) : Prop where
  together : settings.outputDirectory = settings.listsDirectory
  plainOutputs : ∀ name ∈ outputNames settings, Path.IsEnding name
  plainLists : ∀ name ∈ selection, '/' ∉ name.toList
  unmarked : ∀ name ∈ selection, name ++ "_advanced" ∉ selection ∧ name ++ "_scriptlets" ∉ selection
  notSource : ∀ name ∈ selection, name ++ ".txt" ∉ outputNames settings
  notConverted : ∀ name ∈ selection, ∀ tier, name ++ ListFolder.suffix tier ∉ outputNames settings

/-- A publication whose directory is there makes no directories. -/
theorem sameDirectories_of_publishIn {first : Publication}
    (quiet : ∀ progress, (report progress).Asks Request.KeepsFiles)
    (sameNames : order.Perm (Selection.firsts selection))
    (ran : (publishIn order settings report selection).runIn world = (.ok first, after))
    (there : ∀ path ∈ outputPaths settings, ∀ directory ∈ Path.ancestors path,
      world.disk.IsDirectory directory) : world.disk.SameDirectories after.disk := by
  obtain ⟨result, noted, between, loadedWorld, outcomes, started, ranLoads, succeeded, loaded,
    ranPublish⟩ := publishIn_eq_ok quiet sameNames ran
  obtain ⟨-, -, -, -, presetScript, -, wrote⟩ := publishLoaded_eq_ok quiet ranPublish
  have loads : world.disk.SameDirectories loadedWorld.disk := by
    rw [← started, loaded]
    exact Selection.sameDirectories_of_loadEach ranLoads succeeded
  refine loads.trans (wrote.sameDirectories fun file member directory onWay => ?_)
  have isPath : file.1 ∈ outputPaths settings := List.mem_map_of_mem member
  exact (there file.1 isPath directory onWay).of_same loads

theorem KeptApart.leftAlone {before after : Disk} (apart : KeptApart settings selection)
    (same : before.SameDirectories after) :
    ListFolder.LeftAlone { directory := settings.listsDirectory } selection
      (fun path => path ∈ outputPaths settings) before after where
  notOutput := by
    intro name member path isFile other isOutput samePlace
    rw [← map_join_outputNames, apart.together] at isOutput
    obtain ⟨output, isName, rfl⟩ := List.mem_map.mp isOutput
    cases isFile with
    | source =>
      have sameName := Disk.eq_of_samePlace_join
        (ListFolder.isEnding_of_plain (apart.plainLists name member) ListFolder.isEnding_source)
        (apart.plainOutputs output isName) samePlace
      exact apart.notSource name member (sameName ▸ isName)
    | converted tier =>
      have sameName := Disk.eq_of_samePlace_join
        (ListFolder.isEnding_of_plain (apart.plainLists name member)
          (ListFolder.isEnding_suffix tier))
        (apart.plainOutputs output isName) samePlace
      exact apart.notConverted name member tier (sameName ▸ isName)
  notConverted := by
    rintro name member path isFile list isList different tier ⟨location, here, there⟩
    cases isFile with
    | source => exact ListFolder.source_ne_converted here there rfl
    | converted ownTier =>
      have sameName := ListFolder.append_mark_eq (ListFolder.append_suffix_eq_of_plain
        (apart.plainLists name member) (apart.plainLists list isList) here there)
      obtain rfl | rfl | rfl | rfl | rfl := ListFolder.eq_or_of_append_mark_eq sameName
      · exact different rfl
      · exact (apart.unmarked name member).1 isList
      · exact (apart.unmarked name member).2 isList
      · exact (apart.unmarked list isList).1 member
      · exact (apart.unmarked list isList).2 member
  opened _ _ _ _ _ located _ := same.locate_eq_ok.mp located
  made _ _ _ _ location _ isDirectory := (same.directory_iff location).mp isDirectory

/-- Where lists and containers lie in one directory under names of their own, every publication that
succeeds can be repeated. -/
theorem KeptApart.exists_repeats {first : Publication} (apart : KeptApart settings selection)
    (quiet : ∀ progress, (report progress).Asks Request.KeepsFiles)
    (quietAgain : ∀ progress, (reportAgain progress).Asks Request.KeepsFiles)
    (sameNames : order.Perm (Selection.firsts selection))
    (sameNamesAgain : orderAgain.Perm (Selection.firsts selection))
    (ran : (publishIn order settings report selection).runIn world = (.ok first, after))
    (there : ∀ path ∈ outputPaths settings, ∀ directory ∈ Path.ancestors path,
      world.disk.IsDirectory directory)
    (unchanged : again.disk = after.disk) :
    ∃ second final,
      (publishIn orderAgain settings reportAgain selection).runIn again = (.ok second, final) ∧
      Repeats first second after.disk final.disk := by
  have leftAlone := apart.leftAlone (sameDirectories_of_publishIn quiet sameNames ran there)
  obtain ⟨result, loadedWorld, stands, ranPublish⟩ :=
    stands_of_publishIn quiet sameNames ran leftAlone
  exact exists_repeats_of_stands quiet quietAgain sameNamesAgain stands ranPublish unchanged

/-- Settings with everything in one directory. -/
def markedSettings : Settings where
  listsDirectory := "lists"
  outputDirectory := "lists"

theorem marked_keptApart : KeptApart markedSettings ["marked", "absent"] where
  together := rfl
  plainOutputs := by
    have each : ∀ name ∈ outputNames markedSettings,
        '/' ∉ name.toList ∧ 2 < name.toList.length := by decide
    exact fun name member => ⟨(each name member).1, (each name member).2⟩
  plainLists := by decide
  unmarked := by decide
  notSource := by decide
  notConverted := by
    intro name member tier
    cases tier <;> revert name <;> decide

/-- A list with a mark, and one that is not there, are published twice to the same effect. -/
theorem marked_publishIn_again : ∃ first after second final,
    (publishIn ["marked", "absent"] markedSettings (fun _ => pure ())
      ["marked", "absent"]).runIn ListFolder.markedWorld = (.ok first, after) ∧
    (publishIn ["absent", "marked"] markedSettings (fun _ => pure ())
      ["marked", "absent"]).runIn after = (.ok second, final) ∧
    Repeats first second after.disk final.disk := by
  have quiet : ∀ progress : Progress,
      (pure () : Program Unit).Asks Request.KeepsFiles := fun _ => Program.asks_pure ()
  have succeeds : ((publishIn ["marked", "absent"] markedSettings (fun _ => pure ())
      ["marked", "absent"]).runIn ListFolder.markedWorld).1.toOption.isSome = true := by
    decide +kernel
  obtain ⟨first, after, ran⟩ := Job.exists_of_isSome succeeds
  have there : ∀ path ∈ outputPaths markedSettings, ∀ directory ∈ Path.ancestors path,
      ListFolder.markedWorld.disk.IsDirectory directory := by
    have ancestors : ∀ path ∈ outputPaths markedSettings,
        ∀ directory ∈ Path.ancestors path, directory = "lists" := by decide
    intro path member directory onWay
    rw [ancestors path member directory onWay]
    exact ⟨["lists"], rfl, rfl⟩
  have sameNames : ["marked", "absent"].Perm (Selection.firsts ["marked", "absent"]) := by decide
  have sameNamesAgain : ["absent", "marked"].Perm (Selection.firsts ["marked", "absent"]) := by
    decide
  have leftAlone := marked_keptApart.leftAlone
    (sameDirectories_of_publishIn quiet sameNames ran there)
  obtain ⟨second, final, ranAgain, repeats⟩ :=
    publishIn_again quiet quiet sameNames sameNamesAgain ran leftAlone rfl
  exact ⟨first, after, second, final, ran, ranAgain, repeats⟩

/-! ### A list with the name of a container -/

/-- An empty directory. -/
def emptyWorld : World where
  disk := { home := [], entries := [] }

/-- Publishes lists with the standard settings and without a report. -/
def publishStandard (selection : List String) (world : World) :
    Except Failure Publication × World :=
  (publish {} (fun _ => pure ()) selection).runIn world

/-- In the standard settings, a list `blockerList2` that is not there is found when it is published
for the second time: the second container is taken for its converted rules. -/
theorem blockerList2_found :
    let first := publishStandard ["blockerList2"] emptyWorld
    let second := publishStandard ["blockerList2"] first.2
    first.1.toOption.map (fun publication => (publication.converted, publication.missing)) =
      some (0, 1) ∧
    second.1.toOption.map (fun publication => (publication.converted, publication.missing)) =
      some (1, 0) := by
  decide +kernel

end Publication

end FilterLists
