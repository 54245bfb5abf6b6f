/-
This file shows what a publication may change. It reads and writes many files, in three stages, and
any request can be refused. What matters is that no file of an earlier publication is touched
before it is certain that there is something to put in its place: while lists are loaded, only
their converted files are written, and no container is written before the rules of all lists have
been distributed.

What a stage may change follows from what it asks for, whatever the replies are. Which stage a
failure comes from is told by the failure, for writing files never fails as distributing does.

Loading is the one stage in which the order can vary. The later stages only see what each list has
ended with, so what is shown of them holds whether the lists were loaded in some order or side by
side.
-/

import FilterLists.Proofs.Files.Frame
import FilterLists.Proofs.Lists.Selection

namespace FilterLists

variable {settings : Settings} {report : Progress → Program Unit} {selection order : List String}
  {allowed : String → Prop} {fates : List Fate} {world after : World}

/-! ### Selections -/

namespace Selection

variable {seen names : List String} {name : String}

theorem mem_firstsAfter_iff : name ∈ firstsAfter seen names ↔ name ∈ names ∧ name ∉ seen := by
  induction names generalizing seen with
  | nil => simp [firstsAfter]
  | cons first rest inductionHypothesis =>
    unfold firstsAfter
    by_cases isSeen : seen.contains first
    · rw [if_pos isSeen, inductionHypothesis, List.mem_cons]
      rw [List.contains_iff_mem] at isSeen
      refine ⟨fun ⟨member, new⟩ => ⟨.inr member, new⟩, ?_⟩
      rintro ⟨rfl | member, new⟩
      · exact absurd isSeen new
      · exact ⟨member, new⟩
    · rw [if_neg isSeen, List.mem_cons, List.mem_cons, inductionHypothesis]
      rw [List.contains_iff_mem] at isSeen
      by_cases same : name = first
      · simp [same, isSeen]
      · simp [same]

theorem nodup_firstsAfter (seen names : List String) : (firstsAfter seen names).Nodup := by
  induction names generalizing seen with
  | nil => exact List.nodup_nil
  | cons first rest inductionHypothesis =>
    unfold firstsAfter
    split
    · exact inductionHypothesis seen
    · refine List.nodup_cons.mpr ⟨fun again => ?_, inductionHypothesis _⟩
      exact (mem_firstsAfter_iff.mp again).2 List.mem_cons_self

theorem mem_firsts_iff : name ∈ firsts names ↔ name ∈ names := by
  unfold firsts
  rw [mem_firstsAfter_iff]
  simp

end Selection

/-! ### What the stages ask for -/

theorem ListFolder.permits_writesAt {folder : ListFolder} {name : String}
    (isAllowed : ∀ tier, allowed (folder.convertedPath name tier)) :
    folder.Permits name (Request.WritesAt allowed) where
  note _ := trivial
  inspectSource := trivial
  readSource := trivial
  inspect _ := trivial
  read _ := trivial
  write tier _ := isAllowed tier
  onWay _ _ _ := ⟨trivial, trivial⟩

theorem Files.asks_save_writesAt {path : String} (isAllowed : allowed path) (content : String) :
    (save path content).Asks (Request.WritesAt allowed) :=
  asks_save isAllowed fun _ _ => ⟨trivial, trivial⟩

theorem Job.asks_noteAll_writesAt (entries : List Journal.Entry) :
    (noteAll entries).Asks (Request.WritesAt allowed) :=
  asks_noteAll (fun _ => trivial) entries

namespace Selection

theorem loadEach_cons (folder : ListFolder) (name : String) (rest : List String) :
    loadEach folder (name :: rest) = do
      let outcome ← (folder.load name).run
      let outcomes ← loadEach folder rest
      return (name, outcome) :: outcomes := by
  unfold loadEach
  rw [List.mapM_cons, bind_assoc]
  rfl

theorem asks_loadEach {folder : ListFolder} {isAllowed : Request → Prop}
    (permits : ∀ name ∈ order, folder.Permits name isAllowed) :
    (loadEach folder order).Asks isAllowed := by
  induction order with
  | nil => exact Program.asks_pure []
  | cons name rest inductionHypothesis =>
    rw [loadEach_cons]
    have first : (ExceptT.run (folder.load name)).Asks isAllowed :=
      (permits name List.mem_cons_self).asks_load
    have later := inductionHypothesis fun other member =>
      permits other (List.mem_cons_of_mem name member)
    exact first.bind fun _ => later.bind fun _ => Program.asks_pure _

theorem asks_collect (quiet : ∀ progress, (report progress).Asks Request.KeepsFiles)
    (total done : Nat) (outcomes : List Outcome) :
    (collect report total done outcomes).Asks Request.KeepsFiles := by
  induction outcomes generalizing done with
  | nil => exact Job.asks_pure []
  | cons outcome rest inductionHypothesis =>
    cases outcome with
    | error failure => exact .done _
    | ok loaded =>
      refine (Job.asks_lift (quiet _)).bind fun _ => ?_
      exact (inductionHypothesis (done + 1)).bind fun _ => Job.asks_pure _

theorem disk_of_attempt_collect (quiet : ∀ progress, (report progress).Asks Request.KeepsFiles)
    {total done : Nat} {outcomes : List Outcome}
    {ended : Option (Except Failure (List (Option TieredRules)))}
    (attempted : (collect report total done outcomes).attempt fates world = (ended, after)) :
    after.disk = world.disk :=
  ((asks_collect quiet total done outcomes).attempt_of_keepsFiles attempted).1

/-! ### The first failure -/

variable {outcomes : List (String × Outcome)} {lookup : String → Option Outcome} {failure : Failure}

theorem map_fst_of_attempt {folder : ListFolder}
    (attempted : (loadEach folder order).attempt fates world = (some outcomes, after)) :
    outcomes.map Prod.fst = order := by
  induction order generalizing fates world outcomes with
  | nil =>
    cases attempted
    rfl
  | cons name rest inductionHypothesis =>
    rw [loadEach_cons] at attempted
    obtain ⟨ended, -⟩ | ⟨outcome, left, between, -, attempted⟩ := Program.attempt_bind attempted
    · cases ended
    obtain ⟨ended, -⟩ | ⟨later, left, between, loaded, returned⟩ := Program.attempt_bind attempted
    · cases ended
    cases returned
    rw [List.map_cons, inductionHypothesis loaded]

theorem exists_lookup {name : String} (named : name ∈ outcomes.map Prod.fst) :
    ∃ outcome, outcomes.lookup name = some outcome := by
  obtain ⟨⟨same, outcome⟩, member, rfl⟩ := List.mem_map.mp named
  exact Option.isSome_iff_exists.mp (List.lookup_isSome_iff.mpr ⟨_, member, BEq.rfl⟩)

theorem mem_of_lookup {name : String} {outcome : Outcome}
    (found : outcomes.lookup name = some outcome) : (name, outcome) ∈ outcomes := by
  obtain ⟨front, back, rfl, -⟩ := List.lookup_eq_some_iff.mp found
  simp

/-- If some lists fail, one of them is the first. -/
theorem exists_first_failure {name : String} (found : ∀ name ∈ names, ∃ outcome,
      lookup name = some outcome) (member : name ∈ names)
    (fails : lookup name = some (.error failure)) :
    ∃ front first back failure, names = front ++ first :: back ∧
      (∀ earlier ∈ front, ∃ loaded, lookup earlier = some (.ok loaded)) ∧
      lookup first = some (.error failure) := by
  induction names with
  | nil => cases member
  | cons head rest inductionHypothesis =>
    obtain ⟨outcome, headFound⟩ := found head List.mem_cons_self
    cases outcome with
    | error failure => exact ⟨[], head, rest, failure, rfl, by simp, headFound⟩
    | ok loaded =>
      have later : name ∈ rest := by
        obtain rfl | later := List.mem_cons.mp member
        · rw [headFound] at fails
          cases fails
        · exact later
      obtain ⟨front, first, back, failure, rfl, succeeded, failed⟩ := inductionHypothesis
        (fun other member => found other (List.mem_cons_of_mem _ member)) later
      refine ⟨head :: front, first, back, failure, rfl, ?_, failed⟩
      rintro earlier (_ | ⟨_, earlierMember⟩)
      · exact ⟨loaded, headFound⟩
      · exact succeeded earlier earlierMember

/-- Collecting what lists ended with ends with the first failure. -/
theorem attempt_collect_of_failure {total done : Nat} {front back : List String} {name : String}
    {ended : Option (Except Failure (List (Option TieredRules)))}
    (succeeded : ∀ earlier ∈ front, ∃ loaded, lookup earlier = some (.ok loaded))
    (fails : lookup name = some (.error failure))
    (attempted : (collect report total done ((front ++ name :: back).filterMap lookup)).attempt
      fates world = (ended, after)) : ended = none ∨ ended = some (.error failure) := by
  induction front generalizing done fates world ended with
  | nil =>
    rw [List.nil_append, List.filterMap_cons_some fails] at attempted
    cases attempted
    exact .inr rfl
  | cons head front inductionHypothesis =>
    obtain ⟨loaded, found⟩ := succeeded head List.mem_cons_self
    rw [List.cons_append, List.filterMap_cons_some found, collect] at attempted
    obtain ⟨rfl, -⟩ | ⟨⟨⟩, left, between, -, attempted⟩ := Job.attempt_bind_lift attempted
    · exact .inl rfl
    obtain ⟨later, collected, rfl⟩ := Job.attempt_bind_pure attempted
    obtain rfl | rfl := inductionHypothesis
      (fun earlier member => succeeded earlier (List.mem_cons_of_mem _ member)) collected
    · exact .inl rfl
    · exact .inr rfl

end Selection

namespace Publication

/-! ### What may change -/

/-- Whether a path is that of a file of converted rules of a list in a selection. -/
def IsConverted (settings : Settings) (selection : List String) (path : String) : Prop :=
  ∃ name ∈ selection, ∃ tier,
    path = ({ directory := settings.listsDirectory } : ListFolder).convertedPath name tier

/-- The names of the files with resources for pages. -/
def resourceNames : List String :=
  ["youtube-adblock.js", "youtube-adblock.css", "youtube-scriptlets.js"]

/-- The paths of all files that a publication may change. -/
inductive MayChange (settings : Settings) (selection : List String) : String → Prop
  | converted {path : String} :
    IsConverted settings selection path → MayChange settings selection path
  | container {path : String} :
    path ∈ settings.containerPaths → MayChange settings selection path
  | resource {name : String} :
    name ∈ resourceNames → MayChange settings selection (Path.join settings.outputDirectory name)

/-! ### Loading the lists -/

/-- Loads the lists of a selection in a given order, and gives what each of them ended with. -/
def loadOutcomes (order : List String) (settings : Settings) (selection : List String) :
    Program (List (String × Selection.Outcome)) := do
  Program.noteAll ((Selection.repeats selection).map Selection.repeatEntry)
  Selection.loadEach { directory := settings.listsDirectory } order

/-- Publishes what the lists of a selection ended with. -/
def publishOutcomes (settings : Settings) (report : Progress → Program Unit)
    (selection : List String) (outcomes : List (String × Selection.Outcome)) :
    Job Publication := do
  let names := Selection.firsts selection
  let loaded ← Selection.collect report names.length 0
    (names.filterMap fun name => outcomes.lookup name)
  publishLoaded settings report loaded

theorem run_publishIn (order : List String) (settings : Settings)
    (report : Progress → Program Unit) (selection : List String) :
    ExceptT.run (publishIn order settings report selection) =
      loadOutcomes order settings selection >>= fun outcomes =>
        ExceptT.run (publishOutcomes settings report selection outcomes) := by
  simp only [publishIn, loadOutcomes, publishOutcomes, Job.noteAll, Selection.load, bind_assoc,
    ExceptT.run_bind_lift]

variable {outcomes : List (String × Selection.Outcome)} {loaded : List (Option TieredRules)}
  {ended : Option (Except Failure Publication)} {between : World} {plan : Plan}

theorem permits_isConverted {name : String} (member : name ∈ Selection.firsts selection) :
    ({ directory := settings.listsDirectory } : ListFolder).Permits name
      (Request.WritesAt (IsConverted settings selection)) :=
  ListFolder.permits_writesAt fun tier => ⟨name, Selection.mem_firsts_iff.mp member, tier, rfl⟩

theorem asks_loadOutcomes (sameNames : order.Perm (Selection.firsts selection)) :
    (loadOutcomes order settings selection).Asks
      (Request.WritesAt (IsConverted settings selection)) := by
  refine (Program.asks_noteAll (fun _ => trivial) _).bind fun _ => ?_
  exact Selection.asks_loadEach fun name member => permits_isConverted (sameNames.subset member)

theorem map_fst_of_attempt_loadOutcomes
    (attempted : (loadOutcomes order settings selection).attempt fates world =
      (some outcomes, after)) : outcomes.map Prod.fst = order := by
  obtain ⟨ended, -⟩ | ⟨⟨⟩, left, between, -, loaded⟩ := Program.attempt_bind attempted
  · cases ended
  · exact Selection.map_fst_of_attempt loaded

/-- Lists that are loaded side by side, however far each of them has come, have changed nothing but
their converted files. -/
theorem changesOnly_of_advance {later : String → Program Selection.Outcome}
    (advance : Program.Advance (Selection.firsts selection)
      (fun name => ExceptT.run (ListFolder.load { directory := settings.listsDirectory } name))
      world later after) :
    world.disk.ChangesOnly (IsConverted settings selection) after.disk :=
  advance.changesOnly (fun _ member => (permits_isConverted member).asks_load) (.refl _ _)

/-! ### Writing the files -/

theorem asks_writeContainers {containers : List (String × List Rule)}
    (areAllowed : ∀ container ∈ containers, allowed container.1) :
    (writeContainers containers).Asks (Request.WritesAt allowed) := by
  induction containers with
  | nil => exact Job.asks_pure ()
  | cons container rest inductionHypothesis =>
    have save : (Rule.saveAll container.1 container.2).Asks (Request.WritesAt allowed) :=
      Files.asks_save_writesAt (areAllowed container List.mem_cons_self) _
    refine save.bind fun _ => (Job.asks_noteAll_writesAt _).bind fun _ => ?_
    exact inductionHypothesis fun other member => areAllowed other (List.mem_cons_of_mem _ member)

theorem asks_writeTexts {texts : List (String × String)}
    (areAllowed : ∀ text ∈ texts, allowed text.1) :
    (writeTexts texts).Asks (Request.WritesAt allowed) := by
  induction texts with
  | nil => exact Job.asks_pure ()
  | cons text rest inductionHypothesis =>
    have save := Files.asks_save_writesAt (areAllowed text List.mem_cons_self) text.2
    refine save.bind fun _ => ?_
    exact inductionHypothesis fun other member => areAllowed other (List.mem_cons_of_mem _ member)

section

variable (quiet : ∀ progress, (report progress).Asks Request.KeepsFiles)

include quiet

theorem asks_report (progress : Progress) :
    (report progress).Asks (Request.WritesAt allowed) :=
  (quiet progress).mono fun _ => Request.KeepsFiles.writesAt

theorem asks_writePlan (plan : Plan) :
    (writePlan settings report plan).Asks
      (Request.WritesAt (MayChange settings selection)) := by
  unfold writePlan resources
  simp only [bind_assoc, pure_bind]
  refine (asks_writeContainers fun container member => ?_).bind fun _ => ?_
  · exact .container (List.of_mem_zip member).1
  refine (Job.asks_ofExcept _ _).bind fun presetScript => ?_
  refine (asks_writeTexts fun text member => ?_).bind fun _ => ?_
  · have named : text.1 ∈ resourceNames.map (Path.join settings.outputDirectory) :=
      List.mem_map_of_mem member
    obtain ⟨name, nameMember, isPath⟩ := List.mem_map.mp named
    exact isPath ▸ .resource nameMember
  exact (Job.asks_lift (asks_report quiet _)).bind fun _ => Job.asks_pure _

theorem asks_publishLoaded (loaded : List (Option TieredRules)) :
    (publishLoaded settings report loaded).Asks
      (Request.WritesAt (MayChange settings selection)) := by
  refine (Job.asks_noteAll_writesAt _).bind fun _ => ?_
  refine (Job.asks_ofExcept _ _).bind fun plan => ?_
  refine (Job.asks_noteAll_writesAt _).bind fun _ => ?_
  exact (asks_writePlan quiet plan).bind fun _ => Job.asks_pure _

end

/-- How the files of a publication can fail to be written. -/
inductive IsOfWriting : Failure → Prop
  | file (path : String) (cause : Cause) : IsOfWriting (.writing path cause)
  | scriptlet (error : Scriptlet.UnknownScriptlet) : IsOfWriting (.scriptlet error)

theorem failsOnly_save (path content : String) : (Files.save path content).FailsOnly IsOfWriting :=
  (Job.failsOnly_lift _).bind fun outcome => Job.failsOnly_ofExcept (.file path) outcome

theorem failsOnly_noteAll (entries : List Journal.Entry) :
    (Job.noteAll entries).FailsOnly IsOfWriting :=
  Job.failsOnly_lift _

theorem failsOnly_writeContainers (containers : List (String × List Rule)) :
    (writeContainers containers).FailsOnly IsOfWriting := by
  induction containers with
  | nil => exact Job.failsOnly_pure ()
  | cons container rest inductionHypothesis =>
    exact (failsOnly_save _ _).bind fun _ => (failsOnly_noteAll _).bind fun _ =>
      inductionHypothesis

theorem failsOnly_writeTexts (texts : List (String × String)) :
    (writeTexts texts).FailsOnly IsOfWriting := by
  induction texts with
  | nil => exact Job.failsOnly_pure ()
  | cons text rest inductionHypothesis =>
    exact (failsOnly_save _ _).bind fun _ => inductionHypothesis

theorem failsOnly_resources (settings : Settings) :
    (resources settings).FailsOnly IsOfWriting :=
  (Job.failsOnly_ofExcept .scriptlet _).bind fun _ => Job.failsOnly_pure _

theorem failsOnly_writePlan (settings : Settings) (report : Progress → Program Unit)
    (plan : Plan) : (writePlan settings report plan).FailsOnly IsOfWriting := by
  refine (failsOnly_writeContainers _).bind fun _ => (failsOnly_resources _).bind fun _ => ?_
  refine (failsOnly_writeTexts _).bind fun _ => (Job.failsOnly_lift _).bind fun _ => ?_
  exact Job.failsOnly_pure _

theorem failsOnly_publishLoaded
    (distributed : distributeSupplemented settings.limits
      (TieredRules.join (loaded.filterMap id)) = .ok plan) :
    (publishLoaded settings report loaded).FailsOnly IsOfWriting := by
  unfold publishLoaded
  dsimp only
  rw [distributed]
  refine (failsOnly_noteAll _).bind fun _ => (Job.failsOnly_pure plan).bind fun _ => ?_
  refine (failsOnly_noteAll _).bind fun _ => (failsOnly_writePlan _ _ _).bind fun _ => ?_
  exact Job.failsOnly_pure _

/-! ### Failures before the files are written -/

/-- Where the rules cannot be distributed, nothing is written. -/
theorem attempt_publishLoaded_of_error {error : DistributionError}
    (distributed : distributeSupplemented settings.limits
      (TieredRules.join (loaded.filterMap id)) = .error error)
    (attempted : (publishLoaded settings report loaded).attempt fates world = (ended, after)) :
    after.disk = world.disk ∧ (ended = none ∨ ended = some (.error (.distribution error))) := by
  unfold publishLoaded at attempted
  dsimp only at attempted
  rw [distributed] at attempted
  obtain ⟨rfl, noted⟩ | ⟨failure, -, noted⟩ | ⟨⟨⟩, left, between, noted, attempted⟩ :=
    Job.attempt_bind attempted
  · exact ⟨(Job.attempt_noteAll noted).1, .inl rfl⟩
  · obtain ended | ended := (Job.attempt_noteAll noted).2 <;> cases ended
  · cases attempted
    exact ⟨(Job.attempt_noteAll noted).1, .inr rfl⟩

/-- A failed distribution comes before anything is written. -/
theorem disk_of_attempt_publishLoaded {error : DistributionError}
    (attempted : (publishLoaded settings report loaded).attempt fates world =
      (some (.error (.distribution error)), after)) : after.disk = world.disk := by
  cases distributed :
    distributeSupplemented settings.limits (TieredRules.join (loaded.filterMap id)) with
  | error other => exact (attempt_publishLoaded_of_error distributed attempted).1
  | ok plan => cases failsOnly_publishLoaded distributed _ _ _ _ attempted

theorem distributeSupplemented_of_noCapacity (empty : settings.capacity = 0)
    (rules : TieredRules) :
    distributeSupplemented settings.limits rules = .error .noCapacity := by
  unfold distributeSupplemented distribute Limits.error?
  rw [if_pos (show settings.limits.capacity = 0 from empty)]

section

variable (quiet : ∀ progress, (report progress).Asks Request.KeepsFiles)

include quiet

/-- Nothing is written before all lists that were loaded have been collected. -/
theorem attempt_publishOutcomes
    (attempted : (publishOutcomes settings report selection outcomes).attempt fates world =
      (ended, after)) :
    (after.disk = world.disk ∧ ∀ publication, ended ≠ some (.ok publication)) ∨
      ∃ loaded left between, between.disk = world.disk ∧
        (publishLoaded settings report loaded).attempt left between = (ended, after) := by
  obtain ⟨rfl, first⟩ | ⟨failure, rfl, first⟩ | ⟨loaded, left, between, first, attempted⟩ :=
    Job.attempt_bind attempted
  · exact .inl ⟨Selection.disk_of_attempt_collect quiet first, by simp⟩
  · exact .inl ⟨Selection.disk_of_attempt_collect quiet first, by simp⟩
  · exact .inr ⟨loaded, left, between, Selection.disk_of_attempt_collect quiet first, attempted⟩

/-- If a list has failed, nothing is written, and the publication fails as the first such list. -/
theorem attempt_publishOutcomes_of_failure {front back : List String} {name : String}
    {failure : Failure} (isFirst : Selection.firsts selection = front ++ name :: back)
    (succeeded : ∀ earlier ∈ front, ∃ loaded, outcomes.lookup earlier = some (.ok loaded))
    (fails : outcomes.lookup name = some (.error failure))
    (attempted : (publishOutcomes settings report selection outcomes).attempt fates world =
      (ended, after)) :
    after.disk = world.disk ∧ (ended = none ∨ ended = some (.error failure)) := by
  unfold publishOutcomes at attempted
  dsimp only at attempted
  rw [isFirst] at attempted
  obtain ⟨rfl, first⟩ | ⟨other, rfl, first⟩ | ⟨loaded, left, between, first, -⟩ :=
    Job.attempt_bind attempted
  · exact ⟨Selection.disk_of_attempt_collect quiet first, .inl rfl⟩
  · obtain ended | ended := Selection.attempt_collect_of_failure succeeded fails first <;>
      cases ended
    exact ⟨Selection.disk_of_attempt_collect quiet first, .inr rfl⟩
  · obtain ended | ended := Selection.attempt_collect_of_failure succeeded fails first <;>
      cases ended

/-! ### Publications -/

theorem asks_publishOutcomes (outcomes : List (String × Selection.Outcome)) :
    (publishOutcomes settings report selection outcomes).Asks
      (Request.WritesAt (MayChange settings selection)) := by
  refine Job.Asks.bind ?_ fun loaded => asks_publishLoaded quiet loaded
  exact (Selection.asks_collect quiet _ _ _).mono fun _ => Request.KeepsFiles.writesAt

end

theorem attempt_publishIn (sameNames : order.Perm (Selection.firsts selection))
    (attempted : (publishIn order settings report selection).attempt fates world =
      (ended, after)) :
    (ended = none ∧ ((loadOutcomes order settings selection).attempt fates world).1 = none ∧
      world.disk.ChangesOnly (IsConverted settings selection) after.disk) ∨
      ∃ outcomes left between,
        (loadOutcomes order settings selection).attempt fates world = (some outcomes, between) ∧
        world.disk.ChangesOnly (IsConverted settings selection) between.disk ∧
        (publishOutcomes settings report selection outcomes).attempt left between =
          (ended, after) := by
  have asks : (loadOutcomes order settings selection).Asks _ := asks_loadOutcomes sameNames
  rw [Job.attempt, run_publishIn] at attempted
  obtain ⟨isNone, loaded⟩ | ⟨outcomes, left, between, loaded, attempted⟩ :=
    Program.attempt_bind attempted
  · exact .inl ⟨isNone, congrArg Prod.fst loaded, asks.changesOnly loaded⟩
  · exact .inr ⟨outcomes, left, between, loaded, asks.changesOnly loaded, attempted⟩

/-- What a publication has changed since before its lists were loaded, once each of them has ended
with an outcome. -/
structure ConfinedAfterLoading (settings : Settings) (selection : List String)
    (outcomes : List (String × Selection.Outcome)) (world : World)
    (ended : Option (Except Failure Publication)) (after : World) : Prop where
  changes : world.disk.ChangesOnly (MayChange settings selection) after.disk
  failedList : (∃ name failure, (name, .error failure) ∈ outcomes) →
    world.disk.ChangesOnly (IsConverted settings selection) after.disk ∧
    ∃ front name back failure, Selection.firsts selection = front ++ name :: back ∧
      (∀ earlier ∈ front, ∃ loaded, (earlier, .ok loaded) ∈ outcomes) ∧
      (name, .error failure) ∈ outcomes ∧ (ended = none ∨ ended = some (.error failure))
  undistributed : ∀ error, ended = some (.error (.distribution error)) →
    world.disk.ChangesOnly (IsConverted settings selection) after.disk
  noCapacity : settings.capacity = 0 →
    world.disk.ChangesOnly (IsConverted settings selection) after.disk ∧
    ∀ publication, ended ≠ some (.ok publication)

/-- However its lists have come to their outcomes, a publication is confined from then on. -/
theorem publishOutcomes_confined (quiet : ∀ progress, (report progress).Asks Request.KeepsFiles)
    (sameNames : (outcomes.map Prod.fst).Perm (Selection.firsts selection))
    (loads : world.disk.ChangesOnly (IsConverted settings selection) between.disk)
    (attempted : (publishOutcomes settings report selection outcomes).attempt fates between =
      (ended, after)) :
    ConfinedAfterLoading settings selection outcomes world ended after where
  changes := by
    have asks : (publishOutcomes settings report selection outcomes).Asks
        (Request.WritesAt (MayChange settings selection)) :=
      asks_publishOutcomes quiet outcomes
    exact (loads.mono fun _ => .converted).trans (Program.Asks.changesOnly asks attempted)
  failedList := by
    rintro ⟨name, failure, member⟩
    have distinct : (outcomes.map Prod.fst).Nodup :=
      sameNames.nodup_iff.mpr (Selection.nodup_firstsAfter [] selection)
    obtain ⟨front, first, back, failure, isFirst, succeeded, failed⟩ :=
      Selection.exists_first_failure
        (fun name named => Selection.exists_lookup (sameNames.mem_iff.mpr named))
        (sameNames.subset (List.mem_map_of_mem member)) (Selection.lookup_of_mem distinct member)
    obtain ⟨unchanged, endsSo⟩ :=
      attempt_publishOutcomes_of_failure quiet isFirst succeeded failed attempted
    refine ⟨unchanged ▸ loads, front, first, back, failure, isFirst, ?_, ?_, endsSo⟩
    · intro earlier earlierMember
      obtain ⟨result, found⟩ := succeeded earlier earlierMember
      exact ⟨result, Selection.mem_of_lookup found⟩
    · exact Selection.mem_of_lookup failed
  undistributed := by
    rintro error rfl
    obtain ⟨unchanged, -⟩ | ⟨loaded, left, collected, unchanged, published⟩ :=
      attempt_publishOutcomes quiet attempted
    · exact unchanged ▸ loads
    · rw [disk_of_attempt_publishLoaded published, unchanged]
      exact loads
  noCapacity := by
    intro empty
    obtain ⟨unchanged, failed⟩ | ⟨loaded, left, collected, unchanged, published⟩ :=
      attempt_publishOutcomes quiet attempted
    · exact ⟨unchanged ▸ loads, failed⟩
    · obtain ⟨still, endsSo⟩ := attempt_publishLoaded_of_error
        (distributeSupplemented_of_noCapacity empty _) published
      refine ⟨?_, ?_⟩
      · rw [still, unchanged]
        exact loads
      · rintro publication rfl
        obtain ended | ended := endsSo <;> cases ended

/-- A publication whose lists were loaded side by side, with whatever outcomes, is confined too. -/
theorem publishOutcomes_confined_of_advance {values : String → Selection.Outcome}
    {later : String → Program Selection.Outcome}
    (quiet : ∀ progress, (report progress).Asks Request.KeepsFiles)
    (advance : Program.Advance (Selection.firsts selection)
      (fun name => ExceptT.run (ListFolder.load { directory := settings.listsDirectory } name))
      world later between)
    (attempted : (publishOutcomes settings report selection
      ((Selection.firsts selection).map fun name => (name, values name))).attempt fates between =
        (ended, after)) :
    ConfinedAfterLoading settings selection
      ((Selection.firsts selection).map fun name => (name, values name)) world ended after := by
  have sameNames : (((Selection.firsts selection).map
      fun name => (name, values name)).map Prod.fst).Perm (Selection.firsts selection) := by
    rw [List.map_map]
    exact .of_eq (List.map_id _)
  exact publishOutcomes_confined quiet sameNames (changesOnly_of_advance advance) attempted

/-- What a publication has changed, however it has ended. -/
structure Confined (order : List String) (settings : Settings) (selection : List String)
    (fates : List Fate) (world : World) (ended : Option (Except Failure Publication))
    (after : World) : Prop where
  /-- Nothing is changed but converted files, containers and resources for pages. -/
  changes : world.disk.ChangesOnly (MayChange settings selection) after.disk
  /-- If some list could not be loaded, the publication fails as the first such list of the
  selection, and no container and no resource was written. -/
  failedList : ∀ outcomes,
    ((loadOutcomes order settings selection).attempt fates world).1 = some outcomes →
    (∃ name failure, (name, .error failure) ∈ outcomes) →
    world.disk.ChangesOnly (IsConverted settings selection) after.disk ∧
    ∃ front name back failure, Selection.firsts selection = front ++ name :: back ∧
      (∀ earlier ∈ front, ∃ loaded, (earlier, .ok loaded) ∈ outcomes) ∧
      (name, .error failure) ∈ outcomes ∧ (ended = none ∨ ended = some (.error failure))
  /-- If the rules could not be distributed, no container and no resource was written. -/
  undistributed : ∀ error, ended = some (.error (.distribution error)) →
    world.disk.ChangesOnly (IsConverted settings selection) after.disk
  /-- Containers without capacity are never written. -/
  noCapacity : settings.capacity = 0 →
    world.disk.ChangesOnly (IsConverted settings selection) after.disk ∧
    ∀ publication, ended ≠ some (.ok publication)

/-- However a publication goes, and in whatever order its lists are loaded, it is confined. What it
reports is only noted in the journal. If a program sends its notes to an activity log, as
`CommandLine.logged` does, the two files of that log change as well. -/
theorem publishIn_confined (sameNames : order.Perm (Selection.firsts selection))
    (quiet : ∀ progress, (report progress).Asks Request.KeepsFiles)
    (attempted : (publishIn order settings report selection).attempt fates world =
      (ended, after)) : Confined order settings selection fates world ended after := by
  obtain ⟨rfl, isNone, changes⟩ | ⟨outcomes, left, between, loaded, loads, published⟩ :=
    attempt_publishIn sameNames attempted
  · refine ⟨changes.mono fun _ => .converted, fun outcomes areOutcomes => ?_, nofun,
      fun _ => ⟨changes, nofun⟩⟩
    rw [isNone] at areOutcomes
    cases areOutcomes
  · have names : outcomes.map Prod.fst = order := map_fst_of_attempt_loadOutcomes loaded
    obtain ⟨changes, failedList, undistributed, noCapacity⟩ :=
      publishOutcomes_confined quiet (names ▸ sameNames) loads published
    refine ⟨changes, fun others areOutcomes => ?_, undistributed, noCapacity⟩
    rw [loaded] at areOutcomes
    cases areOutcomes
    exact failedList

/-! ### A list that cannot be read -/

/-- A folder with a list `good` that has not been converted, and with a file that is not what a list
`bad` can have been converted to. -/
def unevenWorld : World where
  disk := {
    home := []
    entries := [
      (["lists"], .directory),
      (["lists", "bad.json"], .file "[".toUTF8),
      (["lists", "good.txt"], .file "||ads.example^".toUTF8)] }

def unevenSettings : Settings where
  listsDirectory := "lists"
  outputDirectory := "out"

/-- Publishes lists of the folder without a report, and with nothing refused. -/
def publishUneven (capacity : Nat) (order selection : List String) :
    Option (Except Failure Publication) × World :=
  (publishIn order { unevenSettings with capacity } (fun _ => pure ()) selection).attempt
    (List.replicate 200 .answered) unevenWorld

/-- The failure that a publication ended with, if it failed. -/
def failure? : Option (Except Failure Publication) → Option Failure
  | some (.error failure) => some failure
  | _ => none

theorem eq_of_failure? {failure : Failure} (isFailure : failure? ended = some failure) :
    ended = some (.error failure) := by
  cases ended with
  | none => cases isFailure
  | some outcome =>
    cases outcome with
    | ok publication => cases isFailure
    | error other => exact congrArg (some ∘ Except.error) (Option.some.inj isFailure)

/-- The list `good` can be published, but not together with `bad`, and not without capacity. -/
theorem uneven_confined :
    (∃ publication after,
      publishUneven 8 ["good"] ["good", "good"] = (some (.ok publication), after) ∧
      unevenWorld.disk.ChangesOnly
        (MayChange { unevenSettings with capacity := 8 } ["good", "good"]) after.disk) ∧
    (∃ after,
      publishUneven 8 ["bad", "good"] ["good", "bad", "good"] =
        (some (.error (.badJson "lists/bad.json")), after) ∧
      unevenWorld.disk.ChangesOnly
        (IsConverted { unevenSettings with capacity := 8 } ["good", "bad", "good"]) after.disk) ∧
    ∃ after,
      publishUneven 0 ["good"] ["good"] = (some (.error (.distribution .noCapacity)), after) ∧
      unevenWorld.disk.ChangesOnly (IsConverted { unevenSettings with capacity := 0 } ["good"])
        after.disk := by
  have quiet : ∀ progress : Progress,
      (pure () : Program Unit).Asks Request.KeepsFiles := fun _ => Program.asks_pure ()
  refine ⟨?_, ?_, ?_⟩
  · have succeeds : (publishUneven 8 ["good"] ["good", "good"]).1.map
        (fun outcome => outcome.toOption.isSome) = some true := by
      decide +kernel
    obtain ⟨outcome, ended, isOk⟩ := Option.map_eq_some_iff.mp succeeds
    cases outcome with
    | error failure => cases isOk
    | ok publication =>
      have attempted := Job.attempt_eq ended
      exact ⟨publication, _, attempted, (publishIn_confined (by decide) quiet attempted).changes⟩
  · have fails : failure? (publishUneven 8 ["bad", "good"] ["good", "bad", "good"]).1 =
        some (.badJson "lists/bad.json") := by
      decide +kernel
    have attempted := Job.attempt_eq (eq_of_failure? fails)
    have loads : ((loadOutcomes ["bad", "good"] { unevenSettings with capacity := 8 }
        ["good", "bad", "good"]).attempt (List.replicate 200 .answered) unevenWorld).1.map
          (fun outcomes => outcomes.any fun entry => !entry.2.toOption.isSome) = some true := by
      decide +kernel
    obtain ⟨outcomes, areOutcomes, anyFails⟩ := Option.map_eq_some_iff.mp loads
    obtain ⟨⟨name, outcome⟩, member, isError⟩ := List.any_eq_true.mp anyFails
    cases outcome with
    | ok loaded => cases isError
    | error failure =>
      have confined := publishIn_confined (by decide) quiet attempted
      exact ⟨_, attempted, (confined.failedList outcomes areOutcomes ⟨name, failure, member⟩).1⟩
  · have fails : failure? (publishUneven 0 ["good"] ["good"]).1 =
        some (.distribution .noCapacity) := by
      decide +kernel
    have attempted := Job.attempt_eq (eq_of_failure? fails)
    exact ⟨_, attempted, (publishIn_confined (by decide) quiet attempted).undistributed _ rfl⟩

end Publication

end FilterLists
