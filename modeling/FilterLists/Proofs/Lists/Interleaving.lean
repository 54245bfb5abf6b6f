/-
This file shows that lists can even be loaded side by side, each request of one list between any
requests of the others, as long as no two lists share a file.

Loading a list asks only for the source of the list, for the files of its tiers, and for directories
that are there already. So what the list is told, and what it changes, depends on the places of
these files alone. Each list is compared with a world of its own, where it is loaded alone: the
two agree on the places of its files, whatever the others do.

To load lists one after the other is one way to load them side by side. So whole loads in some
order, which is what selections and publications are made of here, lose nothing where no two lists
share a file: each list ends with the same outcome, however the loads are mixed. Where two lists
share a file the outcomes can differ, but still nothing changes except converted files.
-/

import FilterLists.Proofs.Lists.Selection
import FilterLists.Proofs.Program.Requests

namespace FilterLists

/-! ### What loading a list asks for -/

namespace ListFolder

variable {folder : ListFolder} {disk : Disk} {name other : String} {location : Location}

/-- Whether a path is that of the source or of a converted file of a list. -/
inductive Owns (folder : ListFolder) (name : String) : String → Prop
  | source : Owns folder name (folder.sourcePath name)
  | converted (tier : Tier) : Owns folder name (folder.convertedPath name tier)

/-- What may be asked for while a list is loaded from a folder. -/
inductive MayAsk (folder : ListFolder) (disk : Disk) (name : String) : Request → Prop
  | note (entry : Journal.Entry) : MayAsk folder disk name (.note entry)
  | inspect {path : String} : folder.Owns name path → MayAsk folder disk name (.inspect path)
  | read {path : String} : folder.Owns name path → MayAsk folder disk name (.read path)
  | write (tier : Tier) (content : String) :
    MayAsk folder disk name (.write (folder.convertedPath name tier) content)
  | inspectDirectory {path : String} :
    disk.IsDirectory path → MayAsk folder disk name (.inspect path)
  | createDirectory {path : String} :
    disk.IsDirectory path → MayAsk folder disk name (.createDirectory path)

/-- Where the source of a list can be reached, the directories of its files are there already. -/
theorem permits_mayAsk (located : disk.locate (folder.sourcePath name) = .ok location) :
    folder.Permits name (folder.MayAsk disk name) where
  note := .note
  inspectSource := .inspect .source
  readSource := .read .source
  inspect tier := .inspect (.converted tier)
  read tier := .read (.converted tier)
  write := .write
  onWay tier directory member := by
    have there := isDirectory_of_mem_ancestors located tier directory member
    exact ⟨.createDirectory there, .inspectDirectory there⟩

/-! ### Two worlds that agree on a list -/

theorem Owns.exists_ending {path : String} (owns : folder.Owns name path) :
    ∃ ending, Path.IsEnding ending ∧ path = Path.join folder.directory name ++ ending := by
  cases owns with
  | source => exact ⟨_, isEnding_source, sourcePath_eq folder name⟩
  | converted tier => exact ⟨_, isEnding_suffix tier, convertedPath_eq folder name tier⟩

/-- Whether two disks agree on the files of a list. Both have the directories of `disk`, and so
its places for these files. -/
structure Agree (folder : ListFolder) (disk : Disk) (name : String) (first second : Disk) :
    Prop where
  first_same : Disk.SameDirectories disk first
  second_same : Disk.SameDirectories disk second
  found : ∀ {path : String} {location : Location}, folder.Owns name path →
    disk.locate path = .ok location → first.get? location = second.get? location

theorem Agree.refl (folder : ListFolder) (disk : Disk) (name : String) :
    folder.Agree disk name disk disk :=
  ⟨.refl disk, .refl disk, fun _ _ => rfl⟩

theorem Agree.sameAt {first second : Disk} {path : String}
    (agree : folder.Agree disk name first second) (owns : folder.Owns name path)
    (located : disk.locate (folder.sourcePath name) = .ok location) :
    Disk.SameAt first second path := by
  obtain ⟨ending, isEnding, rfl⟩ := owns.exists_ending
  rw [sourcePath_eq] at located
  refine ⟨?_, fun place here => ?_⟩
  · rw [agree.first_same.locate_eq isEnding isEnding_source located,
      agree.second_same.locate_eq isEnding isEnding_source located]
  · exact agree.found owns (agree.first_same.locate_eq_ok.mp here)

/-- What may be asked for while a list is loaded is answered in the same way where two worlds agree
on the list, and they still agree on it afterwards. -/
theorem MayAsk.answer_eq {request : Request} {first second : World}
    (mayAsk : folder.MayAsk disk name request)
    (agree : folder.Agree disk name first.disk second.disk)
    (located : disk.locate (folder.sourcePath name) = .ok location) :
    (first.answer request).1 = (second.answer request).1 ∧
      folder.Agree disk name (first.answer request).2.disk (second.answer request).2.disk := by
  cases mayAsk with
  | note entry => exact ⟨rfl, agree⟩
  | inspect owns => exact ⟨(agree.sameAt owns located).inspect_eq, agree⟩
  | read owns =>
    refine ⟨?_, agree⟩
    show first.disk.read _ >>= World.decode = second.disk.read _ >>= World.decode
    rw [(agree.sameAt owns located).read_eq]
  | write tier content =>
    have plain := folder.insistsOnDirectory_convertedPath name tier
    show (first.withDisk _).1 = (second.withDisk _).1 ∧
      folder.Agree disk name (first.withDisk _).2.disk (second.withDisk _).2.disk
    obtain ⟨cause, firstFails, secondFails⟩ | ⟨place, here, noDirectory, firstDisk, secondDisk⟩ :=
      (agree.sameAt (.converted tier) located).write_cases plain content.toUTF8
    · rw [firstFails, secondFails]
      exact ⟨rfl, agree⟩
    · rw [firstDisk, secondDisk]
      refine ⟨rfl, ?_⟩
      have secondNoDirectory : second.disk.get? place ≠ some .directory := by
        rw [← agree.found (.converted tier) (agree.first_same.locate_eq_ok.mp here)]
        exact noDirectory
      refine ⟨agree.first_same.trans (Disk.sameDirectories_set noDirectory _),
        agree.second_same.trans (Disk.sameDirectories_set secondNoDirectory _), ?_⟩
      intro path other owns there
      show (first.disk.set _ _).get? _ = (second.disk.set _ _).get? _
      have inside := Disk.ne_nil_of_get?_ne noDirectory
      rw [Disk.get?_set _ _ inside, Disk.get?_set _ _ inside, agree.found owns there]
  | inspectDirectory isDirectory =>
    refine ⟨?_, agree⟩
    show first.disk.inspect _ = second.disk.inspect _
    rw [(isDirectory.of_same agree.first_same).inspect_eq,
      (isDirectory.of_same agree.second_same).inspect_eq]
  | createDirectory isDirectory =>
    show (first.withDisk _).1 = (second.withDisk _).1 ∧
      folder.Agree disk name (first.withDisk _).2.disk (second.withDisk _).2.disk
    rw [(isDirectory.of_same agree.first_same).createDirectory_eq,
      (isDirectory.of_same agree.second_same).createDirectory_eq]
    exact ⟨rfl, agree⟩

/-- While a list is loaded, nothing changes but its converted files. -/
theorem MayAsk.unchanged {request : Request} {world : World}
    (mayAsk : folder.MayAsk disk name request) (same : Disk.SameDirectories disk world.disk) :
    Disk.SameDirectories disk (world.answer request).2.disk ∧
      ∀ location, (∀ tier, disk.locate (folder.convertedPath name tier) ≠ .ok location) →
        (world.answer request).2.disk.get? location = world.disk.get? location := by
  cases mayAsk with
  | note _ | inspect _ | read _ | inspectDirectory _ => exact ⟨same, fun _ _ => rfl⟩
  | createDirectory isDirectory =>
    show Disk.SameDirectories disk (world.withDisk _).2.disk ∧ ∀ location, _ →
      (world.withDisk _).2.disk.get? location = _
    rw [(isDirectory.of_same same).createDirectory_eq]
    exact ⟨same, fun _ _ => rfl⟩
  | write tier content =>
    have plain := folder.insistsOnDirectory_convertedPath name tier
    show Disk.SameDirectories disk (world.withDisk _).2.disk ∧ ∀ location, _ →
      (world.withDisk _).2.disk.get? location = _
    cases written : world.disk.write (folder.convertedPath name tier) content.toUTF8 with
    | error cause => exact ⟨same, fun _ _ => rfl⟩
    | ok after =>
      obtain ⟨place, here, noDirectory, rfl⟩ := (Disk.write_eq_ok_iff plain).mp written
      refine ⟨same.trans (Disk.sameDirectories_set noDirectory _), fun location elsewhere => ?_⟩
      have different : location ≠ place := by
        rintro rfl
        exact elsewhere tier (same.locate_eq_ok.mp here)
      show (world.disk.set _ _).get? _ = _
      rw [Disk.get?_set _ _ (Disk.ne_nil_of_get?_ne noDirectory), if_neg different]

/-! ### Loading lists side by side -/

/-- Whether no file of converted rules is one of two lists. -/
def Apart (folder : ListFolder) (disk : Disk) (name other : String) : Prop :=
  ∀ tier otherTier location, disk.locate (folder.convertedPath name tier) = .ok location →
    disk.locate (folder.convertedPath other otherTier) ≠ .ok location

/-- What a list asks for does not matter to another list that it shares no file with. -/
theorem Agree.of_other {request : Request} {ghost : Disk} {world : World}
    (agree : folder.Agree disk other ghost world.disk) (apart : folder.Apart disk name other)
    (mayAsk : folder.MayAsk disk name request) :
    folder.Agree disk other ghost (world.answer request).2.disk := by
  obtain ⟨same, unchanged⟩ := mayAsk.unchanged agree.second_same
  refine ⟨agree.first_same, same, ?_⟩
  intro path location owns located
  have elsewhere : ∀ tier, disk.locate (folder.convertedPath name tier) ≠ .ok location := by
    intro tier here
    cases owns with
    | source => exact source_ne_converted located here rfl
    | converted otherTier => exact apart tier otherTier location here located
  rw [agree.found owns located, unchanged location elsewhere]

/-- Whether a program asks for nothing but what loading a list may ask for, and ends with a value
when it is carried out alone in a world that agrees on the list with a disk. -/
structure Follows {α : Type} (folder : ListFolder) (disk : Disk) (name : String)
    (program : Program α) (value : α) (current : Disk) : Prop where
  asks : program.Asks (folder.MayAsk disk name)
  alone : ∃ ghost : World, folder.Agree disk name ghost.disk current ∧
    (program.run ghost).1 = value

/-- A program goes on as it does alone. -/
theorem Follows.step {α : Type} {request : Request} {next : request.Reply → Program α} {value : α}
    {world : World} (follows : folder.Follows disk name (.ask request next) value world.disk)
    (located : disk.locate (folder.sourcePath name) = .ok location) :
    folder.MayAsk disk name request ∧
      folder.Follows disk name (next (world.answer request).1) value
        (world.answer request).2.disk := by
  obtain ⟨asks, ghost, agree, ended⟩ := follows
  cases asks with
  | ask mayAsk nextAsks =>
    obtain ⟨sameReply, stillAgree⟩ := mayAsk.answer_eq agree located
    refine ⟨mayAsk, nextAsks _, (ghost.answer request).2, stillAgree, ?_⟩
    rw [← sameReply]
    exact ended

/-- A program is not disturbed by what is asked for another list. -/
theorem Follows.of_other {α : Type} {request : Request} {program : Program α} {value : α}
    {world : World} (follows : folder.Follows disk other program value world.disk)
    (apart : folder.Apart disk name other) (mayAsk : folder.MayAsk disk name request) :
    folder.Follows disk other program value (world.answer request).2.disk := by
  obtain ⟨asks, ghost, agree, ended⟩ := follows
  exact ⟨asks, ghost, agree.of_other apart mayAsk, ended⟩

/-- Programs that load lists end side by side with what each ends with alone, if no two of the
lists share a file. -/
theorem eq_of_interleaved {α : Type} {names : List String} {programs : String → Program α}
    {world : World} {values alone : String → α}
    (located : ∀ name ∈ names, ∃ location, disk.locate (folder.sourcePath name) = .ok location)
    (apart : ∀ name ∈ names, ∀ other ∈ names, name ≠ other → folder.Apart disk name other)
    (follows : ∀ name ∈ names,
      folder.Follows disk name (programs name) (alone name) world.disk)
    (interleaved : Program.Interleaved names programs world values) :
    ∀ name ∈ names, values name = alone name := by
  induction interleaved with
  | done areDone =>
    intro name member
    obtain ⟨-, ghost, -, ended⟩ := follows name member
    rw [areDone name member] at ended
    exact ended
  | @step programs world values name request next member isAsking _ inductionHypothesis =>
    obtain ⟨location, isLocated⟩ := located name member
    have nameFollows := follows name member
    rw [isAsking] at nameFollows
    obtain ⟨mayAsk, goesOn⟩ := nameFollows.step isLocated
    refine inductionHypothesis fun other otherMember => ?_
    by_cases same : other = name
    · rw [same, Program.replace_same]
      exact goesOn
    · rw [Program.replace_of_ne same]
      exact (follows other otherMember).of_other
        (apart name member other otherMember (Ne.symm same)) mayAsk

section

variable {names : List String} {world : World}
  {values : String → Except Failure (Option TieredRules)} {texts : String → String}
  (apart : ∀ name ∈ names, ∀ other ∈ names, name ≠ other → folder.Apart world.disk name other)
  (interleaved :
    Program.Interleaved names (fun name => ExceptT.run (folder.load name)) world values)

include apart interleaved

/-- Lists that share no file and are loaded side by side each end as if loaded alone. -/
theorem eq_runIn_of_interleaved
    (located : ∀ name ∈ names,
      ∃ location, world.disk.locate (folder.sourcePath name) = .ok location) :
    ∀ name ∈ names, values name = ((folder.load name).runIn world).1 := by
  refine eq_of_interleaved located apart (fun name member => ?_) interleaved
  obtain ⟨location, isLocated⟩ := located name member
  exact ⟨(permits_mayAsk isLocated).asks_load, world, .refl folder world.disk name, rfl⟩

/-- Lists that share no file can be loaded side by side. Each gets the rules of its own source. -/
theorem load_eq_ok_of_interleaved
    (sources : ∀ name ∈ names, world.disk.HoldsText (folder.sourcePath name) (texts name))
    (fresh : ∀ name ∈ names, ¬world.disk.IsPresent (folder.convertedPath name .standard))
    (succeeded : ∀ name ∈ names, ∃ loaded, values name = .ok loaded) :
    ∀ name ∈ names, values name = .ok (some (Document.convert (texts name)).rules) := by
  have located : ∀ name ∈ names,
      ∃ location, world.disk.locate (folder.sourcePath name) = .ok location := by
    intro name member
    obtain ⟨location, -, located, -, -⟩ := Disk.get?_of_holdsText
      (folder.insistsOnDirectory_sourcePath name) (sources name member)
    exact ⟨location, located⟩
  intro name member
  obtain ⟨loaded, ended⟩ := succeeded name member
  have same := eq_runIn_of_interleaved apart interleaved located name member
  have ran : (folder.load name).runIn world = (.ok loaded, ((folder.load name).runIn world).2) := by
    rw [← ended, same]
  obtain ⟨rfl, -⟩ := load_eq_ok_of_source (fresh name member) (sources name member) ran
  exact ended

end

/-- Lists with plain names share no file, unless the name of one is the name of the other with the
mark of a tier behind it. -/
theorem apart_of_plain (plain : '/' ∉ name.toList) (otherPlain : '/' ∉ other.toList)
    (unmarked : ∀ tier, name ++ mark tier ≠ other)
    (otherUnmarked : ∀ tier, other ++ mark tier ≠ name) : folder.Apart disk name other := by
  have different : name ≠ other := fun same => unmarked .standard (String.append_empty.trans same)
  intro tier otherTier location here there
  have same := append_mark_eq (append_suffix_eq_of_plain plain otherPlain here there)
  cases otherTier with
  | standard => exact unmarked tier (same.trans String.append_empty)
  | advanced =>
    cases tier with
    | standard => exact otherUnmarked .advanced (same.symm.trans String.append_empty)
    | advanced => exact different ((String.append_left_inj _).mp same)
    | scriptlet =>
      have characters := congrArg (fun name => name.toList.getLast?) same
      simp [mark, List.getLast?_append] at characters
  | scriptlet =>
    cases tier with
    | standard => exact otherUnmarked .scriptlet (same.symm.trans String.append_empty)
    | advanced =>
      have characters := congrArg (fun name => name.toList.getLast?) same
      simp [mark, List.getLast?_append] at characters
    | scriptlet => exact different ((String.append_left_inj _).mp same)

end ListFolder

/-! ### One list after the other -/

namespace Selection

variable {folder : ListFolder} {names order : List String} {world : World}
  {values : String → Outcome}

theorem interleaved_of_loadEach_of_done {programs : String → Program Outcome}
    (distinct : order.Nodup) (included : order ⊆ names)
    (areDone : ∀ name ∈ names, name ∉ order → programs name = .done (values name))
    (areLeft : ∀ name ∈ order, programs name = ExceptT.run (folder.load name))
    (ended : ((loadEach folder order).run world).1 = order.map fun name => (name, values name)) :
    Program.Interleaved names programs world values := by
  induction order generalizing programs world with
  | nil => exact .done fun name member => areDone name member (by simp)
  | cons name rest inductionHypothesis =>
    obtain ⟨outcome, between, first⟩ : ∃ outcome between,
        (folder.load name).runIn world = (outcome, between) := ⟨_, _, rfl⟩
    rw [run_loadEach_cons first, List.map_cons, List.cons.injEq, Prod.mk.injEq] at ended
    obtain ⟨⟨-, rfl⟩, endedLater⟩ := ended
    obtain ⟨notLater, distinctLater⟩ := List.nodup_cons.mp distinct
    have isProgram : (programs name).run world = (values name, between) := by
      rw [areLeft name List.mem_cons_self]
      exact first
    refine .of_run (included List.mem_cons_self) ?_
    rw [isProgram]
    refine inductionHypothesis distinctLater
      (fun other member => included (List.mem_cons_of_mem _ member)) ?_ ?_ endedLater
    · intro other member notLeft
      by_cases same : other = name
      · rw [same, Program.replace_same]
      · rw [Program.replace_of_ne same]
        exact areDone other member (by simp [same, notLeft])
    · intro other member
      have different : other ≠ name := fun same => notLater (same ▸ member)
      rw [Program.replace_of_ne different]
      exact areLeft other (List.mem_cons_of_mem _ member)

/-- Loading lists one after the other, in whatever order, is one way to load them side by side. -/
theorem interleaved_of_loadEach (distinct : names.Nodup) (sameNames : order.Perm names)
    (ended : ((loadEach folder order).run world).1 = order.map fun name => (name, values name)) :
    Program.Interleaved names (fun name => ExceptT.run (folder.load name)) world values :=
  interleaved_of_loadEach_of_done (sameNames.nodup_iff.mpr distinct) sameNames.subset
    (fun _ member notLeft => absurd (sameNames.mem_iff.mpr member) notLeft) (fun _ _ => rfl) ended

theorem exists_eq_map_of_nodup {outcomes : List (String × Outcome)}
    (distinct : (outcomes.map Prod.fst).Nodup) :
    ∃ values : String → Outcome,
      outcomes = (outcomes.map Prod.fst).map fun name => (name, values name) := by
  refine ⟨fun name => (outcomes.lookup name).getD (.ok none), ?_⟩
  rw [List.map_map]
  refine (List.map_id outcomes).symm.trans (List.map_congr_left fun entry member => ?_)
  show entry = (entry.1, (outcomes.lookup entry.1).getD (.ok none))
  rw [lookup_of_mem distinct member]
  rfl

/-- Lists that share no file end side by side with what they end with in any order of whole
loads. -/
theorem loadEach_eq_of_interleaved (distinct : names.Nodup) (sameNames : order.Perm names)
    (located : ∀ name ∈ names,
      ∃ location, world.disk.locate (folder.sourcePath name) = .ok location)
    (apart : ∀ name ∈ names, ∀ other ∈ names, name ≠ other → folder.Apart world.disk name other)
    (interleaved :
      Program.Interleaved names (fun name => ExceptT.run (folder.load name)) world values) :
    ((loadEach folder order).run world).1 = order.map fun name => (name, values name) := by
  have keys := map_fst_loadEach folder order world
  obtain ⟨inOrder, isInOrder⟩ :=
    exists_eq_map_of_nodup (keys.symm ▸ sameNames.nodup_iff.mpr distinct)
  rw [keys] at isInOrder
  have alsoInterleaved := interleaved_of_loadEach distinct sameNames isInOrder
  rw [isInOrder]
  refine List.map_congr_left fun name member => ?_
  have named := sameNames.mem_iff.mp member
  rw [ListFolder.eq_runIn_of_interleaved apart alsoInterleaved located name named,
    ListFolder.eq_runIn_of_interleaved apart interleaved located name named]

/-- Lists with plain names can be loaded side by side as well as in any order, unless the name of one
is the name of another with the mark of a tier behind it. -/
theorem join_of_interleaved_of_plain {loaded : String → Option TieredRules}
    {texts : String → String} (plain : ∀ name ∈ names, '/' ∉ name.toList)
    (unmarked : ∀ name ∈ names, name ++ "_advanced" ∉ names ∧ name ++ "_scriptlets" ∉ names)
    (sources : ∀ name ∈ names, world.disk.HoldsText (folder.sourcePath name) (texts name))
    (fresh : ∀ name ∈ names, ¬world.disk.IsPresent (folder.convertedPath name .standard))
    (interleaved : Program.Interleaved names (fun name => ExceptT.run (folder.load name)) world
      fun name => .ok (loaded name)) :
    TieredRules.join ((names.map loaded).filterMap id) =
      Document.convertAll (names.map texts) := by
  have markedNe : ∀ name ∈ names, ∀ other ∈ names, name ≠ other →
      ∀ tier, name ++ ListFolder.mark tier ≠ other := by
    rintro name member other otherMember different tier rfl
    cases tier with
    | standard => exact different String.append_empty.symm
    | advanced => exact (unmarked name member).1 otherMember
    | scriptlet => exact (unmarked name member).2 otherMember
  have apart : ∀ name ∈ names, ∀ other ∈ names, name ≠ other →
      folder.Apart world.disk name other :=
    fun name member other otherMember different =>
      ListFolder.apart_of_plain (plain name member) (plain other otherMember)
        (markedNe name member other otherMember different)
        (markedNe other otherMember name member different.symm)
  refine join_of_own fun name member => ?_
  exact Except.ok.inj (ListFolder.load_eq_ok_of_interleaved apart interleaved sources fresh
    (fun other _ => ⟨loaded other, rfl⟩) name member)

end Selection

end FilterLists
