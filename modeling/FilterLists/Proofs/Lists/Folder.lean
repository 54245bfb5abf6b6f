/-
This file shows what a list folder does to its disk when a list is converted, and what it gives for
a list that has been converted.

The files of a list lie side by side, with names that only differ in how they end. So a source is
never taken for a file of converted rules, and the files for the three tiers of a list are kept
apart. The files of two lists are not kept apart in this way: what ends the name for a tier can
be the end of the name of another list.

What loading a list asks for is shown for whatever may be asked, since it is needed where lists are
loaded side by side and where requests fail.
-/

import FilterLists.Lists.Folder
import FilterLists.Proofs.Program.Requests

namespace FilterLists

variable {world after : World} {path name : String} {rules : List Rule}
  {allowed : Request → Prop}

/-! ### Files of rules -/

namespace Rule

/-- Whether a path leads to a file that rules can be read from. -/
def AreIn (rules : List Rule) (disk : Disk) (path : String) : Prop :=
  ∃ text, disk.HoldsText path text ∧ decode? text = some rules

theorem loadAll_eq_ok (loaded : (loadAll path).runIn world = (.ok rules, after)) :
    after = world ∧ AreIn rules world.disk path := by
  unfold loadAll at loaded
  obtain ⟨text, between, ran, decoded⟩ := Job.exists_of_runIn_bind loaded
  obtain ⟨rfl, holds⟩ := Files.load_eq_ok_iff.mp ran
  cases found : decode? text with
  | none =>
    rw [found] at decoded
    cases decoded
  | some value =>
    rw [found] at decoded
    cases decoded
    exact ⟨rfl, text, holds, found⟩

/-- Whether a path leads to a file that rules can be read from, or to nothing, which stands for no
rules. -/
def MayBeIn (rules : List Rule) (disk : Disk) (path : String) : Prop :=
  AreIn rules disk path ∨ ¬disk.IsPresent path ∧ rules = []

theorem loadAllIfPresent_eq_ok
    (loaded : (loadAllIfPresent path).runIn world = (.ok rules, after)) :
    after = world ∧ MayBeIn rules world.disk path := by
  unfold loadAllIfPresent at loaded
  by_cases there : world.disk.IsPresent path
  · rw [Files.runIn_bind_isPresent_of_present there] at loaded
    obtain ⟨still, areIn⟩ := loadAll_eq_ok loaded
    exact ⟨still, Or.inl areIn⟩
  · rw [Files.runIn_bind_isPresent_of_missing there] at loaded
    cases loaded
    exact ⟨rfl, Or.inr ⟨there, rfl⟩⟩

theorem asks_loadAll (read : allowed (.read path)) : (loadAll path).Asks allowed :=
  (Files.asks_load read).bind fun _ => Job.asks_ofOption _ _

theorem asks_loadAllIfPresent (read : allowed (.read path)) (inspect : allowed (.inspect path)) :
    (loadAllIfPresent path).Asks allowed := by
  refine (Job.asks_lift (Files.asks_isPresent inspect)).bind fun answer => ?_
  cases answer with
  | true => exact asks_loadAll read
  | false => exact Job.asks_pure []

theorem saveAll_eq_ok (there : ∀ directory ∈ Path.ancestors path, world.disk.IsDirectory directory)
    (saved : (saveAll path rules).runIn world = (.ok (), after)) :
    world.disk.write path (encode rules).toUTF8 = .ok after.disk :=
  Files.write_of_save there saved

end Rule

/-! ### Where the files of a list are -/

namespace ListFolder

variable {folder : ListFolder} {other text : String} {tier otherTier : Tier}
  {disk : Disk} {location otherLocation : Location}

theorem isEnding_suffix (tier : Tier) : Path.IsEnding (suffix tier) := by
  cases tier <;> constructor <;> decide

theorem isEnding_source : Path.IsEnding ".txt" := by
  constructor <;> decide

theorem sourcePath_eq (folder : ListFolder) (name : String) :
    folder.sourcePath name = Path.join folder.directory name ++ ".txt" :=
  Path.join_append _ _ isEnding_source

theorem convertedPath_eq (folder : ListFolder) (name : String) (tier : Tier) :
    folder.convertedPath name tier = Path.join folder.directory name ++ suffix tier :=
  Path.join_append _ _ (isEnding_suffix tier)

theorem insistsOnDirectory_convertedPath (folder : ListFolder) (name : String) (tier : Tier) :
    Disk.insistsOnDirectory (folder.convertedPath name tier) = false := by
  rw [convertedPath_eq]
  exact Disk.insistsOnDirectory_append _ (isEnding_suffix tier)

theorem insistsOnDirectory_sourcePath (folder : ListFolder) (name : String) :
    Disk.insistsOnDirectory (folder.sourcePath name) = false := by
  rw [sourcePath_eq]
  exact Disk.insistsOnDirectory_append _ isEnding_source

theorem last_eq_of_append_eq {parent otherParent : Location} {last otherLast : String}
    (same : parent ++ [last] = otherParent ++ [otherLast]) : last = otherLast := by
  have lasts := congrArg List.getLast? same
  simpa using lasts

/-- No file of converted rules lies where a source lies. -/
theorem source_ne_converted (source : disk.locate (folder.sourcePath name) = .ok location)
    (converted : disk.locate (folder.convertedPath other tier) = .ok otherLocation) :
    location ≠ otherLocation := by
  rintro rfl
  rw [sourcePath_eq] at source
  rw [convertedPath_eq] at converted
  obtain ⟨parent, last, places⟩ := disk.exists_location_append (Path.join folder.directory name)
  obtain ⟨otherParent, otherLast, otherPlaces⟩ :=
    disk.exists_location_append (Path.join folder.directory other)
  have same := (places _ _ isEnding_source source).symm.trans
    (otherPlaces _ _ (isEnding_suffix tier) converted)
  have characters := congrArg (fun name => name.toList.getLast?) (last_eq_of_append_eq same)
  have sourceEnd : ".txt".toList.getLast? = some 't' := by decide
  have convertedEnd : (suffix tier).toList.getLast? = some 'n' := by cases tier <;> decide
  simp only [String.toList_append, List.getLast?_append, sourceEnd, convertedEnd,
    Option.some_or] at characters
  exact absurd characters (by decide)

theorem isEnding_of_plain (plain : '/' ∉ name.toList) {ending : String}
    (isEnding : Path.IsEnding ending) : Path.IsEnding (name ++ ending) := by
  refine ⟨?_, ?_⟩
  · rw [String.toList_append, List.mem_append, not_or]
    exact ⟨plain, isEnding.slash_not_mem⟩
  · have long := isEnding.long
    rw [String.toList_append, List.length_append]
    omega

/-- Files of converted rules of lists with plain names are not the same if their names differ. -/
theorem append_suffix_eq_of_plain (plain : '/' ∉ name.toList) (otherPlain : '/' ∉ other.toList)
    (first : disk.locate (folder.convertedPath name tier) = .ok location)
    (second : disk.locate (folder.convertedPath other otherTier) = .ok location) :
    name ++ suffix tier = other ++ suffix otherTier :=
  Disk.eq_of_samePlace_join (isEnding_of_plain plain (isEnding_suffix tier))
    (isEnding_of_plain otherPlain (isEnding_suffix otherTier)) ⟨location, first, second⟩

/-- What the name of a list is marked with in the name of the file for a tier. -/
def mark : Tier → String
  | .standard => ""
  | .advanced => "_advanced"
  | .scriptlet => "_scriptlets"

theorem suffix_eq (tier : Tier) : suffix tier = mark tier ++ ".json" := by
  cases tier <;> rfl

theorem append_mark_eq (same : name ++ suffix tier = other ++ suffix otherTier) :
    name ++ mark tier = other ++ mark otherTier := by
  rw [suffix_eq, suffix_eq, ← String.append_assoc, ← String.append_assoc] at same
  exact (String.append_left_inj ".json").mp same

theorem advanced_ne_scriptlets (name other : String) :
    name ++ "_advanced" ≠ other ++ "_scriptlets" := by
  intro same
  have lasts := congrArg (fun text => text.toList.getLast?) same
  have firstEnd : "_advanced".toList.getLast? = some 'd' := by decide
  have secondEnd : "_scriptlets".toList.getLast? = some 's' := by decide
  simp only [String.toList_append, List.getLast?_append, firstEnd, secondEnd, Option.some_or]
    at lasts
  exact absurd lasts (by decide)

/-- Names that are the same with marks behind them are the same, or one is the other with a mark. -/
theorem eq_or_of_append_mark_eq (same : name ++ mark tier = other ++ mark otherTier) :
    other = name ∨ other = name ++ "_advanced" ∨ other = name ++ "_scriptlets" ∨
      name = other ++ "_advanced" ∨ name = other ++ "_scriptlets" := by
  match tier, otherTier with
  | .standard, .standard | .advanced, .advanced | .scriptlet, .scriptlet =>
    exact .inl ((String.append_left_inj _).mp same).symm
  | .advanced, .standard => exact .inr (.inl (by simpa [mark] using same.symm))
  | .scriptlet, .standard => exact .inr (.inr (.inl (by simpa [mark] using same.symm)))
  | .standard, .advanced => exact .inr (.inr (.inr (.inl (by simpa [mark] using same))))
  | .standard, .scriptlet => exact .inr (.inr (.inr (.inr (by simpa [mark] using same))))
  | .advanced, .scriptlet => exact absurd same (advanced_ne_scriptlets name other)
  | .scriptlet, .advanced => exact absurd same.symm (advanced_ne_scriptlets other name)

theorem suffix_injective (same : suffix tier = suffix otherTier) : tier = otherTier := by
  cases tier <;> cases otherTier <;> first | rfl | exact absurd same (by decide)

/-- The files for two tiers of a list are not the same. -/
theorem tier_eq_of_locate (first : disk.locate (folder.convertedPath name tier) = .ok location)
    (second : disk.locate (folder.convertedPath name otherTier) = .ok location) :
    tier = otherTier := by
  rw [convertedPath_eq] at first second
  obtain ⟨parent, last, places⟩ := disk.exists_location_append (Path.join folder.directory name)
  have same := (places _ _ (isEnding_suffix tier) first).symm.trans
    (places _ _ (isEnding_suffix otherTier) second)
  exact suffix_injective ((String.append_right_inj last).mp (last_eq_of_append_eq same))

theorem converted_ne_converted (different : tier ≠ otherTier)
    (first : disk.locate (folder.convertedPath name tier) = .ok location)
    (second : disk.locate (folder.convertedPath name otherTier) = .ok otherLocation) :
    location ≠ otherLocation := by
  rintro rfl
  exact different (tier_eq_of_locate first second)

/-- Sources stay as they were if nothing changes but files of converted rules. -/
theorem holdsText_source_of_unchanged {before current : Disk}
    (same : Disk.SameDirectories before current)
    (unchanged : ∀ location,
      (∀ list tier, before.locate (folder.convertedPath list tier) ≠ .ok location) →
      current.get? location = before.get? location)
    (holds : before.HoldsText (folder.sourcePath name) text) :
    current.HoldsText (folder.sourcePath name) text := by
  have plain := folder.insistsOnDirectory_sourcePath name
  obtain ⟨location, content, located, found, decoded⟩ := Disk.get?_of_holdsText plain holds
  have still : current.get? location = before.get? location :=
    unchanged location fun list tier converted => source_ne_converted located converted rfl
  have isRead : current.read (folder.sourcePath name) = .ok content :=
    (Disk.read_eq_ok_iff plain).mpr ⟨location, same.locate_eq_ok.mpr located, still.trans found⟩
  unfold Disk.HoldsText
  rw [isRead]
  exact decoded

/-- A source that can be read lies in a directory, and the converted rules belong there too. -/
theorem isDirectory_of_mem_ancestors
    (located : disk.locate (folder.sourcePath name) = .ok location) (tier : Tier) :
    ∀ directory ∈ Path.ancestors (folder.convertedPath name tier), disk.IsDirectory directory := by
  intro directory member
  rw [sourcePath_eq] at located
  rw [convertedPath_eq] at member
  exact Disk.isDirectory_of_mem_ancestors located isEnding_source (isEnding_suffix tier) member

/-! ### Converting -/

/-- The tiers in the order in which the files of a list are written. -/
def savingOrder : List Tier :=
  [.advanced, .scriptlet, .standard]

theorem mem_savingOrder (tier : Tier) : tier ∈ savingOrder := by
  cases tier <;> decide

/-- What saving the rules of some tiers of a list makes of a disk: each of these tiers lies in its
file, and everything else is as it was. -/
structure Saved (folder : ListFolder) (name : String) (rules : TieredRules) (tiers : List Tier)
    (before after : Disk) : Prop where
  sameDirectories : Disk.SameDirectories before after
  located : ∀ tier ∈ tiers,
    ∃ location, before.locate (folder.convertedPath name tier) = .ok location
  written : ∀ tier ∈ tiers, ∀ location,
    before.locate (folder.convertedPath name tier) = .ok location →
    after.get? location = some (.file (Rule.encode (rules.get tier)).toUTF8)
  unchanged : ∀ location,
    (∀ tier ∈ tiers, before.locate (folder.convertedPath name tier) ≠ .ok location) →
    after.get? location = before.get? location

namespace Saved

variable {rules : TieredRules} {tiers : List Tier} {before current final : Disk}

theorem start (folder : ListFolder) (name : String) (rules : TieredRules) (disk : Disk) :
    Saved folder name rules [] disk disk :=
  ⟨.refl disk, by simp, by simp, fun _ _ => rfl⟩

/-- Writing the file for one more tier keeps what is said of the disk. -/
theorem add (saved : Saved folder name rules tiers before current) (isNew : tier ∉ tiers)
    (isWritten : current.write (folder.convertedPath name tier)
      (Rule.encode (rules.get tier)).toUTF8 = .ok final) :
    Saved folder name rules (tiers ++ [tier]) before final := by
  obtain ⟨place, here, noDirectory, rfl⟩ :=
    (Disk.write_eq_ok_iff (folder.insistsOnDirectory_convertedPath name tier)).mp isWritten
  rw [saved.sameDirectories.locate_eq_ok] at here
  have inside := Disk.ne_nil_of_get?_ne noDirectory
  refine ⟨saved.sameDirectories.trans (Disk.sameDirectories_set noDirectory _), ?_, ?_, ?_⟩
  · intro other member
    obtain earlier | same := List.mem_append.mp member
    · exact saved.located other earlier
    · obtain rfl := List.mem_singleton.mp same
      exact ⟨place, here⟩
  · intro other member location located
    rw [Disk.get?_set _ _ inside]
    obtain earlier | same := List.mem_append.mp member
    · have different : other ≠ tier := fun same => isNew (same ▸ earlier)
      rw [if_neg (converted_ne_converted different located here)]
      exact saved.written other earlier location located
    · obtain rfl := List.mem_singleton.mp same
      rw [if_pos (Except.ok.inj (located.symm.trans here))]
  · intro location elsewhere
    have away : location ≠ place := by
      rintro rfl
      exact elsewhere tier (by simp) here
    rw [Disk.get?_set _ _ inside, if_neg away]
    exact saved.unchanged location fun other member => elsewhere other (by simp [member])

/-- Saving files of converted rules keeps the sources of all lists. -/
theorem source (saved : Saved folder name rules tiers before current)
    (holds : before.HoldsText (folder.sourcePath other) text) :
    current.HoldsText (folder.sourcePath other) text :=
  holdsText_source_of_unchanged saved.sameDirectories (fun location elsewhere =>
    saved.unchanged location fun tier _ => elsewhere name tier) holds

end Saved

theorem saveConverted_eq_ok {rules : TieredRules}
    (saved : (folder.saveConverted name rules).runIn world = (.ok (), after))
    (located : world.disk.locate (folder.sourcePath name) = .ok location) :
    Saved folder name rules savingOrder world.disk after.disk := by
  unfold saveConverted at saved
  obtain ⟨⟨⟩, first, savedAdvanced, saved⟩ := Job.exists_of_runIn_bind saved
  obtain ⟨⟨⟩, second, savedScriptlet, saved⟩ := Job.exists_of_runIn_bind saved
  obtain ⟨⟨⟩, third, savedStandard, saved⟩ := Job.exists_of_runIn_bind saved
  rw [Job.runIn_noteAll] at saved
  cases saved
  -- The source stays where it is, so the directories of the files are there at each step.
  have step : ∀ {tiers : List Tier} {tier : Tier} {between next : World},
      Saved folder name rules tiers world.disk between.disk → tier ∉ tiers →
      (Rule.saveAll (folder.convertedPath name tier) (rules.get tier)).runIn between =
        (.ok (), next) →
      Saved folder name rules (tiers ++ [tier]) world.disk next.disk := by
    intro tiers tier between next sofar isNew ran
    have there := isDirectory_of_mem_ancestors (sofar.sameDirectories.locate_eq_ok.mpr located) tier
    exact sofar.add isNew (Rule.saveAll_eq_ok there ran)
  have advanced := step (.start folder name rules world.disk) (by simp) savedAdvanced
  have scriptlet := step advanced (by decide) savedScriptlet
  have standard := step scriptlet (by decide) savedStandard
  exact standard

/-! ### Loading -/

theorem convert_eq_ok {rules : TieredRules}
    (ran : (folder.convert name).runIn world = (.ok rules, after)) :
    ∃ text, world.disk.HoldsText (folder.sourcePath name) text ∧
      rules = (Document.convert text).rules ∧
      Saved folder name (Document.convert text).rules savingOrder world.disk after.disk := by
  have plain := folder.insistsOnDirectory_sourcePath name
  unfold convert at ran
  rw [Job.runIn_bind_of_ok (Job.runIn_noteAll _ _)] at ran
  obtain ⟨text, between, isRead, converted⟩ := Job.exists_of_runIn_bind ran
  obtain ⟨rfl, source⟩ := Files.load_eq_ok_iff.mp isRead
  obtain ⟨location, -, located, -, -⟩ := Disk.get?_of_holdsText plain source
  rw [Job.runIn_bind_of_ok (Job.runIn_noteAll _ _)] at converted
  obtain ⟨⟨⟩, saved, ranSave, returned⟩ := Job.exists_of_runIn_bind converted
  obtain ⟨rfl, rfl⟩ := Job.eq_of_runIn_pure returned
  have finished := saveConverted_eq_ok ranSave located
  exact ⟨text, source, rfl, finished⟩

/-- A list that has neither been converted nor has a source gives nothing, and this is reported. -/
theorem runIn_load_of_missing
    (fresh : ¬world.disk.IsPresent (folder.convertedPath name .standard))
    (missing : ¬world.disk.IsPresent (folder.sourcePath name)) :
    (folder.load name).runIn world =
      (.ok none, { world with journal := world.journal ++ [folder.missingEntry name] }) := by
  unfold load isConverted
  rw [Files.runIn_bind_isPresent_of_missing fresh]
  simp only [Bool.false_eq_true, if_false]
  rw [Files.runIn_bind_isPresent_of_missing missing]
  exact Job.runIn_bind_of_ok (Job.runIn_noteAll _ _) _

/-- A list that has not been converted has no source and gives nothing, or it gives the rules of its
source, which are saved. -/
theorem load_eq_ok_of_fresh {loaded : Option TieredRules}
    (fresh : ¬world.disk.IsPresent (folder.convertedPath name .standard))
    (ran : (folder.load name).runIn world = (.ok loaded, after)) :
    (loaded = none ∧ ¬world.disk.IsPresent (folder.sourcePath name) ∧ after.disk = world.disk) ∨
      ∃ text, world.disk.HoldsText (folder.sourcePath name) text ∧
        loaded = some (Document.convert text).rules ∧
        Saved folder name (Document.convert text).rules savingOrder world.disk after.disk := by
  by_cases there : world.disk.IsPresent (folder.sourcePath name)
  · unfold load isConverted at ran
    rw [Files.runIn_bind_isPresent_of_missing fresh] at ran
    simp only [Bool.false_eq_true, if_false] at ran
    rw [Files.runIn_bind_isPresent_of_present there] at ran
    obtain ⟨rules, between, converted, returned⟩ := Job.exists_of_runIn_bind ran
    obtain ⟨rfl, rfl⟩ := Job.eq_of_runIn_pure returned
    obtain ⟨text, source, rfl, saved⟩ := convert_eq_ok converted
    exact .inr ⟨text, source, rfl, saved⟩
  · rw [runIn_load_of_missing fresh there] at ran
    cases ran
    exact .inl ⟨rfl, there, rfl⟩

/-- A list that has not been converted gives the rules of its source, which are saved. -/
theorem load_eq_ok_of_source {loaded : Option TieredRules}
    (fresh : ¬world.disk.IsPresent (folder.convertedPath name .standard))
    (source : world.disk.HoldsText (folder.sourcePath name) text)
    (ran : (folder.load name).runIn world = (.ok loaded, after)) :
    loaded = some (Document.convert text).rules ∧
      Saved folder name (Document.convert text).rules savingOrder world.disk after.disk := by
  obtain ⟨-, missing, -⟩ | ⟨content, holds, same, saved⟩ := load_eq_ok_of_fresh fresh ran
  · exact absurd (source.isPresent (folder.insistsOnDirectory_sourcePath name)) missing
  · obtain rfl : content = text := Except.ok.inj (holds.symm.trans source)
    exact ⟨same, saved⟩

/-- Whether the files of a list hold the rules that it was converted to. -/
structure Holds (folder : ListFolder) (name : String) (rules : TieredRules) (disk : Disk) :
    Prop where
  standard : Rule.AreIn rules.standard disk (folder.convertedPath name .standard)
  advanced : Rule.MayBeIn rules.advanced disk (folder.convertedPath name .advanced)
  scriptlet : Rule.MayBeIn rules.scriptlet disk (folder.convertedPath name .scriptlet)

theorem loadConverted_eq_ok {rules : TieredRules}
    (ran : (folder.loadConverted name).runIn world = (.ok rules, after)) :
    after = world ∧ Holds folder name rules world.disk := by
  unfold loadConverted at ran
  obtain ⟨standard, first, loadedStandard, rest⟩ := Job.exists_of_runIn_bind ran
  obtain ⟨advanced, second, loadedAdvanced, rest⟩ := Job.exists_of_runIn_bind rest
  obtain ⟨scriptlet, third, loadedScriptlet, returned⟩ := Job.exists_of_runIn_bind rest
  obtain ⟨rfl, rfl⟩ := Job.eq_of_runIn_pure returned
  obtain ⟨rfl, areIn⟩ := Rule.loadAll_eq_ok loadedStandard
  obtain ⟨rfl, advancedIn⟩ := Rule.loadAllIfPresent_eq_ok loadedAdvanced
  obtain ⟨rfl, scriptletIn⟩ := Rule.loadAllIfPresent_eq_ok loadedScriptlet
  exact ⟨rfl, areIn, advancedIn, scriptletIn⟩

theorem asks_loadConverted (read : ∀ tier, allowed (.read (folder.convertedPath name tier)))
    (inspect : ∀ tier, allowed (.inspect (folder.convertedPath name tier))) :
    (folder.loadConverted name).Asks allowed := by
  refine (Rule.asks_loadAll (read .standard)).bind fun standard => ?_
  refine (Rule.asks_loadAllIfPresent (read .advanced) (inspect .advanced)).bind fun advanced => ?_
  refine (Rule.asks_loadAllIfPresent (read .scriptlet) (inspect .scriptlet)).bind
    fun scriptlet => ?_
  exact Job.asks_pure _

/-- A list that has been converted gives what its files hold, and the disk stays as it is. -/
theorem load_eq_ok_of_converted {loaded : Option TieredRules}
    (converted : world.disk.IsPresent (folder.convertedPath name .standard))
    (ran : (folder.load name).runIn world = (.ok loaded, after)) :
    after = world ∧ ∃ rules, loaded = some rules ∧ Holds folder name rules world.disk := by
  unfold load isConverted at ran
  rw [Files.runIn_bind_isPresent_of_present converted] at ran
  obtain ⟨rules, between, loadedRules, returned⟩ := Job.exists_of_runIn_bind ran
  obtain ⟨rfl, rfl⟩ := Job.eq_of_runIn_pure returned
  obtain ⟨rfl, holds⟩ := loadConverted_eq_ok loadedRules
  exact ⟨rfl, _, rfl, holds⟩

/-! ### What loading a list asks for -/

/-- Whether all is allowed that loading a list can ask for. -/
structure Permits (folder : ListFolder) (name : String) (allowed : Request → Prop) : Prop where
  note : ∀ entry, allowed (.note entry)
  inspectSource : allowed (.inspect (folder.sourcePath name))
  readSource : allowed (.read (folder.sourcePath name))
  inspect : ∀ tier, allowed (.inspect (folder.convertedPath name tier))
  read : ∀ tier, allowed (.read (folder.convertedPath name tier))
  write : ∀ tier content, allowed (.write (folder.convertedPath name tier) content)
  onWay : ∀ tier, ∀ directory ∈ Path.ancestors (folder.convertedPath name tier),
    allowed (.createDirectory directory) ∧ allowed (.inspect directory)

theorem Permits.asks_saveConverted (permits : folder.Permits name allowed)
    (rules : TieredRules) : (folder.saveConverted name rules).Asks allowed := by
  have saves : ∀ tier rules,
      (Rule.saveAll (folder.convertedPath name tier) rules).Asks allowed :=
    fun tier _ => Files.asks_save (permits.write tier _) (permits.onWay tier)
  unfold saveConverted
  refine (saves .advanced rules.advanced).bind fun _ => ?_
  refine (saves .scriptlet rules.scriptlet).bind fun _ => ?_
  refine (saves .standard rules.standard).bind fun _ => ?_
  exact Job.asks_noteAll permits.note _

theorem Permits.asks_convert (permits : folder.Permits name allowed) :
    (folder.convert name).Asks allowed := by
  unfold convert
  refine (Job.asks_noteAll permits.note _).bind fun _ => ?_
  refine (Files.asks_load permits.readSource).bind fun text => ?_
  refine (Job.asks_noteAll permits.note _).bind fun _ => ?_
  refine (permits.asks_saveConverted _).bind fun _ => ?_
  exact Job.asks_pure _

theorem Permits.asks_load (permits : folder.Permits name allowed) :
    (folder.load name).Asks allowed := by
  refine (Job.asks_lift (Files.asks_isPresent (permits.inspect .standard))).bind fun answer => ?_
  cases answer with
  | true =>
    have loads : (folder.loadConverted name).Asks allowed :=
      asks_loadConverted permits.read permits.inspect
    exact loads.bind fun _ => Job.asks_pure _
  | false =>
    refine (Job.asks_lift (Files.asks_isPresent permits.inspectSource)).bind fun answer => ?_
    cases answer with
    | true => exact permits.asks_convert.bind fun _ => Job.asks_pure _
    | false => exact (Job.asks_noteAll permits.note _).bind fun _ => Job.asks_pure _

end ListFolder

end FilterLists
