/-
This file says how long the files of a list can stand for what the list has given. A list that has
given rules has left files that give them again, and a list that has given none has left nothing.
It stays like this until something else comes to lie where one of its files is looked up.

That can happen in three ways. A file can be written there. A directory can be made there, on the
way to some file. And a directory that is made anywhere can open a way for a path that led nowhere
before, to what has lain at the end of it all along.
-/

import FilterLists.Proofs.Files.Frame
import FilterLists.Proofs.Lists.Reloading

namespace FilterLists

variable {world after : World} {path name : String}

/-! ### Places that are kept -/

namespace Disk

variable {allowed : String → Prop} {start current final : Disk}

/-- Whether a path that leads to a text leads to the same text on a later disk, and a path that
leads to nothing leads to nothing there. -/
structure KeepsAt (current final : Disk) (path : String) : Prop where
  text : ∀ text, current.HoldsText path text → final.HoldsText path text
  missing : ¬current.IsPresent path → ¬final.IsPresent path

/-- A place is kept if nothing is written there, no way to it is opened and no directory is made
there. -/
theorem keepsAt_of_changesOnly (plain : insistsOnDirectory path = false)
    (earlier : start.MoreDirectories current) (changes : current.ChangesOnly allowed final)
    (unwritten : ∀ other, allowed other → ¬final.SamePlace path other)
    (opened : ∀ location, final.locate path = .ok location → final.get? location ≠ none →
      start.locate path = .ok location)
    (made : ∀ location, final.locate path = .ok location →
      final.get? location = some .directory → start.get? location = some .directory) :
    KeepsAt current final path := by
  have unchanged : ∀ location, final.locate path = .ok location →
      final.content? location = current.content? location := by
    intro location located
    obtain same | ⟨other, isAllowed, there⟩ := changes.unchanged location
    · exact same
    · exact absurd ⟨location, located, there⟩ (unwritten other isAllowed)
  refine ⟨fun text holds => ?_, fun missing => ?_⟩
  · obtain ⟨location, content, located, found, decoded⟩ := get?_of_holdsText plain holds
    have locatedThen := changes.more.locate_eq_ok located
    have isRead : final.read path = .ok content := by
      refine (read_eq_ok_iff plain).mpr ⟨location, locatedThen, ?_⟩
      rw [← content?_eq_some_iff, unchanged location locatedThen, content?_eq_some_iff, found]
    unfold HoldsText
    rw [isRead]
    exact decoded
  · rw [isPresent_iff plain] at missing ⊢
    rintro ⟨location, located, present⟩
    have locatedNow := earlier.locate_eq_ok (opened location located present)
    cases found : final.get? location with
    | none => exact present found
    | some node =>
      refine missing ⟨location, locatedNow, ?_⟩
      cases node with
      | file content =>
        have isContent := unchanged location located
        rw [content?_eq_some_iff.mpr found] at isContent
        rw [content?_eq_some_iff.mp isContent.symm]
        simp
      | directory =>
        rw [earlier.directory location (made location located found)]
        simp

end Disk

/-! ### Lists that stand -/

namespace ListFolder

variable {folder : ListFolder} {loaded : Option TieredRules} {disk : Disk}

/-- The paths at which the files of a list are looked up. -/
inductive IsFileOf (folder : ListFolder) (name : String) : String → Prop
  | source : IsFileOf folder name (folder.sourcePath name)
  | converted (tier : Tier) : IsFileOf folder name (folder.convertedPath name tier)

theorem IsFileOf.plain (isFile : folder.IsFileOf name path) :
    Disk.insistsOnDirectory path = false := by
  cases isFile with
  | source => exact folder.insistsOnDirectory_sourcePath name
  | converted tier => exact folder.insistsOnDirectory_convertedPath name tier

/-- Whether the files of a list stand for what the list has given: rules, or nothing. -/
inductive Stands (folder : ListFolder) (name : String) (disk : Disk) : Option TieredRules → Prop
  | holds {rules : TieredRules} :
    Holds folder name rules.withoutMarks disk → Stands folder name disk (some rules)
  | missing :
    ¬disk.IsPresent (folder.convertedPath name .standard) →
    ¬disk.IsPresent (folder.sourcePath name) → Stands folder name disk none

/-- A list stands once it has been loaded. -/
theorem stands_of_load (ran : (folder.load name).runIn world = (.ok loaded, after)) :
    Stands folder name after.disk loaded := by
  by_cases converted : world.disk.IsPresent (folder.convertedPath name .standard)
  · obtain ⟨rfl, rules, rfl, holds⟩ := load_eq_ok_of_converted converted ran
    refine .holds ?_
    rw [holds.withoutMarks_eq]
    exact holds
  · obtain ⟨rfl, noSource, same⟩ | ⟨text, -, rfl, saved⟩ := load_eq_ok_of_fresh converted ran
    · exact .missing (same ▸ converted) (same ▸ noSource)
    · exact .holds (holds_of_holdsText fun tier => saved.holdsText (mem_savingOrder tier))

/-- Loading a list never makes directories. -/
theorem sameDirectories_of_load (ran : (folder.load name).runIn world = (.ok loaded, after)) :
    Disk.SameDirectories world.disk after.disk := by
  by_cases converted : world.disk.IsPresent (folder.convertedPath name .standard)
  · obtain ⟨rfl, -⟩ := load_eq_ok_of_converted converted ran
    exact .refl _
  · obtain ⟨-, -, same⟩ | ⟨text, -, -, saved⟩ := load_eq_ok_of_fresh converted ran
    · exact same ▸ .refl _
    · exact saved.sameDirectories

/-- A list that stands gives again what it has given, but for first party marks, and changes
nothing. -/
theorem Stands.runIn_load (stands : Stands folder name world.disk loaded) :
    ∃ after, (folder.load name).runIn world =
        (.ok (loaded.map TieredRules.withoutMarks), after) ∧ after.disk = world.disk := by
  cases stands with
  | holds holds => exact ⟨world, holds.runIn_load, rfl⟩
  | missing notConverted noSource =>
    exact ⟨_, runIn_load_of_missing notConverted noSource, rfl⟩

variable {rules : List Rule} {before final : Disk}

theorem areIn_of_keepsAt (keeps : before.KeepsAt final path)
    (areIn : Rule.AreIn rules before path) : Rule.AreIn rules final path := by
  obtain ⟨text, holds, decoded⟩ := areIn
  exact ⟨text, keeps.text text holds, decoded⟩

theorem mayBeIn_of_keepsAt (keeps : before.KeepsAt final path)
    (mayBeIn : Rule.MayBeIn rules before path) : Rule.MayBeIn rules final path :=
  mayBeIn.imp (areIn_of_keepsAt keeps) fun ⟨missing, empty⟩ => ⟨keeps.missing missing, empty⟩

/-- A list stands as long as its places are kept. -/
theorem Stands.of_keepsAt (stands : Stands folder name before loaded)
    (keeps : ∀ path, folder.IsFileOf name path → before.KeepsAt final path) :
    Stands folder name final loaded := by
  cases stands with
  | holds holds =>
    exact .holds ⟨areIn_of_keepsAt (keeps _ (.converted .standard)) holds.standard,
      mayBeIn_of_keepsAt (keeps _ (.converted .advanced)) holds.advanced,
      mayBeIn_of_keepsAt (keeps _ (.converted .scriptlet)) holds.scriptlet⟩
  | missing notConverted noSource =>
    exact .missing ((keeps _ (.converted .standard)).missing notConverted)
      ((keeps _ .source).missing noSource)

/-! ### Lists that are left alone -/

/-- Whether the files of some lists are left alone on the way from one disk to another, on which
converted files of these lists are written, and files at certain other paths. -/
structure LeftAlone (folder : ListFolder) (names : List String) (written : String → Prop)
    (before after : Disk) : Prop where
  /-- No file of a list lies where another file is written. -/
  notOutput : ∀ name ∈ names, ∀ path, folder.IsFileOf name path → ∀ other, written other →
    ¬after.SamePlace path other
  /-- No file of a list lies where a converted file of another list is written. -/
  notConverted : ∀ name ∈ names, ∀ path, folder.IsFileOf name path → ∀ list ∈ names, list ≠ name →
    ∀ tier, ¬after.SamePlace path (folder.convertedPath list tier)
  /-- No way is opened to something that lies where a file of a list is looked up. -/
  opened : ∀ name ∈ names, ∀ path, folder.IsFileOf name path → ∀ location,
    after.locate path = .ok location → after.get? location ≠ none →
    before.locate path = .ok location
  /-- No directory is made where a file of a list is looked up. -/
  made : ∀ name ∈ names, ∀ path, folder.IsFileOf name path → ∀ location,
    after.locate path = .ok location → after.get? location = some .directory →
    before.get? location = some .directory

/-- The paths other than those of a list at which files are written. -/
inductive WrittenBeside (folder : ListFolder) (names : List String) (written : String → Prop)
    (name : String) : String → Prop
  | output {path : String} : written path → WrittenBeside folder names written name path
  | converted {list : String} (tier : Tier) : list ∈ names → list ≠ name →
    WrittenBeside folder names written name (folder.convertedPath list tier)

theorem LeftAlone.keepsAt {names : List String} {written : String → Prop} {current : Disk}
    (leftAlone : folder.LeftAlone names written before final) (member : name ∈ names)
    (earlier : before.MoreDirectories current)
    (changes : current.ChangesOnly (WrittenBeside folder names written name) final)
    (path : String) (isFile : folder.IsFileOf name path) : current.KeepsAt final path := by
  refine Disk.keepsAt_of_changesOnly isFile.plain earlier changes ?_
    (leftAlone.opened name member path isFile) (leftAlone.made name member path isFile)
  intro other isWritten
  cases isWritten with
  | output isOutput => exact leftAlone.notOutput name member path isFile other isOutput
  | converted tier isList different =>
    exact leftAlone.notConverted name member path isFile _ isList different tier

end ListFolder

end FilterLists
