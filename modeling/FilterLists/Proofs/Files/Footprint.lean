/-
This file says what saving a file leaves of a disk. The directories that the path leads through are
made first, and each of them can be where a file stands, or lead back to where something is; so
saving can fail after some directories have been made. What is shown is that nothing else can
have happened. A directory is only made where nothing is, so all that was there stays as it was,
and the file is written last, so it is written as a whole or not at all.

A path that leads nowhere at first may lead somewhere once directories have been made. Where the
file lies is therefore told by the disk that saving leaves behind.
-/

import FilterLists.Proofs.Files.Frame

namespace FilterLists

variable {made : String → Prop} {before between disk after : Disk} {path : String}
  {location : Location}

namespace Disk

/-! ### Directories that are added -/

/-- Whether a disk becomes another by making directories that certain paths lead to, where nothing
was before. What becomes of certain locations is left open. -/
structure GrowsBy (made : String → Prop) (apart : Location → Prop) (before after : Disk) :
    Prop where
  home : after.home = before.home
  kept : ∀ location node, ¬apart location → before.get? location = some node →
    after.get? location = some node
  added : ∀ location, ¬apart location → before.get? location = none →
    after.get? location = none ∨
      after.get? location = some .directory ∧ ∃ path, made path ∧ after.locate path = .ok location

/-- Whether a disk becomes another by making directories, and by nothing else. -/
abbrev OnlyGrowsBy (made : String → Prop) (before after : Disk) : Prop :=
  GrowsBy made (fun _ => False) before after

theorem OnlyGrowsBy.refl (made : String → Prop) (disk : Disk) : OnlyGrowsBy made disk disk :=
  ⟨rfl, fun _ _ _ => id, fun _ _ => .inl⟩

theorem OnlyGrowsBy.get? (grows : OnlyGrowsBy made before after) {node : Node}
    (found : before.get? location = some node) : after.get? location = some node :=
  grows.kept location node not_false found

theorem OnlyGrowsBy.createDirectory (grows : OnlyGrowsBy made before disk) (isMade : made path)
    (created : disk.createDirectory path = .ok after) : OnlyGrowsBy made before after := by
  obtain ⟨place, located, free, rfl⟩ := exists_of_createDirectory_eq_ok created
  have inside : place ≠ [] := by
    rintro rfl
    cases free
  have set := get?_set disk .directory inside
  have more : MoreDirectories disk (disk.set place .directory) := by
    refine ⟨rfl, fun other there => ?_⟩
    rw [set]
    split
    · rfl
    · exact there
  refine ⟨grows.home, fun other node _ found => ?_, fun other _ missing => ?_⟩
  · have away : other ≠ place := by
      rintro rfl
      cases free.symm.trans (grows.get? found)
    rw [set, if_neg away]
    exact grows.get? found
  · rw [set]
    by_cases here : other = place
    · rw [if_pos here]
      exact .inr ⟨rfl, path, isMade, here ▸ more.locate_eq_ok located⟩
    · rw [if_neg here]
      exact (grows.added other not_false missing).imp_right
        fun ⟨isDirectory, path, isMade, there⟩ =>
          ⟨isDirectory, path, isMade, more.locate_eq_ok there⟩

/-- A file that is written after directories have been made lies where its path leads in the end,
and no directory was there before. -/
theorem OnlyGrowsBy.write {content : ByteArray} (grows : OnlyGrowsBy made before between)
    (written : between.write path content = .ok after) :
    ∃ location, after.locate path = .ok location ∧
      after.get? location = some (.file content) ∧ before.get? location ≠ some .directory ∧
      before.GrowsBy made (· = location) after := by
  obtain ⟨place, located, noDirectory, rfl⟩ := exists_of_write_eq_ok written
  have same := sameDirectories_set noDirectory content
  have set := get?_set between (.file content) (ne_nil_of_get?_ne noDirectory)
  refine ⟨place, same.locate_eq_ok.mpr located, ?_, fun there => noDirectory (grows.get? there),
    grows.home, fun other node away found => ?_, fun other away missing => ?_⟩
  · rw [set, if_pos rfl]
  · rw [set, if_neg away]
    exact grows.get? found
  · rw [set, if_neg away]
    exact (grows.added other not_false missing).imp_right
      fun ⟨isDirectory, path, isMade, there⟩ =>
        ⟨isDirectory, path, isMade, same.locate_eq_ok.mpr there⟩

end Disk

/-! ### Saving a file -/

/-- Whether a path leads through a directory: it goes on behind the path of the directory. -/
def Path.IsThrough (path directory : String) : Prop :=
  ∃ back, path.toList = directory.toList ++ '/' :: back

theorem Job.exists_attempt_eq_runIn {α : Type} (job : Job α) (world : World) :
    ∃ fates, job.attempt fates world = (some (job.runIn world).1, (job.runIn world).2) :=
  Program.exists_attempt_eq_run (ExceptT.run job) world

namespace Files

variable {content : String} {world later : World} {fates : List Fate}
  {ended : Option (Except Failure Unit)}

/-- However things go, directories on the way are made, and then the file is written if saving it
succeeds. -/
theorem exists_saves (attempted : (save path content).attempt fates world = (ended, later)) :
    ∃ between : World, world.disk.OnlyGrowsBy (Path.IsThrough path) between.disk ∧
      Saves path content between.disk later.disk ended := by
  refine exists_saves_of_attempt
    (fun between => world.disk.OnlyGrowsBy (Path.IsThrough path) between.disk) ?_
    (.refl _ _) attempted
  refine asks_createDirectories fun directory member => ⟨fun between grows => ?_, fun _ => id⟩
  obtain ⟨-, back, isThrough, -⟩ := Path.exists_append_of_mem_ancestors member
  show world.disk.OnlyGrowsBy _ (between.withDisk _).2.disk
  cases created : between.disk.createDirectory directory with
  | error cause => exact grows
  | ok disk => exact grows.createDirectory ⟨back, isThrough⟩ created

/-- What saving a file leaves of a disk. If it succeeds, the file holds the text, and all else that
was there is as it was; if it does not, this is so of all that was there. Nothing is added but the
file and directories on the way to it. -/
structure Framed (path content : String) (before : Disk) (ended : Option (Except Failure Unit))
    (after : World) : Prop where
  succeeded : ended = some (.ok ()) →
    (load path).runIn after = (.ok content, after) ∧
      ∃ location, after.disk.locate path = .ok location ∧
        after.disk.get? location = some (.file content.toUTF8) ∧
        before.get? location ≠ some .directory ∧
        before.GrowsBy (Path.IsThrough path) (· = location) after.disk
  failed : ended ≠ some (.ok ()) →
    before.OnlyGrowsBy (Path.IsThrough path) after.disk

theorem framed_of_attempt
    (attempted : (save path content).attempt fates world = (ended, later)) :
    Framed path content world.disk ended later := by
  obtain ⟨between, grows, saves⟩ := exists_saves attempted
  cases saves with
  | brokenOff unchanged => exact ⟨by simp, fun _ => unchanged ▸ grows⟩
  | failed failure unchanged => exact ⟨by simp, fun _ => unchanged ▸ grows⟩
  | done written =>
    obtain ⟨location, located, found, noDirectory, apart⟩ := grows.write written
    have holds := Disk.holdsText_of_get? (Disk.plain_of_write_eq_ok written) located found
    exact ⟨fun _ => ⟨load_eq_ok_iff.mpr ⟨rfl, holds⟩, location, located, found, noDirectory, apart⟩,
      fun failed => absurd rfl failed⟩

/-- Saving a file changes nothing but the file and adds nothing but the file and directories on the
way to it; and if it fails, whatever the reason, the file is as it was. -/
theorem save_framed (path content : String) (world : World) :
    (∀ outcome after, (save path content).runIn world = (outcome, after) →
      Framed path content world.disk (some outcome) after) ∧
    ∀ fates ended after, (save path content).attempt fates world = (ended, after) →
      Framed path content world.disk ended after := by
  refine ⟨fun outcome after ran => ?_, fun _ _ _ => framed_of_attempt⟩
  obtain ⟨fates, attempted⟩ := (save path content).exists_attempt_eq_runIn world
  rw [ran] at attempted
  exact framed_of_attempt attempted

/-! ### A path that leads back -/

/-- A disk with one file. -/
def loneFileWorld : World where
  disk := {
    home := []
    entries := [(["old.txt"], .file "old".toUTF8)] }

/-- For each of two files a directory is made that their paths only lead back from. The first file
is saved; the second is not, since its path leads through a file as if it were a directory. -/
theorem loneFile_framed :
    (∃ after, (save "new/../a.txt" "text").runIn loneFileWorld = (.ok (), after) ∧
      (load "new/../a.txt").runIn after = (.ok "text", after) ∧
      after.disk.get? ["old.txt"] = some (.file "old".toUTF8)) ∧
    ∃ failure after, (save "new/../old.txt/a" "text").runIn loneFileWorld =
        (.error failure, after) ∧
      after.disk.get? ["new"] = some .directory ∧
      after.disk.get? ["old.txt"] = some (.file "old".toUTF8) := by
  have there : loneFileWorld.disk.get? ["old.txt"] = some (.file "old".toUTF8) := rfl
  constructor
  · have ends : (save "new/../a.txt" "text").runIn loneFileWorld =
        (.ok (), ((save "new/../a.txt" "text").runIn loneFileWorld).2) := rfl
    have placed : ((save "new/../a.txt" "text").runIn loneFileWorld).2.disk.locate
        "new/../a.txt" = .ok ["a.txt"] := rfl
    obtain ⟨isRead, location, located, -, -, grows⟩ :=
      ((save_framed "new/../a.txt" "text" loneFileWorld).1 _ _ ends).succeeded rfl
    obtain rfl : ["a.txt"] = location := Except.ok.inj (placed.symm.trans located)
    exact ⟨_, ends, isRead, grows.kept _ _ (by decide) there⟩
  · have ends : (save "new/../old.txt/a" "text").runIn loneFileWorld =
        (.error (.writing "new/../old.txt/a" .alreadyExists),
          ((save "new/../old.txt/a" "text").runIn loneFileWorld).2) := rfl
    have grows :=
      ((save_framed "new/../old.txt/a" "text" loneFileWorld).1 _ _ ends).failed (by simp)
    exact ⟨_, _, ends, rfl, grows.get? there⟩

end Files

end FilterLists
