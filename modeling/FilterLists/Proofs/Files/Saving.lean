/-
This file says what is left of files that are saved one after the other. The directories on the way
are made as they are needed, so a path may lead to a place only once an earlier file has been saved,
and two paths that look different may turn out to lead to the same place. What lies at a place in
the end is the text of the last of the files whose paths lead there.

Saving the same files once more needs no directories, since each path now leads to a file. So it
cannot fail, and each place gets the text that it has.
-/

import FilterLists.Proofs.Files.Frame

namespace FilterLists

variable {world later : World} {path content : String}

/-! ### Saving one file -/

namespace Files

theorem asks_createDirectories_onWay (path : String) :
    (createDirectories (Path.ancestors path)).Asks (Request.WritesAt fun _ => False) :=
  asks_createDirectories fun _ _ => ⟨trivial, trivial⟩

/-- A file that is saved is written after directories may have been made. None is made if all of
them are there. -/
theorem save_eq_ok (ran : (save path content).runIn world = (.ok (), later)) :
    ∃ between : Disk, world.disk.ChangesOnly (fun _ => False) between ∧
      ((∀ directory ∈ Path.ancestors path, world.disk.IsDirectory directory) →
        between = world.disk) ∧
      between.write path content.toUTF8 = .ok later.disk := by
  have changes := (asks_createDirectories_onWay path).changesOnly_run world
  have unneeded : (∀ directory ∈ Path.ancestors path, world.disk.IsDirectory directory) →
      ((createDirectories (Path.ancestors path)).run world).2.disk = world.disk :=
    fun there => congrArg (fun ended => ended.2.disk) (run_createDirectories there)
  unfold save save? at ran
  rw [Job.runIn_bind_lift, Program.run_bind] at ran
  generalize (createDirectories (Path.ancestors path)).run world = ended at changes unneeded ran
  obtain ⟨outcome, between⟩ := ended
  cases outcome with
  | error cause => cases ran
  | ok _ =>
    refine ⟨between.disk, changes, unneeded, ?_⟩
    change (Job.ofExcept (Failure.writing path) (between.withDisk _).1).runIn
      (between.withDisk _).2 = _ at ran
    cases written : between.disk.write path content.toUTF8 with
    | error cause =>
      rw [written] at ran
      cases ran
    | ok disk =>
      rw [written] at ran
      cases ran
      rfl

/-- Whether a path leads to a file. -/
structure LeadsToFile (disk : Disk) (path : String) : Prop where
  plain : Disk.insistsOnDirectory path = false
  located : ∃ location, disk.locate path = .ok location ∧ (disk.content? location).isSome = true

theorem LeadsToFile.of_changesOnly {allowed : String → Prop} {before after : Disk}
    (leads : LeadsToFile before path) (changes : before.ChangesOnly allowed after) :
    LeadsToFile after path := by
  obtain ⟨plain, location, located, isFile⟩ := leads
  exact ⟨plain, location, changes.more.locate_eq_ok located, changes.kept location isFile⟩

/-- Where a path leads to a file, a file can be saved, and all paths to files still are. -/
theorem LeadsToFile.runIn_save (leads : LeadsToFile world.disk path) (content : String) :
    ∃ disk, (save path content).runIn world = (.ok (), { world with disk }) ∧
      ∀ other, LeadsToFile world.disk other → LeadsToFile disk other := by
  obtain ⟨plain, location, located, isFile⟩ := leads
  obtain ⟨bytes, isContent⟩ := Option.isSome_iff_exists.mp isFile
  have noDirectory : world.disk.get? location ≠ some .directory := by
    rw [Disk.content?_eq_some_iff.mp isContent]
    simp
  have there : ∀ directory ∈ Path.ancestors path, world.disk.IsDirectory directory := by
    intro directory member
    obtain ⟨nonempty, back, split, leadsOn⟩ := Path.exists_append_of_mem_ancestors member
    exact Disk.isDirectory_of_locate located nonempty split leadsOn
  have written : world.disk.write path content.toUTF8 =
      .ok (world.disk.set location (.file content.toUTF8)) :=
    (Disk.write_eq_ok_iff plain).mpr ⟨location, located, noDirectory, rfl⟩
  have changes := (Disk.ChangesOnly.refl (fun _ => True) world.disk).setFile trivial located
    noDirectory content.toUTF8
  exact ⟨_, by rw [Files.runIn_save there, written], fun _ leads => leads.of_changesOnly changes⟩

end Files

/-! ### Files saved one after the other -/

/-- What saving texts at paths, one after the other, makes of a disk: every path leads somewhere,
each text lies there unless a later path leads there too, and nothing else has changed. -/
structure Wrote (files : List (String × String)) (before after : Disk) : Prop where
  changes : before.ChangesOnly (fun path => path ∈ files.map Prod.fst) after
  /-- If all directories are there, none is made. -/
  sameDirectories :
    (∀ file ∈ files, ∀ directory ∈ Path.ancestors file.1, before.IsDirectory directory) →
    before.SameDirectories after
  plain : ∀ file ∈ files, Disk.insistsOnDirectory file.1 = false
  located : ∀ file ∈ files, ∃ location, after.locate file.1 = .ok location
  kept : ∀ front file back location, files = front ++ file :: back →
    after.locate file.1 = .ok location →
    (∀ other ∈ back, after.locate other.1 ≠ .ok location) →
    after.content? location = some file.2.toUTF8

namespace Wrote

variable {files : List (String × String)} {before current between after : Disk}
  {location : Location}

theorem start (disk : Disk) : Wrote [] disk disk where
  changes := .refl _ disk
  sameDirectories _ := .refl disk
  plain := by simp
  located := by simp
  kept front file back location split := by simp at split

/-- Saving one more file keeps what is said of the disk. -/
theorem add (wrote : Wrote files before current)
    (made : current.ChangesOnly (fun _ => False) between)
    (unneeded : (∀ directory ∈ Path.ancestors path, current.IsDirectory directory) →
      between = current)
    (written : between.write path content.toUTF8 = .ok after) :
    Wrote (files ++ [(path, content)]) before after := by
  have plain := Disk.plain_of_write_eq_ok written
  obtain ⟨place, here, noDirectory, rfl⟩ := Disk.exists_of_write_eq_ok written
  have inside := Disk.ne_nil_of_get?_ne noDirectory
  have set := Disk.sameDirectories_set noDirectory content.toUTF8
  have stays : ∀ {other : String} {location : Location},
      between.locate other = .ok location →
      (between.set place (.file content.toUTF8)).locate other = .ok location :=
    set.moreDirectories.locate_eq_ok
  have unmade : ∀ location, between.content? location = current.content? location := by
    intro location
    obtain same | ⟨_, impossible, _⟩ := made.unchanged location
    · exact same
    · exact impossible.elim
  refine ⟨?_, ?_, ?_, ?_, ?_⟩
  · have earlier : before.ChangesOnly
        (fun other => other ∈ (files ++ [(path, content)]).map Prod.fst) between :=
      (wrote.changes.mono (by simp_all)).trans (made.mono fun _ => False.elim)
    exact earlier.setFile (by simp) here noDirectory _
  · intro there
    have same := wrote.sameDirectories fun file member => there file (by simp [member])
    have still := unneeded fun directory member =>
      (there (path, content) (by simp) directory member).of_same same
    exact same.trans (still ▸ set)
  · intro file member
    obtain earlier | same := List.mem_append.mp member
    · exact wrote.plain file earlier
    · exact List.mem_singleton.mp same ▸ plain
  · intro file member
    obtain earlier | same := List.mem_append.mp member
    · obtain ⟨location, located⟩ := wrote.located file earlier
      exact ⟨location, stays (made.more.locate_eq_ok located)⟩
    · exact ⟨place, List.mem_singleton.mp same ▸ stays here⟩
  · intro front file back location split located unshared
    rw [Disk.content?_set inside]
    obtain rfl | ⟨rest, last, rfl⟩ := List.eq_nil_or_concat back
    · -- The file is the new one.
      obtain ⟨-, same⟩ := List.append_inj' split rfl
      obtain rfl := (List.singleton_inj.mp same).symm
      obtain rfl : place = location := Except.ok.inj ((stays here).symm.trans located)
      rw [if_pos rfl]
      rfl
    · -- The file is an earlier one, and the new one lies elsewhere.
      have regrouped : files ++ [(path, content)] = (front ++ file :: rest) ++ [last] := by
        simpa using split
      obtain ⟨rfl, same⟩ := List.append_inj' regrouped rfl
      obtain rfl := (List.singleton_inj.mp same).symm
      have away : location ≠ place := by
        rintro rfl
        exact unshared (path, content) (by simp) (stays here)
      rw [if_neg away, unmade]
      obtain ⟨current, there⟩ := wrote.located file (by simp)
      obtain rfl : current = location :=
        Except.ok.inj ((stays (made.more.locate_eq_ok there)).symm.trans located)
      exact wrote.kept front file rest current rfl there fun other isLater same =>
        unshared other (by simp [isLater]) (stays (made.more.locate_eq_ok same))

/-- If several files have something in common, one of them is the last. -/
theorem exists_last (shares : String × String → Prop) (shared : ∃ file ∈ files, shares file) :
    ∃ front last back, files = front ++ last :: back ∧ shares last ∧
      ∀ other ∈ back, ¬shares other := by
  induction files with
  | nil =>
    obtain ⟨_, member, _⟩ := shared
    cases member
  | cons first rest inductionHypothesis =>
    by_cases later : ∃ file ∈ rest, shares file
    · obtain ⟨front, last, back, rfl, isShared, unshared⟩ := inductionHypothesis later
      exact ⟨first :: front, last, back, rfl, isShared, unshared⟩
    · obtain ⟨file, member, isShared⟩ := shared
      have none_later : ∀ other ∈ rest, ¬shares other :=
        fun other isLater isShared => later ⟨other, isLater, isShared⟩
      obtain rfl | isLater := List.mem_cons.mp member
      · exact ⟨[], file, rest, rfl, isShared, none_later⟩
      · exact absurd isShared (none_later file isLater)

/-- Saving the same texts once more leaves every file as it is. -/
theorem content?_again (first : Wrote files before current) (second : Wrote files current after)
    (location : Location) : after.content? location = current.content? location := by
  obtain same | ⟨path, member, there⟩ := second.changes.unchanged location
  · exact same
  · obtain ⟨file, isFile, rfl⟩ := List.mem_map.mp member
    obtain ⟨front, last, back, split, isThere, unshared⟩ :=
      exists_last (fun other => after.locate other.1 = .ok location) ⟨file, isFile, there⟩
    obtain ⟨place, located⟩ := first.located last (by simp [split])
    obtain rfl : place = location :=
      Except.ok.inj ((second.changes.more.locate_eq_ok located).symm.trans isThere)
    rw [second.kept front last back place split isThere unshared]
    exact (first.kept front last back place split located fun other isLater same =>
      unshared other isLater (second.changes.more.locate_eq_ok same)).symm

/-- At the path of a file lies the text of the last file whose path leads to the same place. -/
theorem holdsText (wrote : Wrote files before after) {index last : Nat}
    {path text lastPath lastText : String} (isFile : files[index]? = some (path, text))
    (isLast : files[last]? = some (lastPath, lastText)) (same : after.SamePlace path lastPath)
    (unshared : ∀ later other, last < later → files[later]? = some other →
      ¬after.SamePlace path other.1) : after.HoldsText path lastText := by
  obtain ⟨location, here, there⟩ := same
  have split : files = files.take last ++ (lastPath, lastText) :: files.drop (last + 1) := by
    obtain ⟨within, found⟩ := List.getElem?_eq_some_iff.mp isLast
    rw [← found, ← List.drop_eq_getElem_cons within, List.take_append_drop]
  have isContent := wrote.kept _ _ _ location split there fun other isLater same => by
    obtain ⟨offset, isOther⟩ := List.mem_iff_getElem?.mp isLater
    rw [List.getElem?_drop] at isOther
    exact unshared _ other (by omega) isOther ⟨location, here, same⟩
  exact Disk.holdsText_of_get? (wrote.plain _ (List.mem_of_getElem? isFile)) here
    (Disk.content?_eq_some_iff.mp isContent)

theorem leadsToFile (wrote : Wrote files before after) {file : String × String}
    (member : file ∈ files) : Files.LeadsToFile after file.1 := by
  obtain ⟨location, located⟩ := wrote.located file member
  obtain ⟨front, last, back, split, there, unshared⟩ :=
    exists_last (fun other => after.locate other.1 = .ok location) ⟨file, member, located⟩
  have isContent := wrote.kept front last back location split there unshared
  exact ⟨wrote.plain file member, location, located, by rw [isContent]; rfl⟩

theorem add_of_save (wrote : Wrote files before world.disk)
    (ran : (Files.save path content).runIn world = (.ok (), later)) :
    Wrote (files ++ [(path, content)]) before later.disk := by
  obtain ⟨between, made, unneeded, written⟩ := Files.save_eq_ok ran
  exact wrote.add made unneeded written

end Wrote

end FilterLists
