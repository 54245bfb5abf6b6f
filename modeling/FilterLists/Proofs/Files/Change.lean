/-
This file says what the operations that change one file come to, where a path leads to a file or to
nothing. Such an operation puts something else at one location. Directories stay, so all paths
lead where they led, and what lies at other locations stays too.
-/

import FilterLists.Proofs.Files.Disk

namespace FilterLists.Disk

variable {disk before after : Disk} {location : Location} {path : String}
  {content : Option ByteArray}

/-- Whether a disk becomes another by putting a file at a location, or nothing in place of a
file. -/
structure Puts (before after : Disk) (location : Location) (content : Option ByteArray) :
    Prop where
  directories : SameDirectories before after
  get?_eq : ∀ other, after.get? other =
    if other = location then content.map .file else before.get? other

theorem Puts.get?_self (puts : Puts before after location content) :
    after.get? location = content.map .file := by
  rw [puts.get?_eq, if_pos rfl]

theorem Puts.get?_of_ne (puts : Puts before after location content) {other : Location}
    (different : other ≠ location) : after.get? other = before.get? other := by
  rw [puts.get?_eq, if_neg different]

theorem puts_set (noDirectory : disk.get? location ≠ some .directory) (content : ByteArray) :
    Puts disk (disk.set location (.file content)) location (some content) :=
  ⟨sameDirectories_set noDirectory content,
    get?_set disk (.file content) (ne_nil_of_get?_ne noDirectory)⟩

theorem puts_erase (noDirectory : disk.get? location ≠ some .directory) :
    Puts disk (disk.erase location) location none :=
  ⟨sameDirectories_erase noDirectory, get?_erase disk (ne_nil_of_get?_ne noDirectory)⟩

theorem puts_refl (found : disk.get? location = content.map .file) :
    Puts disk disk location content := by
  refine ⟨.refl disk, fun other => ?_⟩
  split
  · rename_i same
    rw [same, found]
  · rfl

theorem get?_ne_directory (found : disk.get? location = content.map .file) :
    disk.get? location ≠ some .directory := by
  rw [found]
  cases content <;> simp

/-! ### Operations on a file that may be missing -/

section

variable (plain : insistsOnDirectory path = false) (located : disk.locate path = .ok location)
  (found : disk.get? location = content.map .file)

include plain located found

theorem inspect_of_get? :
    disk.inspect path =
      content.elim (.error .notFound) fun content =>
        .ok { isDirectory := false, size := content.size } := by
  unfold inspect
  cases content <;> simp [located, found, plain, bind, Except.bind]

theorem read_of_get? : disk.read path = content.elim (.error .notFound) .ok := by
  unfold read
  cases content <;> simp [located, found, plain, bind, Except.bind]

theorem append_of_get? (text : ByteArray) :
    ∃ after, disk.append path text = .ok after ∧
      Puts disk after location (some (content.getD .empty ++ text)) := by
  refine ⟨_, ?_, puts_set (get?_ne_directory found) _⟩
  unfold append writable
  cases content <;> simp [located, found, plain, bind, Except.bind, pure, Except.pure]

/-- Removing a file that is not there fails, and then too there is no file afterwards. -/
theorem removeFile_of_get? :
    ∃ after, Puts disk after location none ∧
      (disk.removeFile path = .ok after ∨
        disk.removeFile path = .error .notFound ∧ after = disk) := by
  unfold removeFile
  cases content with
  | none =>
    refine ⟨disk, puts_refl found, .inr ⟨?_, rfl⟩⟩
    simp [located, found, bind, Except.bind]
  | some content =>
    refine ⟨_, puts_erase (get?_ne_directory found), .inl ?_⟩
    simp [located, found, plain, bind, Except.bind]

end

/-- Moving a file takes it from one location and puts it at the other. -/
theorem rename_of_get? {target : String} {targetLocation : Location} {content : ByteArray}
    {replaced : Option ByteArray} (plain : insistsOnDirectory path = false)
    (plainTarget : insistsOnDirectory target = false) (named : endsWithName path = true)
    (namedTarget : endsWithName target = true) (located : disk.locate path = .ok location)
    (locatedTarget : disk.locate target = .ok targetLocation)
    (different : targetLocation ≠ location) (found : disk.get? location = some (.file content))
    (foundTarget : disk.get? targetLocation = replaced.map .file) :
    ∃ between after, disk.rename path target = .ok after ∧
      Puts disk between location none ∧ Puts between after targetLocation (some content) := by
  have taken : Puts disk (disk.erase location) location none :=
    puts_erase (by simp [found])
  have free : (disk.erase location).get? targetLocation ≠ some .directory := by
    rw [taken.get?_of_ne different]
    exact get?_ne_directory foundTarget
  refine ⟨_, _, ?_, taken, puts_set free content⟩
  unfold rename
  cases replaced <;>
    simp [located, locatedTarget, found, foundTarget, plain, plainTarget, named, namedTarget,
      bind, Except.bind]

end FilterLists.Disk
