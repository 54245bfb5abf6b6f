/-
This file says what it means that a program changes no files but those at certain paths. Directories
may be made on the way, so a path that leads nowhere at first may lead somewhere later; what is
said of a changed file is therefore that one of the paths leads to it in the end. Directories are
never taken away, so a path that leads somewhere leads there from then on.
-/

import FilterLists.Proofs.Program.Attempts

namespace FilterLists

variable {allowed : String → Prop} {before after disk : Disk} {path : String}

/-- What a file contains. A directory contains nothing in this sense. -/
def Node.content? : Node → Option ByteArray
  | .file content => some content
  | .directory => none

namespace Disk

/-! ### Changes of some files -/

/-- What the file at a location contains, if there is one. -/
def content? (disk : Disk) (location : Location) : Option ByteArray :=
  (disk.get? location).bind Node.content?

/-- Whether a disk has become another without a change of files but those that certain paths lead
to, and without taking away a file or a directory. -/
structure ChangesOnly (allowed : String → Prop) (before after : Disk) : Prop where
  more : MoreDirectories before after
  kept : ∀ location, (before.content? location).isSome = true →
    (after.content? location).isSome = true
  unchanged : ∀ location, after.content? location = before.content? location ∨
    ∃ path, allowed path ∧ after.locate path = .ok location

theorem MoreDirectories.trans {first second third : Disk} (early : MoreDirectories first second)
    (late : MoreDirectories second third) : MoreDirectories first third :=
  ⟨late.home.trans early.home, fun _ there => late.directory _ (early.directory _ there)⟩

theorem ChangesOnly.refl (allowed : String → Prop) (disk : Disk) :
    ChangesOnly allowed disk disk :=
  ⟨⟨rfl, fun _ => id⟩, fun _ => id, fun _ => .inl rfl⟩

theorem ChangesOnly.trans (early : ChangesOnly allowed before disk)
    (late : ChangesOnly allowed disk after) : ChangesOnly allowed before after := by
  refine ⟨early.more.trans late.more, fun location there => late.kept location
    (early.kept location there), fun location => ?_⟩
  obtain same | isAllowed := late.unchanged location
  · rw [same]
    exact (early.unchanged location).imp_right fun ⟨path, isAllowed, there⟩ =>
      ⟨path, isAllowed, late.more.locate_eq_ok there⟩
  · exact .inr isAllowed

theorem ChangesOnly.mono {other : String → Prop} (changes : ChangesOnly allowed before after)
    (weaker : ∀ path, allowed path → other path) : ChangesOnly other before after :=
  ⟨changes.more, changes.kept, fun location => (changes.unchanged location).imp_right
    fun ⟨path, isAllowed, there⟩ => ⟨path, weaker path isAllowed, there⟩⟩

theorem content?_eq_some_iff {location : Location} {content : ByteArray} :
    disk.content? location = some content ↔ disk.get? location = some (.file content) := by
  unfold content?
  cases disk.get? location with
  | none => simp
  | some node => cases node <;> simp [Node.content?]

theorem content?_set {location : Location} (inside : location ≠ []) (node : Node)
    (other : Location) :
    (disk.set location node).content? other =
      if other = location then node.content? else disk.content? other := by
  unfold content?
  rw [get?_set disk node inside]
  split <;> rfl

variable {location : Location}

theorem ChangesOnly.setFile (changes : ChangesOnly allowed before disk) (isAllowed : allowed path)
    (located : disk.locate path = .ok location) (noDirectory : disk.get? location ≠ some .directory)
    (content : ByteArray) : ChangesOnly allowed before (disk.set location (.file content)) := by
  have inside := ne_nil_of_get?_ne noDirectory
  have more : MoreDirectories disk (disk.set location (.file content)) :=
    (sameDirectories_set noDirectory content).moreDirectories
  refine ⟨changes.more.trans more, fun other there => ?_, fun other => ?_⟩
  · rw [content?_set inside]
    split
    · rfl
    · exact changes.kept other there
  · rw [content?_set inside]
    by_cases same : other = location
    · exact .inr ⟨path, isAllowed, same ▸ more.locate_eq_ok located⟩
    · rw [if_neg same]
      exact (changes.unchanged other).imp_right fun ⟨path, isAllowed, there⟩ =>
        ⟨path, isAllowed, more.locate_eq_ok there⟩

theorem ChangesOnly.setDirectory (changes : ChangesOnly allowed before disk)
    (free : disk.get? location = none) :
    ChangesOnly allowed before (disk.set location .directory) := by
  have inside : location ≠ [] := by
    rintro rfl
    cases free
  have nothing : disk.content? location = none := by
    unfold content?
    rw [free]
    rfl
  have more : MoreDirectories disk (disk.set location .directory) := by
    refine ⟨rfl, fun other there => ?_⟩
    rw [get?_set disk _ inside]
    split
    · rfl
    · exact there
  have same : ∀ other, (disk.set location .directory).content? other = disk.content? other := by
    intro other
    rw [content?_set inside]
    split
    · rename_i here
      rw [here, nothing]
      rfl
    · rfl
  refine ⟨changes.more.trans more, fun other there => ?_, fun other => ?_⟩
  · rw [same]
    exact changes.kept other there
  · rw [same]
    exact (changes.unchanged other).imp_right fun ⟨path, isAllowed, there⟩ =>
      ⟨path, isAllowed, more.locate_eq_ok there⟩

theorem plain_of_write_eq_ok {content : ByteArray} (written : disk.write path content = .ok after) :
    insistsOnDirectory path = false := by
  cases plain : insistsOnDirectory path with
  | false => rfl
  | true =>
    unfold write writable at written
    rw [if_pos plain] at written
    cases located : disk.locateParent path <;> rw [located] at written <;> cases written

/-- A file is written where its path leads, if it is written at all. -/
theorem exists_of_write_eq_ok {content : ByteArray}
    (written : disk.write path content = .ok after) :
    ∃ location, disk.locate path = .ok location ∧ disk.get? location ≠ some .directory ∧
      after = disk.set location (.file content) :=
  (write_eq_ok_iff (plain_of_write_eq_ok written)).mp written

theorem exists_of_createDirectory_eq_ok (created : disk.createDirectory path = .ok after) :
    ∃ location, disk.locate path = .ok location ∧ disk.get? location = none ∧
      after = disk.set location .directory := by
  unfold createDirectory at created
  cases located : disk.locate path with
  | error cause => simp [located, bind, Except.bind] at created
  | ok location =>
    cases found : disk.get? location with
    | none =>
      simp only [located, found, bind, Except.bind, Except.ok.injEq] at created
      exact ⟨location, rfl, found, created.symm⟩
    | some node => simp [located, found, bind, Except.bind] at created

end Disk

/-! ### Programs that write at some paths -/

/-- Whether a request changes no files, or writes a file at one of certain paths. -/
def Request.WritesAt (allowed : String → Prop) : Request → Prop
  | write path _ => allowed path
  | createDirectory _ => True
  | request => request.KeepsFiles

theorem Request.KeepsFiles.writesAt {request : Request} (keeps : request.KeepsFiles) :
    request.WritesAt allowed := by
  cases request <;> first | exact keeps | exact keeps.elim

theorem Request.WritesAt.mono {request : Request} {other : String → Prop}
    (writesAt : request.WritesAt allowed) (weaker : ∀ path, allowed path → other path) :
    request.WritesAt other := by
  cases request <;> first | exact weaker _ writesAt | exact writesAt

theorem World.changesOnly_answer {world : World} {request : Request}
    (writesAt : request.WritesAt allowed) (changes : before.ChangesOnly allowed world.disk) :
    before.ChangesOnly allowed (world.answer request).2.disk := by
  cases request with
  | write path content =>
    show before.ChangesOnly allowed (world.withDisk _).2.disk
    cases written : world.disk.write path content.toUTF8 with
    | error cause => exact changes
    | ok disk =>
      obtain ⟨location, located, noDirectory, rfl⟩ := Disk.exists_of_write_eq_ok written
      exact changes.setFile writesAt located noDirectory _
  | createDirectory path =>
    show before.ChangesOnly allowed (world.withDisk _).2.disk
    cases created : world.disk.createDirectory path with
    | error cause => exact changes
    | ok disk =>
      obtain ⟨location, -, free, rfl⟩ := Disk.exists_of_createDirectory_eq_ok created
      exact changes.setDirectory free
  | append | removeFile | rename => exact writesAt.elim
  | read | inspect | print | note | time | ticks => exact changes

/-- However things go, a program changes no files but those that it may write. -/
theorem Program.Asks.changesOnly {α : Type} {program : Program α} {fates : List Fate}
    {world after : World} {ended : Option α} (asks : program.Asks (Request.WritesAt allowed))
    (attempted : program.attempt fates world = (ended, after)) :
    world.disk.ChangesOnly allowed after.disk :=
  asks.attempt_keeps (fun between => world.disk.ChangesOnly allowed between.disk)
    (fun _ _ writesAt changes => World.changesOnly_answer writesAt changes) (.refl _ _) attempted

theorem Program.Asks.changesOnly_run {α : Type} {program : Program α}
    (asks : program.Asks (Request.WritesAt allowed)) (world : World) :
    world.disk.ChangesOnly allowed (program.run world).2.disk := by
  obtain ⟨fates, attempted⟩ := program.exists_attempt_eq_run world
  exact asks.changesOnly attempted

/-! ### Programs side by side -/

namespace Program

variable {α : Type} {names : List String} {programs later : String → Program α}
  {world after : World}

/-- Whether programs, one for each of some names, can have got from one point to another side by
side. At each step any program that is not done makes one request, whatever its fate; none of them
needs to come to its end. -/
inductive Advance (names : List String) :
    (String → Program α) → World → (String → Program α) → World → Prop
  | stay (programs : String → Program α) (world : World) :
    Advance names programs world programs world
  | step {programs later : String → Program α} {world after : World} {name : String}
      {request : Request} {next : request.Reply → Program α} (fate : Fate) :
    name ∈ names → programs name = .ask request next →
    Advance names (replace programs name (next (world.respond fate request).1))
      (world.respond fate request).2 later after →
    Advance names programs world later after

/-- Programs side by side change no files but those that one of them may write. -/
theorem Advance.changesOnly (advance : Advance names programs world later after)
    (asks : ∀ name ∈ names, (programs name).Asks (Request.WritesAt allowed))
    (changes : before.ChangesOnly allowed world.disk) :
    before.ChangesOnly allowed after.disk := by
  induction advance with
  | stay => exact changes
  | @step programs later world after name request next fate member isAsking _
      inductionHypothesis =>
    have nameAsks := asks name member
    rw [isAsking] at nameAsks
    cases nameAsks with
    | ask writesAt nextAsks =>
      refine inductionHypothesis (fun other otherMember => ?_) ?_
      · by_cases same : other = name
        · rw [same, replace_same]
          exact nextAsks _
        · rw [replace_of_ne same]
          exact asks other otherMember
      · obtain asAnswered | unchanged := world.respond_world fate request
        · rw [asAnswered]
          exact World.changesOnly_answer writesAt changes
        · rw [unchanged]
          exact changes

end Program

end FilterLists
