/-
This file shows what operations on a disk depend on and what they leave as it was. Where a path
leads is decided by the directories alone, so writing files moves nothing: each path leads
where it led before. And a write changes what lies at one location.
-/

import FilterLists.Files.Disk
import FilterLists.Proofs.Files.Path

namespace FilterLists.Disk

variable {disk before after : Disk} {location reached place : Location} {path : String}

/-! ### Walking -/

theorem walk_append (disk : Disk) (location : Location) (front back : List (List Char)) :
    disk.walk location (front ++ back) =
      disk.walk location front >>= fun reached => disk.walk reached back := by
  induction front generalizing location with
  | nil => rfl
  | cons name rest inductionHypothesis =>
    simp only [List.cons_append, walk]
    cases disk.get? location with
    | none => rfl
    | some node =>
      cases node with
      | file content => rfl
      | directory =>
        dsimp only
        split
        · rfl
        · exact inductionHypothesis _

theorem walk_append_eq_ok {front back : List (List Char)}
    (walked : disk.walk location (front ++ back) = .ok reached) :
    ∃ between, disk.walk location front = .ok between ∧ disk.walk between back = .ok reached := by
  rw [walk_append] at walked
  cases first : disk.walk location front with
  | error cause =>
    rw [first] at walked
    cases walked
  | ok between =>
    rw [first] at walked
    exact ⟨between, rfl, walked⟩

/-- Only from a directory does a name lead on. -/
theorem get?_of_walk_cons {name : List Char} {rest : List (List Char)}
    (walked : disk.walk location (name :: rest) = .ok reached) :
    disk.get? location = some .directory ∧
      disk.walk (step location name) rest = .ok reached := by
  rw [walk] at walked
  cases found : disk.get? location with
  | none => simp [found] at walked
  | some node =>
    cases node with
    | file content => simp [found] at walked
    | directory =>
      simp only [found] at walked
      split at walked
      · cases walked
      · exact ⟨rfl, walked⟩

theorem walk_singleton (isDirectory : disk.get? location = some .directory) (name : List Char) :
    disk.walk location [name] =
      if maximumNameSize < (String.ofList name).utf8ByteSize then .error .nameTooLong
      else .ok (step location name) := by
  rw [walk, isDirectory]
  rfl

theorem walk_of_walkFor {names : List (List Char)}
    (walked : disk.walkFor path names = .ok reached) :
    '\x00' ∉ path.toList ∧ path.utf8ByteSize ≤ maximumPathSize ∧
      disk.walk (if Path.isAbsolute path.toList then [] else disk.home) names = .ok reached := by
  unfold walkFor at walked
  split at walked
  · cases walked
  · split at walked
    · cases walked
    · split at walked
      · cases walked
      next clean _ short =>
        exact ⟨by simpa using clean, by omega, walked⟩

/-! ### Directories on the way -/

/-- Whether a path leads to a directory. -/
def IsDirectory (disk : Disk) (path : String) : Prop :=
  ∃ location, disk.locate path = .ok location ∧ disk.get? location = some .directory

theorem IsDirectory.inspect_eq (isDirectory : disk.IsDirectory path) :
    disk.inspect path = .ok { isDirectory := true, size := directorySize } := by
  obtain ⟨location, located, found⟩ := isDirectory
  unfold inspect
  simp [located, found, bind, Except.bind]

theorem IsDirectory.createDirectory_eq (isDirectory : disk.IsDirectory path) :
    disk.createDirectory path = .error .alreadyExists := by
  obtain ⟨location, located, found⟩ := isDirectory
  unfold createDirectory
  simp [located, found, bind, Except.bind]

/-- What stands before a slash of a path leads to a directory, if the path leads anywhere and goes
on behind the slash. -/
theorem isDirectory_of_locate {directory : String} {back : List Char}
    (located : disk.locate path = .ok reached) (nonempty : directory.toList ≠ [])
    (split : path.toList = directory.toList ++ '/' :: back)
    (leadsOn : Path.names back ≠ []) : disk.IsDirectory directory := by
  obtain ⟨clean, short, walked⟩ := walk_of_walkFor located
  have longer : path = directory ++ String.ofList ('/' :: back) := by
    apply String.toList_injective
    rw [split, String.toList_append, String.toList_ofList]
  have sameKind : Path.isAbsolute path.toList = Path.isAbsolute directory.toList := by
    rw [split, Path.isAbsolute_append_of_ne_nil nonempty]
  rw [split, Path.names_append_cons, ← split] at walked
  obtain ⟨between, walkedFront, walkedBack⟩ := walk_append_eq_ok walked
  refine ⟨between, ?_, ?_⟩
  · have cleanFront : '\x00' ∉ directory.toList := by
      intro present
      exact clean (split ▸ List.mem_append_left _ present)
    have named : directory.isEmpty = false := by
      rw [← Bool.not_eq_true, String.isEmpty_iff]
      rintro rfl
      exact nonempty rfl
    have shortFront : ¬maximumPathSize < directory.utf8ByteSize := by
      rw [longer, String.utf8ByteSize_append] at short
      omega
    unfold locate walkFor
    rw [if_neg (by simp [cleanFront]), if_neg (by simp [named]), if_neg shortFront, ← sameKind]
    exact walkedFront
  · obtain ⟨name, rest, names⟩ := List.exists_cons_of_ne_nil leadsOn
    rw [names] at walkedBack
    exact (get?_of_walk_cons walkedBack).1

/-- Paths that only differ in how their last name ends lead through the same directories. -/
theorem isDirectory_of_mem_ancestors {base ending other directory : String}
    (located : disk.locate (base ++ other) = .ok reached) (isOther : Path.IsEnding other)
    (isEnding : Path.IsEnding ending) (member : directory ∈ Path.ancestors (base ++ ending)) :
    disk.IsDirectory directory := by
  obtain ⟨nonempty, back, split, -⟩ := Path.exists_append_of_mem_ancestors member
  rw [String.toList_append] at split
  -- The slash does not stand in the ending, so it stands in what both paths start with.
  obtain ⟨middle, -, ends⟩ | ⟨middle, starts, ends⟩ := List.append_eq_append_iff.mp split
  · exact absurd (ends ▸ by simp) isEnding.slash_not_mem
  · cases middle with
    | nil =>
      rw [List.nil_append] at ends
      exact absurd (ends ▸ List.mem_cons_self) isEnding.slash_not_mem
    | cons character between =>
      obtain ⟨rfl, -⟩ := List.cons.inj ends
      obtain ⟨front, last, names⟩ := Path.exists_names_append (.ofList between)
      have splitOther : (base ++ other).toList =
          directory.toList ++ '/' :: (String.ofList between ++ other).toList := by
        rw [String.toList_append, starts, String.toList_append, String.toList_ofList]
        simp
      refine isDirectory_of_locate located nonempty splitOther ?_
      rw [names other isOther]
      simp

/-! ### Files side by side -/

/-- Paths that only differ in how their last name ends lead to files in one directory. -/
theorem exists_location_append (disk : Disk) (base : String) :
    ∃ parent last, ∀ ending location, Path.IsEnding ending →
      disk.locate (base ++ ending) = .ok location → location = parent ++ [last ++ ending] := by
  obtain ⟨front, last, names⟩ := Path.exists_names_append base
  have walks : ∀ ending location, Path.IsEnding ending →
      disk.locate (base ++ ending) = .ok location →
      ∃ parent, disk.walk (if Path.isAbsolute base.toList then [] else disk.home) front =
          .ok parent ∧ location = parent ++ [.ofList last ++ ending] := by
    intro ending location isEnding located
    obtain ⟨-, -, walked⟩ := walk_of_walkFor located
    rw [names ending isEnding, String.toList_append,
      Path.isAbsolute_append _ isEnding.isRelative] at walked
    obtain ⟨parent, walkedFront, walkedLast⟩ := walk_append_eq_ok walked
    refine ⟨parent, walkedFront, ?_⟩
    obtain ⟨-, arrived⟩ := get?_of_walk_cons walkedLast
    obtain ⟨neDot, neDots⟩ := isEnding.append_ne_dots last
    rw [walk, step, if_neg neDot, if_neg neDots] at arrived
    rw [← Except.ok.inj arrived, String.ofList_append, String.ofList_toList]
  cases onWay : disk.walk (if Path.isAbsolute base.toList then [] else disk.home) front with
  | error cause =>
    refine ⟨[], "", fun ending location isEnding located => ?_⟩
    obtain ⟨parent, walked, -⟩ := walks ending location isEnding located
    rw [onWay] at walked
    cases walked
  | ok parent =>
    refine ⟨parent, .ofList last, fun ending location isEnding located => ?_⟩
    obtain ⟨other, walked, arrived⟩ := walks ending location isEnding located
    rw [onWay] at walked
    rw [arrived, Except.ok.inj walked]

/-- Whether two paths lead to the same place. -/
def SamePlace (disk : Disk) (path other : String) : Prop :=
  ∃ location, disk.locate path = .ok location ∧ disk.locate other = .ok location

/-- In a directory, different names do not lead to the same place. -/
theorem eq_of_samePlace_join {directory name other : String} (isName : Path.IsEnding name)
    (isOther : Path.IsEnding other)
    (same : disk.SamePlace (Path.join directory name) (Path.join directory other)) :
    name = other := by
  obtain ⟨location, here, there⟩ := same
  obtain ⟨base, joined⟩ := Path.exists_join_eq_append directory
  rw [joined _ isName.isRelative] at here
  rw [joined _ isOther.isRelative] at there
  obtain ⟨parent, last, places⟩ := disk.exists_location_append base
  have lasts := (places _ _ isName here).symm.trans (places _ _ isOther there)
  exact (String.append_right_inj last).mp (List.singleton_inj.mp (List.append_cancel_left lasts))

/-- A name may lead back, but never to where it leads with an ending. -/
theorem step_ne_append {ending : String} (isEnding : Path.IsEnding ending) (location : Location)
    (name : List Char) : step location name ≠ location ++ [.ofList (name ++ ending.toList)] := by
  intro same
  unfold step at same
  split at same
  · simp at same
  · split at same
    · have lengths := congrArg List.length same
      simp only [List.length_dropLast, List.length_append, List.length_singleton] at lengths
      omega
    · have names := List.singleton_inj.mp (List.append_cancel_left same)
      have lengths := congrArg List.length (String.ofList_injective names)
      have long := isEnding.long
      simp only [List.length_append] at lengths
      omega

/-- A path with more at its end leads somewhere else than the path. -/
theorem ne_location_append {base ending : String} {other : Location}
    (isEnding : Path.IsEnding ending) (located : disk.locate base = .ok location)
    (locatedOther : disk.locate (base ++ ending) = .ok other) : location ≠ other := by
  obtain ⟨front, last, names, namesOther⟩ := Path.exists_names base
  obtain ⟨-, -, walked⟩ := walk_of_walkFor located
  obtain ⟨-, -, walkedOther⟩ := walk_of_walkFor locatedOther
  rw [names] at walked
  rw [namesOther ending isEnding, String.toList_append,
    Path.isAbsolute_append _ isEnding.isRelative] at walkedOther
  obtain ⟨parent, walkedFront, walkedLast⟩ := walk_append_eq_ok walkedOther
  obtain ⟨between, walkedBefore, walkedName⟩ := walk_append_eq_ok walked
  obtain rfl : between = parent := Except.ok.inj (walkedBefore.symm.trans walkedFront)
  obtain ⟨neDot, neDots⟩ := isEnding.append_ne_dots last
  obtain ⟨-, arrived⟩ := get?_of_walk_cons walkedLast
  rw [walk, step, if_neg neDot, if_neg neDots, Except.ok.injEq] at arrived
  rw [← arrived]
  cases last with
  | nil =>
    -- The path ends with a slash, so it leads to the directory that the ending is a name in.
    obtain rfl : between = location := Except.ok.inj walkedName
    simp
  | cons character rest =>
    obtain ⟨-, arrivedName⟩ := get?_of_walk_cons walkedName
    obtain rfl : step between (character :: rest) = location := Except.ok.inj arrivedName
    exact step_ne_append isEnding between (character :: rest)

/-! ### Changes that leave directories alone -/

/-- Whether a disk has all the directories that another has. -/
structure MoreDirectories (before after : Disk) : Prop where
  home : after.home = before.home
  directory : ∀ location,
    before.get? location = some .directory → after.get? location = some .directory

theorem MoreDirectories.walk_eq_ok (more : MoreDirectories before after)
    {names : List (List Char)} (walked : before.walk location names = .ok reached) :
    after.walk location names = .ok reached := by
  induction names generalizing location with
  | nil => exact walked
  | cons name rest inductionHypothesis =>
    have isDirectory := more.directory location (get?_of_walk_cons walked).1
    rw [walk, (get?_of_walk_cons walked).1] at walked
    rw [walk, isDirectory]
    dsimp only at walked ⊢
    split at walked
    · cases walked
    · rw [if_neg ‹_›]
      exact inductionHypothesis walked

/-- A path that leads somewhere leads there still when there are more directories. -/
theorem MoreDirectories.locate_eq_ok (more : MoreDirectories before after)
    (located : before.locate path = .ok location) : after.locate path = .ok location := by
  unfold locate walkFor at located ⊢
  split at located
  · cases located
  · split at located
    · cases located
    · split at located
      · cases located
      · rw [if_neg ‹_›, if_neg ‹_›, if_neg ‹_›, more.home]
        exact more.walk_eq_ok located

/-- Whether two disks have the same directories. -/
structure SameDirectories (before after : Disk) : Prop where
  home : after.home = before.home
  directory_iff : ∀ location,
    after.get? location = some .directory ↔ before.get? location = some .directory

theorem SameDirectories.refl (disk : Disk) : SameDirectories disk disk :=
  ⟨rfl, fun _ => Iff.rfl⟩

theorem SameDirectories.trans {first second third : Disk} (early : SameDirectories first second)
    (late : SameDirectories second third) : SameDirectories first third :=
  ⟨late.home.trans early.home,
    fun location => (late.directory_iff location).trans (early.directory_iff location)⟩

theorem SameDirectories.symm (same : SameDirectories before after) :
    SameDirectories after before :=
  ⟨same.home.symm, fun location => (same.directory_iff location).symm⟩

theorem SameDirectories.moreDirectories (same : SameDirectories before after) :
    MoreDirectories before after :=
  ⟨same.home, fun location => (same.directory_iff location).mpr⟩

theorem SameDirectories.walk_eq_ok (same : SameDirectories before after)
    {names : List (List Char)} (walked : before.walk location names = .ok reached) :
    after.walk location names = .ok reached :=
  same.moreDirectories.walk_eq_ok walked

theorem SameDirectories.locate_eq_ok (same : SameDirectories before after) :
    after.locate path = .ok location ↔ before.locate path = .ok location :=
  ⟨same.symm.moreDirectories.locate_eq_ok, same.moreDirectories.locate_eq_ok⟩

theorem IsDirectory.of_same (isDirectory : before.IsDirectory path)
    (same : SameDirectories before after) : after.IsDirectory path := by
  obtain ⟨location, located, found⟩ := isDirectory
  exact ⟨location, same.locate_eq_ok.mpr located, (same.directory_iff location).mpr found⟩

/-- Beside a file that can be reached, paths lead to the same place as long as the directories stay
as they are, and fail for the same cause. -/
theorem SameDirectories.locate_eq (same : SameDirectories before after)
    {base ending other : String} (isEnding : Path.IsEnding ending) (isOther : Path.IsEnding other)
    (located : before.locate (base ++ other) = .ok reached) :
    after.locate (base ++ ending) = before.locate (base ++ ending) := by
  obtain ⟨front, last, names⟩ := Path.exists_names_append base
  obtain ⟨-, -, walked⟩ := walk_of_walkFor located
  rw [names other isOther, String.toList_append,
    Path.isAbsolute_append _ isOther.isRelative] at walked
  obtain ⟨parent, walkedFront, walkedLast⟩ := walk_append_eq_ok walked
  have isDirectory := (get?_of_walk_cons walkedLast).1
  have walks : ∀ disk : Disk, SameDirectories before disk →
      disk.walk (if Path.isAbsolute (base ++ ending).toList then [] else disk.home)
          (front ++ [last ++ ending.toList]) =
        before.walk parent [last ++ ending.toList] := by
    intro disk sameAsBefore
    rw [String.toList_append, Path.isAbsolute_append _ isEnding.isRelative, sameAsBefore.home,
      walk_append, sameAsBefore.walk_eq_ok walkedFront]
    show disk.walk parent _ = _
    rw [walk_singleton isDirectory,
      walk_singleton ((sameAsBefore.directory_iff parent).mpr isDirectory)]
  unfold locate walkFor
  rw [names ending isEnding, walks after same, walks before (.refl before)]

/-! ### Reading and writing -/

theorem insistsOnDirectory_append (base : String) {ending : String}
    (isEnding : Path.IsEnding ending) : insistsOnDirectory (base ++ ending) = false := by
  unfold insistsOnDirectory
  rw [String.toList_append, List.getLast?_append, beq_eq_false_iff_ne]
  cases last : ending.toList.getLast? with
  | none =>
    have long := isEnding.long
    rw [List.getLast?_eq_none_iff.mp last] at long
    simp at long
  | some character =>
    intro slash
    rw [Option.some_or, Option.some.injEq] at slash
    exact isEnding.slash_not_mem (slash ▸ List.mem_of_getLast? last)

/-- Whether anything lies where a path leads. -/
def IsPresent (disk : Disk) (path : String) : Prop :=
  ∃ status, disk.inspect path = .ok status

theorem not_isPresent {cause : Cause} (missing : disk.inspect path = .error cause) :
    ¬disk.IsPresent path := by
  rintro ⟨status, found⟩
  rw [missing] at found
  cases found

variable (plain : insistsOnDirectory path = false)

include plain

theorem isPresent_iff :
    disk.IsPresent path ↔
      ∃ location, disk.locate path = .ok location ∧ disk.get? location ≠ none := by
  unfold IsPresent inspect
  cases disk.locate path with
  | error cause => simp [bind, Except.bind]
  | ok location =>
    cases found : disk.get? location with
    | none => simp [bind, Except.bind, found]
    | some node => cases node <;> simp [bind, Except.bind, found, plain]

theorem read_eq_ok_iff {content : ByteArray} :
    disk.read path = .ok content ↔
      ∃ location, disk.locate path = .ok location ∧
        disk.get? location = some (.file content) := by
  unfold read
  cases disk.locate path with
  | error cause => simp [bind, Except.bind]
  | ok location =>
    cases found : disk.get? location with
    | none => simp [bind, Except.bind, found]
    | some node => cases node <;> simp [bind, Except.bind, found, plain]

theorem write_eq_ok_iff {content : ByteArray} :
    disk.write path content = .ok after ↔
      ∃ location, disk.locate path = .ok location ∧
        disk.get? location ≠ some .directory ∧ after = disk.set location (.file content) := by
  unfold write writable
  cases disk.locate path with
  | error cause => simp [bind, Except.bind, plain]
  | ok location =>
    cases found : disk.get? location with
    | none => simp [bind, Except.bind, pure, Except.pure, found, plain, eq_comm]
    | some node =>
      cases node <;> simp [bind, Except.bind, pure, Except.pure, found, plain, eq_comm]

omit plain

/-! ### What a written file changes -/

theorem ne_nil_of_get?_ne (noDirectory : disk.get? location ≠ some .directory) :
    location ≠ [] := by
  rintro rfl
  exact noDirectory rfl

theorem sameDirectories_set (noDirectory : disk.get? location ≠ some .directory)
    (content : ByteArray) : SameDirectories disk (disk.set location (.file content)) := by
  refine ⟨rfl, fun other => ?_⟩
  rw [get?_set disk _ (ne_nil_of_get?_ne noDirectory)]
  by_cases same : other = location
  · rw [if_pos same, same]
    exact ⟨fun isDirectory => by simp at isDirectory, fun found => absurd found noDirectory⟩
  · rw [if_neg same]

/-- What lay at a location is gone, and nothing else has changed. -/
theorem get?_erase (disk : Disk) {location : Location} (inside : location ≠ [])
    (other : Location) :
    (disk.erase location).get? other = if other = location then none else disk.get? other := by
  unfold get? erase
  by_cases same : other = location
  · subst same
    rw [if_neg inside, if_pos rfl, List.lookup_eq_none_iff]
    intro entry kept
    have elsewhere : entry.1 ≠ other := by simpa using (List.mem_filter.mp kept).2
    exact bne_iff_ne.mpr elsewhere.symm
  · rw [if_neg same, lookup_filter _ same]

theorem sameDirectories_erase (noDirectory : disk.get? location ≠ some .directory) :
    SameDirectories disk (disk.erase location) := by
  refine ⟨rfl, fun other => ?_⟩
  rw [get?_erase disk (ne_nil_of_get?_ne noDirectory)]
  by_cases same : other = location
  · rw [if_pos same, same]
    exact ⟨fun isDirectory => by simp at isDirectory, fun found => absurd found noDirectory⟩
  · rw [if_neg same]

/-! ### Places that are the same on two disks -/

variable {first second : Disk}

/-- Whether a path leads to the same place on two disks, and the same lies there. -/
structure SameAt (first second : Disk) (path : String) : Prop where
  located : first.locate path = second.locate path
  found : ∀ location, first.locate path = .ok location →
    first.get? location = second.get? location

theorem SameAt.inspect_eq (same : SameAt first second path) :
    first.inspect path = second.inspect path := by
  unfold inspect
  rw [← same.located]
  cases located : first.locate path with
  | error cause => rfl
  | ok location =>
    have found := same.found location located
    simp only [bind, Except.bind, found]

theorem SameAt.read_eq (same : SameAt first second path) : first.read path = second.read path := by
  unfold read
  rw [← same.located]
  cases located : first.locate path with
  | error cause => rfl
  | ok location =>
    have found := same.found location located
    simp only [bind, Except.bind, found]

theorem SameAt.writable_eq (same : SameAt first second path)
    (plain : insistsOnDirectory path = false) : first.writable path = second.writable path := by
  unfold writable
  rw [← same.located]
  cases located : first.locate path with
  | error cause => simp only [plain, Bool.false_eq_true, if_false, bind, Except.bind]
  | ok location =>
    have found := same.found location located
    simp only [bind, Except.bind, found, plain, Bool.false_eq_true, if_false]

/-- Writing a file at a path that is the same on two disks fails on both for the same cause, or
puts the file at the same location of both. -/
theorem SameAt.write_cases (same : SameAt first second path)
    (plain : insistsOnDirectory path = false) (content : ByteArray) :
    (∃ cause, first.write path content = .error cause ∧
      second.write path content = .error cause) ∨
    ∃ location, first.locate path = .ok location ∧ first.get? location ≠ some .directory ∧
      first.write path content = .ok (first.set location (.file content)) ∧
      second.write path content = .ok (second.set location (.file content)) := by
  cases written : first.write path content with
  | ok after =>
    obtain ⟨location, here, noDirectory, rfl⟩ := (write_eq_ok_iff plain).mp written
    refine .inr ⟨location, here, noDirectory, rfl, ?_⟩
    refine (write_eq_ok_iff plain).mpr ⟨location, same.located ▸ here, ?_, rfl⟩
    rw [← same.found location here]
    exact noDirectory
  | error cause =>
    refine .inl ⟨cause, rfl, ?_⟩
    unfold write at written ⊢
    rw [← same.writable_eq plain]
    cases canWrite : first.writable path with
    | error other =>
      rw [canWrite] at written
      exact congrArg Except.error (Except.error.inj written)
    | ok place =>
      rw [canWrite] at written
      cases written

end FilterLists.Disk
