/-
This file says what the jobs that read and write files come to in a world. Such a job ends with a
value or with a failure, and leaves a world behind. Where the directories on the way to a file are
there, saving the file writes it and does nothing else.
-/

import FilterLists.Files.Access
import FilterLists.Program.World
import FilterLists.Proofs.Files.Disk

namespace FilterLists

variable {α β : Type} {world after : World} {failure : Failure} {value : α} {path : String}

/-! ### Jobs in a world -/

namespace Job

/-- How a job ends in a world, and the world after it. -/
def runIn (job : Job α) (world : World) : Except Failure α × World :=
  Program.run (ExceptT.run job) world

theorem runIn_pure (value : α) (world : World) :
    (pure value : Job α).runIn world = (.ok value, world) := rfl

theorem eq_of_runIn_pure {result : α}
    (ended : (pure value : Job α).runIn world = (.ok result, after)) :
    result = value ∧ after = world := by
  rw [runIn_pure, Prod.mk.injEq, Except.ok.injEq] at ended
  exact ⟨ended.1.symm, ended.2.symm⟩

theorem runIn_lift (program : Program α) (world : World) :
    runIn (ExceptT.lift program) world = (.ok (program.run world).1, (program.run world).2) := by
  show (Except.ok <$> program).run world = _
  rw [← bind_pure_comp, Program.run_bind, Program.run_pure]

theorem runIn_bind_of_ok {job : Job α} (ended : job.runIn world = (.ok value, after))
    (next : α → Job β) : (job >>= next).runIn world = (next value).runIn after := by
  show ((ExceptT.run job) >>= ExceptT.bindCont next).run world = _
  rw [Program.run_bind, show (ExceptT.run job).run world = _ from ended]
  rfl

theorem runIn_bind_of_error {job : Job α} (ended : job.runIn world = (.error failure, after))
    (next : α → Job β) : (job >>= next).runIn world = (.error failure, after) := by
  show ((ExceptT.run job) >>= ExceptT.bindCont next).run world = _
  rw [Program.run_bind, show (ExceptT.run job).run world = _ from ended]
  rfl

/-- A job of two parts that ends with a value has ended both parts with one. -/
theorem exists_of_runIn_bind {job : Job α} {next : α → Job β} {result : β}
    (ended : (job >>= next).runIn world = (.ok result, after)) :
    ∃ value between, job.runIn world = (.ok value, between) ∧
      (next value).runIn between = (.ok result, after) := by
  cases first : job.runIn world with
  | mk outcome between =>
    cases outcome with
    | error failure =>
      rw [runIn_bind_of_error first] at ended
      cases ended
    | ok value =>
      rw [runIn_bind_of_ok first] at ended
      exact ⟨value, between, rfl, ended⟩

theorem exists_of_isSome {job : Job α}
    (isSome : (job.runIn world).1.toOption.isSome = true) :
    ∃ value after, job.runIn world = (.ok value, after) := by
  cases ran : job.runIn world with
  | mk outcome after =>
    cases outcome with
    | error failure =>
      rw [ran] at isSome
      cases isSome
    | ok value => exact ⟨value, after, rfl⟩

theorem runIn_bind_lift (program : Program α) (next : α → Job β) (world : World) :
    runIn (ExceptT.lift program >>= next) world =
      (next (program.run world).1).runIn (program.run world).2 :=
  runIn_bind_of_ok (runIn_lift program world) next

theorem run_noteAll (entries : List Journal.Entry) (world : World) :
    (Program.noteAll entries).run world =
      ((), { world with journal := world.journal ++ entries }) := by
  unfold Program.noteAll
  induction entries generalizing world with
  | nil => simp
  | cons entry rest inductionHypothesis =>
    show (Program.request (.note entry) >>= fun _ => Program.noteAll rest).run world = _
    rw [Program.run_bind, Program.run_request]
    show (Program.noteAll rest).run { world with journal := world.journal ++ [entry] } = _
    unfold Program.noteAll
    rw [inductionHypothesis, List.append_assoc]
    rfl

theorem runIn_noteAll (entries : List Journal.Entry) (world : World) :
    (noteAll entries).runIn world =
      (.ok (), { world with journal := world.journal ++ entries }) := by
  unfold noteAll
  rw [runIn_lift, run_noteAll]

end Job

/-! ### Files -/

theorem World.decode_toUTF8 (text : String) : decode text.toUTF8 = .ok text := by
  have decoded : String.fromUTF8? text.toUTF8 = some text := dif_pos text.isValidUTF8
  unfold decode
  rw [decoded]

/-- Whether a path leads to a file with a text. -/
def Disk.HoldsText (disk : Disk) (path text : String) : Prop :=
  (disk.read path >>= World.decode) = .ok text

theorem Disk.get?_of_holdsText {disk : Disk} {text : String}
    (plain : insistsOnDirectory path = false) (holds : disk.HoldsText path text) :
    ∃ location content, disk.locate path = .ok location ∧
      disk.get? location = some (.file content) ∧ World.decode content = .ok text := by
  unfold HoldsText at holds
  cases isRead : disk.read path with
  | error cause =>
    rw [isRead] at holds
    cases holds
  | ok content =>
    rw [isRead] at holds
    obtain ⟨location, located, found⟩ := (read_eq_ok_iff plain).mp isRead
    exact ⟨location, content, located, found, holds⟩

theorem Disk.holdsText_of_get? {disk : Disk} {location : Location} {text : String}
    (plain : insistsOnDirectory path = false) (located : disk.locate path = .ok location)
    (found : disk.get? location = some (.file text.toUTF8)) : disk.HoldsText path text := by
  have isRead := (read_eq_ok_iff plain).mpr ⟨location, located, found⟩
  unfold HoldsText
  rw [isRead]
  exact World.decode_toUTF8 text

theorem Disk.HoldsText.isPresent {disk : Disk} {text : String}
    (plain : insistsOnDirectory path = false) (holds : disk.HoldsText path text) :
    disk.IsPresent path := by
  obtain ⟨location, content, located, found, -⟩ := get?_of_holdsText plain holds
  exact (isPresent_iff plain).mpr ⟨location, located, by simp [found]⟩

namespace Files

theorem exists_run_isPresent (path : String) (world : World) :
    ∃ answer, (isPresent path).run world = (answer, world) ∧
      (answer = true ↔ world.disk.IsPresent path) := by
  unfold isPresent Disk.IsPresent
  rw [Program.run_bind, Program.run_request,
    show world.answer (.inspect path) = (world.disk.inspect path, world) from rfl]
  cases world.disk.inspect path with
  | ok status => exact ⟨true, rfl, by simp⟩
  | error cause => exact ⟨false, rfl, by simp⟩

/-- What depends on whether a file is there goes on with the right answer. -/
theorem runIn_bind_isPresent_of_present {next : Bool → Job α} (there : world.disk.IsPresent path) :
    (ExceptT.lift (isPresent path) >>= next : Job α).runIn world = (next true).runIn world := by
  obtain ⟨answer, looked, isPresent⟩ := exists_run_isPresent path world
  rw [Job.runIn_bind_lift, looked, isPresent.mpr there]

theorem runIn_bind_isPresent_of_missing {next : Bool → Job α}
    (missing : ¬world.disk.IsPresent path) :
    (ExceptT.lift (isPresent path) >>= next : Job α).runIn world = (next false).runIn world := by
  obtain ⟨answer, looked, isPresent⟩ := exists_run_isPresent path world
  rw [Job.runIn_bind_lift, looked, Bool.eq_false_iff.mpr fun yes => missing (isPresent.mp yes)]

theorem run_isDirectory (isDirectory : world.disk.IsDirectory path) :
    (Files.isDirectory path).run world = (true, world) := by
  unfold Files.isDirectory
  rw [Program.run_bind, Program.run_request,
    show world.answer (.inspect path) = (world.disk.inspect path, world) from rfl,
    isDirectory.inspect_eq]
  rfl

theorem run_createDirectories {directories : List String}
    (there : ∀ directory ∈ directories, world.disk.IsDirectory directory) :
    (createDirectories directories).run world = (.ok (), world) := by
  cases directories with
  | nil => rfl
  | cons path parents =>
    have isDirectory := there path List.mem_cons_self
    have answered : world.answer (.createDirectory path) = (.error .alreadyExists, world) := by
      show world.withDisk (world.disk.createDirectory path) = _
      rw [isDirectory.createDirectory_eq]
      rfl
    unfold createDirectories
    rw [Program.run_bind, Program.run_request, answered]
    show (createDirectories.settle path (.error .alreadyExists)).run world = _
    unfold createDirectories.settle
    rw [Program.run_bind, run_isDirectory isDirectory]
    rfl

/-- Saving a file in a directory that is there writes it. -/
theorem runIn_save (there : ∀ directory ∈ Path.ancestors path, world.disk.IsDirectory directory)
    (content : String) :
    (save path content).runIn world =
      match world.disk.write path content.toUTF8 with
      | .ok disk => (.ok (), { world with disk })
      | .error cause => (.error (.writing path cause), world) := by
  have saved : (save? path content).run world =
      world.withDisk (world.disk.write path content.toUTF8) := by
    unfold save?
    rw [Program.run_bind, run_createDirectories there]
    rfl
  unfold save
  rw [Job.runIn_bind_lift, saved]
  cases world.disk.write path content.toUTF8 with
  | ok disk => rfl
  | error cause => rfl

theorem write_of_save {content : String}
    (there : ∀ directory ∈ Path.ancestors path, world.disk.IsDirectory directory)
    (saved : (save path content).runIn world = (.ok (), after)) :
    world.disk.write path content.toUTF8 = .ok after.disk := by
  rw [runIn_save there] at saved
  cases written : world.disk.write path content.toUTF8 with
  | error cause =>
    rw [written] at saved
    cases saved
  | ok disk =>
    rw [written] at saved
    cases saved
    rfl

theorem load_eq_ok_iff {text : String} :
    (load path).runIn world = (.ok text, after) ↔
      after = world ∧ world.disk.HoldsText path text := by
  unfold load Job.request Disk.HoldsText
  rw [Job.runIn_bind_lift]
  show (Job.ofExcept (Failure.reading path) (world.disk.read path >>= World.decode)).runIn world =
    _ ↔ _
  cases world.disk.read path >>= World.decode with
  | ok content =>
    show (Except.ok content, world) = (Except.ok text, after) ↔ _
    simp only [Prod.mk.injEq, Except.ok.injEq]
    exact ⟨fun ⟨same, still⟩ => ⟨still.symm, same⟩, fun ⟨still, same⟩ => ⟨same, still.symm⟩⟩
  | error cause =>
    show (Except.error _, world) = (Except.ok text, after) ↔ _
    simp

end Files

end FilterLists
