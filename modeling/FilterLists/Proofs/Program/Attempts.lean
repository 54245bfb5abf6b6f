/-
This file carries programs out where things can go wrong. A change of files may be refused for a
cause that lies outside the files, as when the disk is full, and a program may be broken off before
any of its requests. What happens is given beforehand, as a list with a fate for each request;
where the list ends, the program is broken off. So what is shown for all lists holds however things
go. If nothing is refused and nothing broken off, the program is carried out as usual.

A change that is refused leaves everything as it was. What does not change files is never refused.
-/

import FilterLists.Proofs.Program.Requests

namespace FilterLists

/-! ### Requests that may be refused -/

/-- What happens to a request. Only a change of files can be refused. -/
inductive Fate
  | answered
  | refused (cause : Cause)
  deriving DecidableEq, Repr

/-- Whether a request is not to change files. -/
def Request.KeepsFiles : Request → Prop
  | write _ _ | append _ _ | createDirectory _ | removeFile _ | rename _ _ => False
  | _ => True

variable {α β : Type} {world after : World} {fates : List Fate} {request : Request}

namespace World

/-- The reply to a request under a fate, and the world after it. -/
def respond (world : World) : Fate → (request : Request) → request.Reply × World
  | .refused cause, .write _ _ => (.error cause, world)
  | .refused cause, .append _ _ => (.error cause, world)
  | .refused cause, .createDirectory _ => (.error cause, world)
  | .refused cause, .removeFile _ => (.error cause, world)
  | .refused cause, .rename _ _ => (.error cause, world)
  | _, request => world.answer request

theorem respond_answered (world : World) (request : Request) :
    world.respond .answered request = world.answer request := by
  cases request <;> rfl

theorem respond_eq_answer (keeps : request.KeepsFiles) (world : World)
    (fate : Fate) : world.respond fate request = world.answer request := by
  cases fate with
  | answered => exact respond_answered world request
  | refused cause => cases request <;> first | rfl | exact keeps.elim

theorem disk_answer (keeps : request.KeepsFiles) (world : World) :
    (world.answer request).2.disk = world.disk := by
  cases request <;> first | rfl | exact keeps.elim

/-- Whatever its fate is, a request leaves the world as it was or as the answer leaves it. -/
theorem respond_world (world : World) (fate : Fate) (request : Request) :
    (world.respond fate request).2 = (world.answer request).2 ∨
      (world.respond fate request).2 = world := by
  cases fate with
  | answered => exact .inl (congrArg Prod.snd (respond_answered world request))
  | refused cause => cases request <;> first | exact .inl rfl | exact .inr rfl

end World

/-! ### Programs that may be broken off -/

namespace Program

/-- Carries a program out as the fates of its requests will have it: what it ends with, unless it
is broken off, and the world after it. -/
def attempt : Program α → List Fate → World → Option α × World
  | done value, _, world => (some value, world)
  | ask _ _, [], world => (none, world)
  | ask request next, fate :: fates, world =>
    (next (world.respond fate request).1).attempt fates (world.respond fate request).2

/-- To carry a program out as usual is one way in which things can go. -/
theorem exists_attempt_eq_run (program : Program α) (world : World) :
    ∃ fates, program.attempt fates world = (some (program.run world).1, (program.run world).2) := by
  induction program generalizing world with
  | done value => exact ⟨[], rfl⟩
  | ask request next inductionHypothesis =>
    obtain ⟨fates, ended⟩ :=
      inductionHypothesis (world.answer request).1 (world.answer request).2
    refine ⟨.answered :: fates, ?_⟩
    show (next (world.respond .answered request).1).attempt fates _ = _
    rw [World.respond_answered]
    exact ended

theorem attempt_bind {program : Program α} {next : α → Program β} {ended : Option β}
    (attempted : (program >>= next).attempt fates world = (ended, after)) :
    (ended = none ∧ program.attempt fates world = (none, after)) ∨
      ∃ value left between, program.attempt fates world = (some value, between) ∧
        (next value).attempt left between = (ended, after) := by
  induction program generalizing fates world with
  | done value => exact .inr ⟨value, fates, world, rfl, attempted⟩
  | ask request goOn inductionHypothesis =>
    cases fates with
    | nil =>
      cases attempted
      exact .inl ⟨rfl, rfl⟩
    | cons fate fates => exact inductionHypothesis _ attempted

/-- Whatever is kept by the answers to all that a program asks for is kept however things go. -/
theorem Asks.attempt_keeps {allowed : Request → Prop} {program : Program α} {ended : Option α}
    (asks : program.Asks allowed) (invariant : World → Prop)
    (kept : ∀ request world, allowed request → invariant world →
      invariant (world.answer request).2)
    (start : invariant world) (attempted : program.attempt fates world = (ended, after)) :
    invariant after := by
  induction asks generalizing fates world with
  | done value =>
    cases attempted
    exact start
  | @ask request next isAllowed _ inductionHypothesis =>
    cases fates with
    | nil =>
      cases attempted
      exact start
    | cons fate fates =>
      refine inductionHypothesis _ ?_ attempted
      obtain asAnswered | unchanged := world.respond_world fate request
      · rw [asAnswered]
        exact kept request world isAllowed start
      · rw [unchanged]
        exact start

/-- A program that does not change files ends as usual, unless it is broken off. -/
theorem Asks.attempt_of_keepsFiles {program : Program α} {ended : Option α}
    (asks : program.Asks Request.KeepsFiles)
    (attempted : program.attempt fates world = (ended, after)) :
    after.disk = world.disk ∧ ∀ value, ended = some value → program.run world = (value, after) := by
  refine ⟨?_, fun value ended => ?_⟩
  · exact asks.attempt_keeps (fun later => later.disk = world.disk)
      (fun request between keeps same => (between.disk_answer keeps).trans same) rfl attempted
  · subst ended
    induction asks generalizing fates world with
    | done value =>
      cases attempted
      rfl
    | ask keeps _ inductionHypothesis =>
      cases fates with
      | nil => cases attempted
      | cons fate fates =>
        rw [Program.attempt, World.respond_eq_answer keeps] at attempted
        exact inductionHypothesis _ attempted

theorem Asks.disk_run {program : Program α} (asks : program.Asks Request.KeepsFiles)
    (world : World) : (program.run world).2.disk = world.disk := by
  obtain ⟨fates, attempted⟩ := program.exists_attempt_eq_run world
  exact (asks.attempt_of_keepsFiles attempted).1

end Program

/-! ### Jobs that may be broken off -/

namespace Job

/-- How a job ends as the fates of its requests will have it, unless it is broken off. -/
def attempt (job : Job α) (fates : List Fate) (world : World) :
    Option (Except Failure α) × World :=
  Program.attempt (ExceptT.run job) fates world

variable {job : Job α} {next : α → Job β} {ended : Option (Except Failure β)}

theorem attempt_eq {outcome : Option (Except Failure α)}
    (isOutcome : (job.attempt fates world).1 = outcome) :
    job.attempt fates world = (outcome, (job.attempt fates world).2) :=
  Prod.ext isOutcome rfl

theorem attempt_bind (attempted : (job >>= next).attempt fates world = (ended, after)) :
    (ended = none ∧ job.attempt fates world = (none, after)) ∨
    (∃ failure, ended = some (.error failure) ∧
      job.attempt fates world = (some (.error failure), after)) ∨
    ∃ value left between, job.attempt fates world = (some (.ok value), between) ∧
      (next value).attempt left between = (ended, after) := by
  change (ExceptT.run job >>= ExceptT.bindCont next).attempt fates world = _ at attempted
  obtain brokenOff | ⟨outcome, left, between, first, attemptedNext⟩ :=
    Program.attempt_bind attempted
  · exact .inl brokenOff
  · cases outcome with
    | error failure =>
      cases attemptedNext
      exact .inr (.inl ⟨failure, rfl, first⟩)
    | ok value => exact .inr (.inr ⟨value, left, between, first, attemptedNext⟩)

theorem attempt_bind_lift {program : Program α}
    (attempted : attempt (ExceptT.lift program >>= next) fates world = (ended, after)) :
    (ended = none ∧ program.attempt fates world = (none, after)) ∨
      ∃ value left between, program.attempt fates world = (some value, between) ∧
        (next value).attempt left between = (ended, after) := by
  rw [attempt, ExceptT.run_bind_lift] at attempted
  exact Program.attempt_bind attempted

theorem Asks.disk_of_runIn {outcome : Except Failure α}
    (asks : job.Asks Request.KeepsFiles) (ran : job.runIn world = (outcome, after)) :
    after.disk = world.disk := by
  have same := Program.Asks.disk_run asks world
  rw [← same]
  exact congrArg (fun ended => ended.2.disk) ran.symm

theorem Asks.attempt_of_keepsFiles {ended : Option (Except Failure α)}
    (asks : job.Asks Request.KeepsFiles)
    (attempted : job.attempt fates world = (ended, after)) :
    after.disk = world.disk ∧
      ∀ outcome, ended = some outcome → job.runIn world = (outcome, after) :=
  Program.Asks.attempt_of_keepsFiles asks attempted

/-- A first part that does not change files gives its usual value, unless it is broken off. -/
theorem attempt_bind_of_keepsFiles {value : α}
    (asks : job.Asks Request.KeepsFiles)
    (ran : (job.runIn world).1 = .ok value)
    (attempted : (job >>= next).attempt fates world = (ended, after)) :
    (ended = none ∧ after.disk = world.disk) ∨
      ∃ left between, between.disk = world.disk ∧
        (next value).attempt left between = (ended, after) := by
  obtain ⟨isNone, first⟩ | ⟨failure, -, first⟩ | ⟨other, left, between, first, attemptedNext⟩ :=
    attempt_bind attempted
  · exact .inl ⟨isNone, (asks.attempt_of_keepsFiles first).1⟩
  · rw [(asks.attempt_of_keepsFiles first).2 _ rfl] at ran
    cases ran
  · obtain ⟨unchanged, ends⟩ := asks.attempt_of_keepsFiles first
    rw [ends _ rfl] at ran
    cases ran
    exact .inr ⟨left, between, unchanged, attemptedNext⟩

/-- What is done with the value of a job afterwards cannot be broken off by itself. -/
theorem attempt_bind_pure {change : α → β}
    (attempted : (job >>= fun value => pure (change value)).attempt fates world =
      (ended, after)) :
    ∃ first, job.attempt fates world = (first, after) ∧
      ended = first.map fun outcome => outcome.map change := by
  obtain ⟨rfl, first⟩ | ⟨failure, rfl, first⟩ | ⟨value, left, between, first, returned⟩ :=
    attempt_bind attempted
  · exact ⟨none, first, rfl⟩
  · exact ⟨some (.error failure), first, rfl⟩
  · cases returned
    exact ⟨some (.ok value), first, rfl⟩

theorem attempt_noteAll {entries : List Journal.Entry} {ended : Option (Except Failure Unit)}
    (attempted : (noteAll entries).attempt fates world = (ended, after)) :
    after.disk = world.disk ∧ (ended = none ∨ ended = some (.ok ())) := by
  have asks : (noteAll entries).Asks Request.KeepsFiles :=
    asks_noteAll (fun _ => trivial) entries
  obtain ⟨unchanged, ends⟩ := asks.attempt_of_keepsFiles attempted
  refine ⟨unchanged, ?_⟩
  cases ended with
  | none => exact .inl rfl
  | some outcome =>
    obtain ⟨rfl, -⟩ := Prod.mk.inj ((ends outcome rfl).symm.trans (runIn_noteAll entries world))
    exact .inr rfl

/-- Whether a job fails in no other than certain ways, however things go. -/
def FailsOnly (possible : Failure → Prop) (job : Job α) : Prop :=
  ∀ fates world failure after,
    job.attempt fates world = (some (.error failure), after) → possible failure

variable {possible : Failure → Prop}

theorem failsOnly_pure (value : α) : FailsOnly possible (pure value : Job α) := by
  intro fates world failure after attempted
  cases attempted

theorem failsOnly_throw {failure : Failure} (isPossible : possible failure) :
    FailsOnly possible (throw failure : Job α) := by
  intro fates world other after attempted
  cases attempted
  exact isPossible

theorem FailsOnly.bind (first : job.FailsOnly possible)
    (later : ∀ value, (next value).FailsOnly possible) : (job >>= next).FailsOnly possible := by
  intro fates world failure after attempted
  obtain ⟨ended, -⟩ | ⟨other, ended, ran⟩ | ⟨value, left, between, -, attemptedNext⟩ :=
    attempt_bind attempted
  · cases ended
  · cases ended
    exact first _ _ _ _ ran
  · exact later value _ _ _ _ attemptedNext

theorem failsOnly_lift (program : Program α) : FailsOnly possible (ExceptT.lift program) := by
  intro fates world failure after attempted
  rw [← bind_pure (ExceptT.lift program)] at attempted
  obtain ⟨ended, -⟩ | ⟨value, left, between, -, returned⟩ := attempt_bind_lift attempted
  · cases ended
  · cases returned

theorem failsOnly_ofExcept {ε : Type} {failure : ε → Failure}
    (arePossible : ∀ error, possible (failure error)) (outcome : Except ε α) :
    FailsOnly possible (ofExcept failure outcome) := by
  cases outcome with
  | ok value => exact failsOnly_pure value
  | error error => exact failsOnly_throw (arePossible error)

end Job

/-! ### Files -/

namespace Files

variable {path content : String}

/-- What depends on whether a file is there goes on with the right answer, unless it is broken
off. -/
theorem attempt_bind_isPresent {next : Bool → Job α} {ended : Option (Except Failure α)}
    (attempted : Job.attempt (ExceptT.lift (isPresent path) >>= next) fates world =
      (ended, after)) :
    (ended = none ∧ after.disk = world.disk) ∨
      ∃ answer left between, (answer = true ↔ world.disk.IsPresent path) ∧
        between.disk = world.disk ∧ (next answer).attempt left between = (ended, after) := by
  obtain ⟨answer, looked, isPresent⟩ := exists_run_isPresent path world
  have asks : (Files.isPresent path).Asks Request.KeepsFiles := asks_isPresent trivial
  obtain ⟨isNone, first⟩ | ⟨value, left, between, first, attemptedNext⟩ :=
    Job.attempt_bind_lift attempted
  · exact .inl ⟨isNone, (asks.attempt_of_keepsFiles first).1⟩
  · obtain ⟨unchanged, ends⟩ := asks.attempt_of_keepsFiles first
    obtain ⟨rfl, -⟩ := Prod.mk.inj ((ends value rfl).symm.trans looked)
    exact .inr ⟨value, left, between, isPresent, unchanged, attemptedNext⟩

/-- What saving a file comes to, however things go: it is written just if saving it succeeds. -/
inductive Saves {ε : Type} (path content : String) (before after : Disk) :
    Option (Except ε Unit) → Prop
  | brokenOff : after = before → Saves path content before after none
  | failed (error : ε) : after = before → Saves path content before after (some (.error error))
  | done : before.write path content.toUTF8 = .ok after →
    Saves path content before after (some (.ok ()))

theorem attempt_write {ended : Option (Except Cause Unit)}
    (attempted : (Program.request (.write path content)).attempt fates world = (ended, after)) :
    Saves path content world.disk after.disk ended := by
  cases fates with
  | nil =>
    cases attempted
    exact .brokenOff rfl
  | cons fate left =>
    cases fate with
    | refused cause =>
      cases attempted
      exact .failed cause rfl
    | answered =>
      change (some (world.withDisk _).1, (world.withDisk _).2) = _ at attempted
      cases written : world.disk.write path content.toUTF8 with
      | error cause =>
        rw [written] at attempted
        cases attempted
        exact .failed cause rfl
      | ok disk =>
        rw [written] at attempted
        cases attempted
        exact .done written

section

variable (invariant : World → Prop)
  (asks : (createDirectories (Path.ancestors path)).Asks fun request =>
    ∀ between, invariant between → invariant (between.answer request).2)
  (start : invariant world)

include asks start

theorem exists_saves_of_attempt_save? {ended : Option (Except Cause Unit)}
    (attempted : (save? path content).attempt fates world = (ended, after)) :
    ∃ between, invariant between ∧ Saves path content between.disk after.disk ended := by
  have kept : ∀ {ended : Option (Except Cause Unit)} {between : World},
      (createDirectories (Path.ancestors path)).attempt fates world = (ended, between) →
      invariant between :=
    asks.attempt_keeps invariant (fun _ between isAllowed holds => isAllowed between holds) start
  obtain ⟨rfl, first⟩ | ⟨outcome, left, between, first, attempted⟩ :=
    Program.attempt_bind attempted
  · exact ⟨after, kept first, .brokenOff rfl⟩
  · cases outcome with
    | error cause =>
      cases attempted
      exact ⟨after, kept first, .failed cause rfl⟩
    | ok _ => exact ⟨between, kept first, attempt_write attempted⟩

/-- A file is saved where all holds that is kept while the directories on the way are made. -/
theorem exists_saves_of_attempt {ended : Option (Except Failure Unit)}
    (attempted : (save path content).attempt fates world = (ended, after)) :
    ∃ between, invariant between ∧ Saves path content between.disk after.disk ended := by
  obtain ⟨rfl, first⟩ | ⟨outcome, left, later, first, attempted⟩ :=
    Job.attempt_bind_lift attempted
  · obtain ⟨between, holds, saves⟩ := exists_saves_of_attempt_save? invariant asks start first
    cases saves with
    | brokenOff unchanged => exact ⟨between, holds, .brokenOff unchanged⟩
  · obtain ⟨between, holds, saves⟩ := exists_saves_of_attempt_save? invariant asks start first
    cases saves with
    | failed cause unchanged =>
      cases attempted
      exact ⟨between, holds, .failed _ unchanged⟩
    | done written =>
      cases attempted
      exact ⟨between, holds, .done written⟩

end

/-- Where the directories on the way are there, saving a file does nothing else than to write it. -/
theorem attempt_save {ended : Option (Except Failure Unit)}
    (there : ∀ directory ∈ Path.ancestors path, world.disk.IsDirectory directory)
    (attempted : (save path content).attempt fates world = (ended, after)) :
    Saves path content world.disk after.disk ended := by
  -- The directories are there already, so making them changes nothing, even if it fails.
  have asks : (createDirectories (Path.ancestors path)).Asks fun request =>
      ∀ between : World, between.disk = world.disk →
        (between.answer request).2.disk = world.disk := by
    refine asks_createDirectories fun directory member => ⟨fun between same => ?_, ?_⟩
    · show (between.withDisk _).2.disk = _
      rw [same, (there directory member).createDirectory_eq]
      exact same
    · exact fun between same => same
  obtain ⟨between, unchanged, saves⟩ :=
    exists_saves_of_attempt (fun between => between.disk = world.disk) asks rfl attempted
  exact unchanged ▸ saves

end Files

end FilterLists
