/-
This file shows what an activity log keeps. It is used again and again, each time perhaps with
another limit and at another time, and what it keeps is to be said of the whole history. The
history is read off the requests that are made: what is added to the file of the log, when the
file is made the backup, and when it is removed. A request does these things only if it succeeds,
so the invariant is that both paths lead to files or to nothing, and hence no request can fail.
What is added is judged by its text, which is written out here apart from the program.

Then the file holds what was added since it was last started anew, the backup holds what the file
held when it was last made the backup, and nothing is lost but by clearing and by a newer backup.
-/

import FilterLists.ActivityLog
import FilterLists.Proofs.Files.Change
import FilterLists.Proofs.Program.Requests

namespace FilterLists

/-- Whether a path can be used as that of a file: it leads to a file or to nothing, and by a
name. -/
structure Disk.IsUsable (disk : Disk) (path : String) : Prop where
  plain : insistsOnDirectory path = false
  named : endsWithName path = true
  placed : ∃ location, disk.locate path = .ok location ∧ disk.get? location ≠ some .directory

theorem Disk.IsUsable.get?_of_not_isPresent {disk : Disk} {path : String} {location : Location}
    (usable : disk.IsUsable path) (absent : ¬disk.IsPresent path)
    (located : disk.locate path = .ok location) : disk.get? location = none :=
  Classical.byContradiction fun found =>
    absent ((isPresent_iff usable.plain).mpr ⟨location, located, found⟩)

namespace ActivityLog

/-! ### The two files -/

theorem isEnding_old : Path.IsEnding ".old" := ⟨by decide, by decide⟩

theorem backupPath_ne (log : ActivityLog) : log.backupPath ≠ log.path := by
  intro same
  have lengths := congrArg String.length same
  rw [backupPath, String.length_append] at lengths
  have ending : ".old".length = 4 := by decide
  omega

theorem endsWithName_backupPath (log : ActivityLog) :
    Disk.endsWithName log.backupPath = true := by
  obtain ⟨front, last, names⟩ := Path.exists_names_append log.path
  obtain ⟨neDot, neDots⟩ := isEnding_old.append_ne_dots last
  unfold Disk.endsWithName
  rw [backupPath, names ".old" isEnding_old, List.getLast?_concat]
  exact Bool.and_eq_true_iff.mpr ⟨bne_iff_ne.mpr neDot, bne_iff_ne.mpr neDots⟩

/-- What a file contains that entries were added to, unless there are none and so no file. -/
def contentOf : List String → Option ByteArray
  | [] => none
  | entries => some (String.join entries).toUTF8

/-- Where the two files of a log are, and what they contain, each if it is there. -/
structure Files (path : String) (place backupPlace : Location)
    (current backup : Option ByteArray) (disk : Disk) : Prop where
  located : disk.locate path = .ok place
  locatedBackup : disk.locate (path ++ ".old") = .ok backupPlace
  current : disk.get? place = current.map .file
  backup : disk.get? backupPlace = backup.map .file

section

variable {path : String} {place backupPlace : Location} {current backup content : Option ByteArray}
  {disk after : Disk} {world : World} (log : ActivityLog)

theorem Files.ne_backupPlace (files : Files path place backupPlace current backup disk) :
    place ≠ backupPlace :=
  Disk.ne_location_append isEnding_old files.located files.locatedBackup

theorem Files.putCurrent (files : Files path place backupPlace current backup disk)
    (puts : Disk.Puts disk after place content) :
    Files path place backupPlace content backup after where
  located := puts.directories.locate_eq_ok.mpr files.located
  locatedBackup := puts.directories.locate_eq_ok.mpr files.locatedBackup
  current := puts.get?_self
  backup := by rw [puts.get?_of_ne files.ne_backupPlace.symm, files.backup]

theorem Files.putBackup (files : Files path place backupPlace current backup disk)
    (puts : Disk.Puts disk after backupPlace content) :
    Files path place backupPlace current content after where
  located := puts.directories.locate_eq_ok.mpr files.located
  locatedBackup := puts.directories.locate_eq_ok.mpr files.locatedBackup
  current := by rw [puts.get?_of_ne files.ne_backupPlace, files.current]
  backup := puts.get?_self

/-! ### What the operations do -/

/-- Removing a file for which it does not matter whether it is there. -/
theorem exists_performs_removeFile {target : String} {location : Location}
    (plain : Disk.insistsOnDirectory target = false)
    (located : world.disk.locate target = .ok location)
    (found : world.disk.get? location = content.map .file) :
    ∃ reply disk, (Program.request (.removeFile target)).Performs world reply { world with disk }
        [.removeFile target] ∧
      unlessMissing reply = .ok () ∧ Disk.Puts world.disk disk location none := by
  obtain ⟨disk, puts, removed | ⟨failed, rfl⟩⟩ := Disk.removeFile_of_get? plain located found
  · refine ⟨.ok (), disk, Program.performs_request ?_, rfl, puts⟩
    show world.withDisk (world.disk.removeFile target) = _
    rw [removed]
    rfl
  · refine ⟨.error .notFound, world.disk, Program.performs_request ?_, rfl, puts⟩
    show world.withDisk (world.disk.removeFile target) = _
    rw [failed]
    rfl

variable (plain : Disk.insistsOnDirectory log.path = false)

section

variable (files : Files log.path place backupPlace current backup world.disk)

include plain files

/-- Whether a log with a limit is full when its file has some content. -/
def isFull (limit : Nat) : Option ByteArray → Bool
  | none => false
  | some content => limit < content.size

theorem exists_performs_rotate (named : Disk.endsWithName log.path = true)
    (isThere : current.isSome = true) :
    ∃ disk, log.rotate.Performs world (.ok ()) { world with disk }
        [.removeFile log.backupPath, .rename log.path log.backupPath] ∧
      Files log.path place backupPlace none current disk := by
  obtain ⟨content, rfl⟩ := Option.isSome_iff_exists.mp isThere
  have plainBackup : Disk.insistsOnDirectory log.backupPath = false :=
    Disk.insistsOnDirectory_append log.path isEnding_old
  obtain ⟨reply, between, removes, isFine, removed⟩ :=
    exists_performs_removeFile plainBackup files.locatedBackup files.backup
  have filesBetween := files.putBackup removed
  obtain ⟨taken, disk, renamed, takes, puts⟩ :=
    Disk.rename_of_get? plain plainBackup named (endsWithName_backupPath log)
      filesBetween.located filesBetween.locatedBackup filesBetween.ne_backupPlace.symm
      filesBetween.current filesBetween.backup
  refine ⟨disk, removes.bind ?_, (filesBetween.putCurrent takes).putBackup puts⟩
  rw [isFine]
  refine Program.performs_request ?_
  show World.withDisk { world with disk := between } (between.rename log.path log.backupPath) = _
  rw [renamed]
  rfl

theorem exists_performs_rotateIfFull (named : Disk.endsWithName log.path = true) :
    ∃ disk, log.rotateIfFull.Performs world (.ok ()) { world with disk }
        (.inspect log.path :: if isFull log.maximumSize current then
          [.removeFile log.backupPath, .rename log.path log.backupPath] else []) ∧
      Files log.path place backupPlace
        (if isFull log.maximumSize current then none else current)
        (if isFull log.maximumSize current then current else backup) disk := by
  have inspected := Disk.inspect_of_get? plain files.located files.current
  have asks : (Program.request (.inspect log.path)).Performs world (world.disk.inspect log.path)
      world [.inspect log.path] :=
    Program.performs_request rfl
  cases current with
  | none =>
    refine ⟨world.disk, asks.bind ?_, files⟩
    rw [inspected]
    exact Program.performs_pure _ _
  | some content =>
    by_cases full : log.maximumSize < content.size
    · obtain ⟨disk, rotates, rotated⟩ := exists_performs_rotate log plain files named rfl
      simp only [isFull, full, decide_true, if_true]
      refine ⟨disk, asks.bind ?_, rotated⟩
      rw [inspected]
      show Program.Performs (if log.maximumSize < content.size then _ else _) _ _ _ _
      rw [if_pos full]
      exact rotates
    · simp only [isFull, full, decide_false, Bool.false_eq_true, if_false]
      refine ⟨world.disk, asks.bind ?_, files⟩
      rw [inspected]
      show Program.Performs (if log.maximumSize < content.size then _ else _) _ _ _ _
      rw [if_neg full]
      exact Program.performs_pure _ _

theorem exists_performs_append (named : Disk.endsWithName log.path = true) (message : String) :
    ∃ disk, (log.append message).Performs world (.ok ()) { world with disk }
        ((.inspect log.path :: if isFull log.maximumSize current then
          [.removeFile log.backupPath, .rename log.path log.backupPath] else []) ++
            [.time, .append log.path (entry world.time message)]) ∧
      Files log.path place backupPlace
        (some (((if isFull log.maximumSize current then none else current).getD .empty) ++
          (entry world.time message).toUTF8))
        (if isFull log.maximumSize current then current else backup) disk := by
  obtain ⟨between, rotates, rotated⟩ := exists_performs_rotateIfFull log plain files named
  obtain ⟨disk, appended, puts⟩ := Disk.append_of_get? plain rotated.located rotated.current
    (entry world.time message).toUTF8
  refine ⟨disk, rotates.bind ?_, rotated.putCurrent puts⟩
  have tells : (Program.request .time).Performs { world with disk := between } world.time
      { world with disk := between } [.time] :=
    Program.performs_request rfl
  refine tells.bind (Program.performs_request ?_)
  show World.withDisk { world with disk := between } (between.append log.path _) = _
  rw [appended]
  rfl

theorem performs_read {entries : List String} (holds : current = contentOf entries) :
    log.read.Performs world (.ok (String.join entries)) world [.read log.path] := by
  have isRead := Disk.read_of_get? plain files.located files.current
  have asks : (Program.request (.read log.path)).Performs world
      (world.disk.read log.path >>= World.decode) world [.read log.path] :=
    Program.performs_request rfl
  refine asks.bind ?_
  rw [isRead, holds]
  cases entries with
  | nil => exact Program.performs_pure _ _
  | cons first rest =>
    have decoded : ((contentOf (first :: rest)).elim (.error .notFound) .ok >>= World.decode) =
        .ok (String.join (first :: rest)) :=
      World.decode_toUTF8 _
    rw [decoded]
    exact Program.performs_pure _ _

theorem exists_performs_clear :
    ∃ disk, log.clear.Performs world (.ok ()) { world with disk } [.removeFile log.path] ∧
      Files log.path place backupPlace none backup disk := by
  obtain ⟨reply, disk, removes, isFine, removed⟩ :=
    exists_performs_removeFile plain files.located files.current
  refine ⟨disk, removes.bind ?_, files.putCurrent removed⟩
  rw [isFine]
  exact Program.performs_pure _ _

end

end

/-! ### Histories -/

/-- What happens to the file of a log: an entry is added to it, it is made the backup, or it is
removed. -/
inductive Event
  | added (entry : String)
  | rotated
  | cleared
  deriving DecidableEq, Repr

/-- What happens to the file at a path by a request that succeeds. -/
def Event.ofRequest? (path : String) : Request → Option Event
  | .append target content => if target = path then some (.added content) else none
  | .rename source _ => if source = path then some .rotated else none
  | .removeFile target => if target = path then some .cleared else none
  | _ => none

/-- What has happened, latest first, when requests were made. -/
def eventsOf (path : String) (requests : List Request) : List Event :=
  (requests.filterMap (Event.ofRequest? path)).reverse

/-- The entries that were added since the file was last made the backup or removed. Here and below,
a history has its latest event first. -/
def currentEntries : List Event → List String
  | .added entry :: earlier => currentEntries earlier ++ [entry]
  | _ => []

/-- The entries that the file held when it was last made the backup, if it ever was. -/
def backupEntries : List Event → Option (List String)
  | [] => none
  | .rotated :: earlier => some (currentEntries earlier)
  | _ :: earlier => backupEntries earlier

/-- All entries that were ever added. -/
def allEntries : List Event → List String
  | [] => []
  | .added entry :: earlier => allEntries earlier ++ [entry]
  | _ :: earlier => allEntries earlier

/-! ### Using a log -/

inductive Operation
  | append (message : String)
  | read
  | clear
  deriving DecidableEq, Repr

/-- A use of a log, at a time and with a limit of its own. -/
structure Use where
  operation : Operation
  maximumSize : Nat
  time : Nat
  deriving DecidableEq, Repr

/-- What is to be written for a message: the time in brackets, a blank, the message, and a line
feed. -/
def written (time : Nat) (message : String) : String :=
  String.join ["[", Timestamp.render time, "]", " ", message, "\n"]

theorem entry_eq_written (time : Nat) (message : String) :
    entry time message = written time message := by
  have closing : "] " = "]" ++ " " := by decide
  unfold entry written
  rw [closing]
  simp only [String.join_cons, String.join_nil, String.append_empty, String.append_assoc]

/-- What is to be written for a use, if it adds a message. -/
def Use.written? (use : Use) : Option String :=
  match use.operation with
  | .append message => some (written use.time message)
  | _ => none

/-- What a use does with the log at a path. It ends with a text if it is to read one. -/
def Use.program (path : String) (use : Use) : Program (Except Cause (Option String)) :=
  let log : ActivityLog := { path, maximumSize := use.maximumSize }
  match use.operation with
  | .append message => return (← log.append message).map fun _ => none
  | .read => return (← log.read).map some
  | .clear => return (← log.clear).map fun _ => none

/-- Where the use of a log has led: the world, and what has happened to the file. -/
structure Course where
  world : World
  history : List Event

namespace Course

/-- The world in which a use takes place. -/
def worldFor (course : Course) (use : Use) : World :=
  { course.world with time := use.time }

/-- How one more use ends. -/
def outcome (path : String) (course : Course) (use : Use) : Except Cause (Option String) :=
  ((use.program path).run (course.worldFor use)).1

/-- Where one more use leads. -/
def next (path : String) (course : Course) (use : Use) : Course where
  world := ((use.program path).run (course.worldFor use)).2
  history := eventsOf path ((use.program path).requests (course.worldFor use)) ++ course.history

/-- Where uses lead, one after the other. -/
def after (path : String) (world : World) (uses : List Use) : Course :=
  uses.foldl (next path) { world, history := [] }

/-- Whether the file of a log has more bytes than a limit allows. -/
def IsOver (path : String) (course : Course) (limit : Nat) : Prop :=
  ∃ content, course.world.disk.read path = .ok content ∧ limit < content.size

/-- Whether a use does to the log what it should. -/
structure Obeys (path : String) (course : Course) (use : Use) : Prop where
  append : ∀ message, use.operation = .append message →
    course.outcome path use = .ok none ∧
    (course.IsOver path use.maximumSize →
      (course.next path use).history =
        .added (written use.time message) :: .rotated :: course.history) ∧
    (¬course.IsOver path use.maximumSize →
      (course.next path use).history = .added (written use.time message) :: course.history)
  read : use.operation = .read →
    course.outcome path use = .ok (some (String.join (currentEntries course.history))) ∧
    course.next path use = { course with world := course.worldFor use }
  clear : use.operation = .clear →
    course.outcome path use = .ok none ∧
    (course.next path use).history = .cleared :: course.history ∧
    (course.next path use).world.disk.read (path ++ ".old") =
      course.world.disk.read (path ++ ".old")

/-- What the backup contains, if it was ever made. -/
def backupContent (course : Course) : Option ByteArray :=
  (backupEntries course.history).map fun entries => (String.join entries).toUTF8

/-- Whether the files are those that the history calls for. -/
def IsSound (path : String) (place backupPlace : Location) (course : Course) : Prop :=
  Files path place backupPlace (contentOf (currentEntries course.history)) course.backupContent
    course.world.disk

end Course

theorem contentOf_of_ne_nil {entries : List String} (nonempty : entries ≠ []) :
    contentOf entries = some (String.join entries).toUTF8 := by
  obtain ⟨first, rest, rfl⟩ := List.exists_cons_of_ne_nil nonempty
  rfl

theorem getD_contentOf (entries : List String) :
    (contentOf entries).getD .empty = (String.join entries).toUTF8 := by
  cases entries <;> rfl

theorem contentOf_concat (entries : List String) (entry : String) :
    contentOf (entries ++ [entry]) =
      some ((contentOf entries).getD .empty ++ entry.toUTF8) := by
  have single : String.join [entry] = entry := by simp
  rw [contentOf_of_ne_nil (List.concat_ne_nil _ _), getD_contentOf, String.join_append, single]
  exact congrArg some String.toByteArray_append

namespace Course

variable {course : Course} {use : Use} {path : String} {place backupPlace : Location}

theorem IsSound.worldFor (sound : course.IsSound path place backupPlace) (use : Use) :
    Files path place backupPlace (contentOf (currentEntries course.history)) course.backupContent
      (course.worldFor use).disk :=
  sound

theorem next_eq (use : Use) {reply : Except Cause (Option String)} {world : World}
    {asked : List Request}
    (performs : (use.program path).Performs (course.worldFor use) reply world asked) :
    course.outcome path use = reply ∧
      course.next path use = { world, history := eventsOf path asked ++ course.history } := by
  unfold outcome next
  rw [performs.run_eq, performs.requests_eq]
  exact ⟨rfl, rfl⟩

theorem eventsOf_append (path : String) (full : Bool) (entry : String) :
    eventsOf path ((.inspect path :: if full then
        [.removeFile (path ++ ".old"), .rename path (path ++ ".old")] else []) ++
          [.time, .append path entry]) =
      .added entry :: if full then [.rotated] else [] := by
  have backupNe : path ++ ".old" ≠ path := backupPath_ne ⟨path, 0⟩
  cases full <;> simp [eventsOf, List.filterMap_cons, Event.ofRequest?, backupNe]

theorem eventsOf_clear (path : String) : eventsOf path [.removeFile path] = [.cleared] := by
  simp [eventsOf, Event.ofRequest?]

theorem IsSound.isOver_iff (sound : course.IsSound path place backupPlace)
    (plain : Disk.insistsOnDirectory path = false) (limit : Nat) :
    course.IsOver path limit ↔ isFull limit (contentOf (currentEntries course.history)) = true := by
  unfold IsOver
  rw [Disk.read_of_get? plain sound.located sound.current]
  cases contentOf (currentEntries course.history) <;> simp [isFull]

section

variable (sound : course.IsSound path place backupPlace)
  (plain : Disk.insistsOnDirectory path = false) (maximumSize time : Nat)

include sound plain

theorem IsSound.next_append (named : Disk.endsWithName path = true) (message : String) :
    course.outcome path ⟨.append message, maximumSize, time⟩ = .ok none ∧
      (course.next path ⟨.append message, maximumSize, time⟩).history =
        .added (written time message) ::
          ((if isFull maximumSize (contentOf (currentEntries course.history)) then [.rotated]
            else []) ++ course.history) ∧
      (course.next path ⟨.append message, maximumSize, time⟩).IsSound path place backupPlace := by
  have here := sound.worldFor ⟨.append message, maximumSize, time⟩
  obtain ⟨disk, appends, files⟩ :=
    exists_performs_append ⟨path, maximumSize⟩ plain here named message
  rw [entry_eq_written] at appends files
  obtain ⟨ends, leads⟩ := next_eq ⟨.append message, maximumSize, time⟩
    (appends.bind (Program.performs_pure _ _))
  rw [List.append_nil] at leads
  have happened := eventsOf_append path
    (isFull maximumSize (contentOf (currentEntries course.history))) (written time message)
  have history : (course.next path ⟨.append message, maximumSize, time⟩).history = _ :=
    (congrArg Course.history leads).trans (congrArg (· ++ course.history) happened)
  refine ⟨ends, history, ?_⟩
  unfold IsSound backupContent
  rw [history, leads]
  cases full : isFull maximumSize (contentOf (currentEntries course.history)) with
  | false =>
    simp only [full, Bool.false_eq_true, if_false] at files ⊢
    show Files path place backupPlace (contentOf (currentEntries course.history ++ [_])) _ disk
    rw [contentOf_concat]
    exact files
  | true =>
    have nonempty : currentEntries course.history ≠ [] := by
      intro empty
      rw [empty] at full
      cases full
    simp only [full, if_true] at files ⊢
    rw [contentOf_of_ne_nil nonempty] at files
    show Files path place backupPlace (contentOf ([] ++ [_])) _ disk
    rw [contentOf_concat]
    exact files

theorem IsSound.next_read :
    course.outcome path ⟨.read, maximumSize, time⟩ =
        .ok (some (String.join (currentEntries course.history))) ∧
      course.next path ⟨.read, maximumSize, time⟩ =
        { course with world := course.worldFor ⟨.read, maximumSize, time⟩ } :=
  next_eq ⟨.read, maximumSize, time⟩
    ((performs_read ⟨path, maximumSize⟩ plain (sound.worldFor _) rfl).bind
      (Program.performs_pure _ _))

theorem IsSound.next_clear :
    course.outcome path ⟨.clear, maximumSize, time⟩ = .ok none ∧
      (course.next path ⟨.clear, maximumSize, time⟩).history = .cleared :: course.history ∧
      (course.next path ⟨.clear, maximumSize, time⟩).IsSound path place backupPlace := by
  have here := sound.worldFor ⟨.clear, maximumSize, time⟩
  obtain ⟨disk, clears, files⟩ := exists_performs_clear ⟨path, maximumSize⟩ plain here
  obtain ⟨ends, leads⟩ := next_eq ⟨.clear, maximumSize, time⟩
    (clears.bind (Program.performs_pure _ _))
  have history : (course.next path ⟨.clear, maximumSize, time⟩).history = _ :=
    (congrArg Course.history leads).trans (congrArg (· ++ course.history) (eventsOf_clear path))
  refine ⟨ends, history, ?_⟩
  unfold IsSound backupContent
  rw [history, leads]
  exact files

end

variable {uses : List Use} {world : World}

theorem IsSound.next (sound : course.IsSound path place backupPlace)
    (plain : Disk.insistsOnDirectory path = false) (named : Disk.endsWithName path = true)
    (use : Use) : (course.next path use).IsSound path place backupPlace := by
  obtain ⟨operation, maximumSize, time⟩ := use
  cases operation with
  | append message => exact (sound.next_append plain maximumSize time named message).2.2
  | read =>
    rw [(sound.next_read plain maximumSize time).2]
    exact sound
  | clear => exact (sound.next_clear plain maximumSize time).2.2

theorem IsSound.obeys (sound : course.IsSound path place backupPlace)
    (plain : Disk.insistsOnDirectory path = false) (named : Disk.endsWithName path = true)
    (use : Use) : course.Obeys path use := by
  obtain ⟨operation, maximumSize, time⟩ := use
  refine ⟨fun message isAppend => ?_, fun isRead => ?_, fun isClear => ?_⟩
  · obtain rfl : operation = .append message := isAppend
    obtain ⟨ends, history, -⟩ := sound.next_append plain maximumSize time named message
    rw [sound.isOver_iff plain]
    refine ⟨ends, fun full => ?_, fun notFull => ?_⟩
    · rw [history, if_pos full]
      rfl
    · rw [history, if_neg notFull]
      rfl
  · obtain rfl : operation = .read := isRead
    exact sound.next_read plain maximumSize time
  · obtain rfl : operation = .clear := isClear
    obtain ⟨ends, history, after⟩ := sound.next_clear plain maximumSize time
    refine ⟨ends, history, ?_⟩
    have plainBackup : Disk.insistsOnDirectory (path ++ ".old") = false :=
      Disk.insistsOnDirectory_append path isEnding_old
    have backups : (course.next path ⟨.clear, maximumSize, time⟩).backupContent =
        course.backupContent := by
      unfold backupContent
      rw [history]
      rfl
    rw [Disk.read_of_get? plainBackup after.locatedBackup after.backup,
      Disk.read_of_get? plainBackup sound.locatedBackup sound.backup, backups]

theorem Obeys.allEntries_next (obeys : course.Obeys path use) :
    allEntries (course.next path use).history =
      allEntries course.history ++ use.written?.toList := by
  obtain ⟨operation, maximumSize, time⟩ := use
  cases operation with
  | append message =>
    obtain ⟨-, whenOver, notOver⟩ := obeys.append message rfl
    by_cases isOver : course.IsOver path maximumSize
    · rw [whenOver isOver]
      rfl
    · rw [notOver isOver]
      rfl
  | read =>
    rw [(obeys.read rfl).2]
    exact (List.append_nil _).symm
  | clear =>
    rw [(obeys.clear rfl).2.1]
    exact (List.append_nil _).symm

end Course

/-! ### What is kept of a history -/

/-- If nothing was cleared, the backup and the file hold the latest entries without a gap. -/
theorem exists_allEntries_eq {history : List Event} (notCleared : Event.cleared ∉ history) :
    ∃ lost, allEntries history =
      lost ++ ((backupEntries history).getD [] ++ currentEntries history) := by
  induction history with
  | nil => exact ⟨[], rfl⟩
  | cons event earlier inductionHypothesis =>
    obtain ⟨lost, split⟩ :=
      inductionHypothesis fun member => notCleared (List.mem_cons_of_mem event member)
    cases event with
    | added entry =>
      refine ⟨lost, ?_⟩
      show allEntries earlier ++ [entry] = lost ++ (_ ++ (currentEntries earlier ++ [entry]))
      rw [split]
      simp only [List.append_assoc]
      rfl
    | rotated =>
      refine ⟨lost ++ (backupEntries earlier).getD [], ?_⟩
      show allEntries earlier = _ ++ (currentEntries earlier ++ [])
      rw [split, List.append_nil, List.append_assoc]
    | cleared => exact absurd List.mem_cons_self notCleared

/-- Whether the file was within a limit before its latest entry, and the backup is over it. -/
structure Fits (limit : Nat) (history : List Event) : Prop where
  current : (String.join (currentEntries history).dropLast).utf8ByteSize ≤ limit
  backup : ∀ entries, backupEntries history = some entries →
    limit < (String.join entries).utf8ByteSize

theorem isFull_contentOf_iff {limit : Nat} {entries : List String} :
    isFull limit (contentOf entries) = true ↔ limit < (String.join entries).utf8ByteSize := by
  cases entries with
  | nil => simp [contentOf, isFull, String.join]
  | cons first rest => exact decide_eq_true_iff

/-! ### All uses of a log -/

namespace Course

variable {path : String} {place backupPlace : Location} {world : World}

/-- What holds at first and is kept by a use of a log whose files are as they should be holds after
any uses. -/
theorem after_induction (holds : List Use → Course → Prop)
    (plain : Disk.insistsOnDirectory path = false) (named : Disk.endsWithName path = true)
    (sound : IsSound path place backupPlace { world, history := [] })
    (start : holds [] { world, history := [] })
    (step : ∀ uses course use, course.IsSound path place backupPlace → holds uses course →
      holds (uses ++ [use]) (course.next path use))
    (uses : List Use) :
    (after path world uses).IsSound path place backupPlace ∧
      holds uses (after path world uses) := by
  have onward : ∀ (uses done : List Use) (course : Course),
      course.IsSound path place backupPlace → holds done course →
      (uses.foldl (next path) course).IsSound path place backupPlace ∧
        holds (done ++ uses) (uses.foldl (next path) course) := by
    intro uses
    induction uses with
    | nil =>
      intro done course sound held
      rw [List.append_nil]
      exact ⟨sound, held⟩
    | cons use rest inductionHypothesis =>
      intro done course sound held
      have later := inductionHypothesis (done ++ [use]) (course.next path use)
        (sound.next plain named use) (step done course use sound held)
      rwa [List.append_assoc] at later
  exact onward uses [] _ sound start

section

variable (plain : Disk.insistsOnDirectory path = false) (named : Disk.endsWithName path = true)
  (sound : IsSound path place backupPlace { world, history := [] })

include plain named sound

theorem isSound_after (uses : List Use) :
    (after path world uses).IsSound path place backupPlace :=
  (after_induction (fun _ _ => True) plain named sound trivial
    (fun _ _ _ _ _ => trivial) uses).1

theorem allEntries_after (uses : List Use) :
    allEntries (after path world uses).history = uses.filterMap Use.written? := by
  refine (after_induction
    (fun uses course => allEntries course.history = uses.filterMap Use.written?)
    plain named sound rfl (fun uses course use soundNow held => ?_) uses).2
  rw [(soundNow.obeys plain named use).allEntries_next, held, List.filterMap_append]
  cases added : use.written? <;> simp [added]

/-- Adding entries clears nothing, and the newest entry is in the file. -/
theorem history_after_appends {uses : List Use}
    (appends : ∀ use ∈ uses, ∃ message, use.operation = .append message) :
    Event.cleared ∉ (after path world uses).history ∧
      (uses ≠ [] → currentEntries (after path world uses).history ≠ []) := by
  refine (after_induction
    (fun uses course => (∀ use ∈ uses, ∃ message, use.operation = .append message) →
      Event.cleared ∉ course.history ∧ (uses ≠ [] → currentEntries course.history ≠ []))
    plain named sound (fun _ => ⟨List.not_mem_nil, fun nonempty => absurd rfl nonempty⟩)
    (fun uses course use soundNow held appends => ?_) uses).2 appends
  obtain ⟨message, isAppend⟩ := appends use (by simp)
  obtain ⟨notCleared, -⟩ := held fun use member => appends use (by simp [member])
  obtain ⟨-, whenOver, notOver⟩ := (soundNow.obeys plain named use).append message isAppend
  by_cases isOver : course.IsOver path use.maximumSize
  · rw [whenOver isOver]
    exact ⟨by simp [notCleared], fun _ => List.concat_ne_nil _ _⟩
  · rw [notOver isOver]
    exact ⟨by simp [notCleared], fun _ => List.concat_ne_nil _ _⟩

theorem fits_after {uses : List Use} {limit : Nat}
    (limited : ∀ use ∈ uses, ∀ message, use.operation = .append message →
      use.maximumSize = limit) :
    Fits limit (after path world uses).history := by
  refine (after_induction
    (fun uses course => (∀ use ∈ uses, ∀ message, use.operation = .append message →
      use.maximumSize = limit) → Fits limit course.history)
    plain named sound (fun _ => ⟨Nat.zero_le _, fun _ none => nomatch none⟩)
    (fun uses course use soundNow held limited => ?_) uses).2 limited
  have fits : Fits limit course.history := held fun use member => limited use (by simp [member])
  have obeys := soundNow.obeys plain named use
  cases operation : use.operation with
  | append message =>
    obtain ⟨-, whenOver, notOver⟩ := obeys.append message operation
    have isOver_iff := soundNow.isOver_iff plain limit
    rw [isFull_contentOf_iff] at isOver_iff
    rw [limited use (by simp) message operation] at whenOver notOver
    by_cases isOver : course.IsOver path limit
    · rw [whenOver isOver]
      refine ⟨Nat.zero_le _, fun entries backup => ?_⟩
      obtain rfl : currentEntries course.history = entries := Option.some.inj backup
      exact isOver_iff.mp isOver
    · rw [notOver isOver]
      refine ⟨?_, fits.backup⟩
      show (String.join (currentEntries course.history ++ [_]).dropLast).utf8ByteSize ≤ limit
      rw [List.dropLast_concat]
      exact Nat.le_of_not_lt fun more => isOver (isOver_iff.mpr more)
  | read =>
    rw [(obeys.read operation).2]
    exact fits
  | clear =>
    rw [(obeys.clear operation).2.1]
    exact ⟨Nat.zero_le _, fits.backup⟩

end

/-- Whether a log keeps what it should of the entries of some uses. -/
structure Keeps (path : String) (uses : List Use) (course : Course) : Prop where
  current : course.world.disk.read path = match currentEntries course.history with
    | [] => .error .notFound
    | entries => .ok (String.join entries).toUTF8
  backup : course.world.disk.read (path ++ ".old") = match backupEntries course.history with
    | none => .error .notFound
    | some entries => .ok (String.join entries).toUTF8
  entries : allEntries course.history = uses.filterMap Use.written?
  obeys : ∀ use, course.Obeys path use
  /-- Without clearing, only the oldest entries are lost, and never the newest one. -/
  newest : (∀ use ∈ uses, ∃ message, use.operation = .append message) →
    (∃ lost, uses.filterMap Use.written? =
      lost ++ ((backupEntries course.history).getD [] ++ currentEntries course.history)) ∧
    (uses ≠ [] → currentEntries course.history ≠ [])
  /-- With one limit for all entries, the file goes over it by its newest entry at most. -/
  fits : ∀ limit,
    (∀ use ∈ uses, ∀ message, use.operation = .append message → use.maximumSize = limit) →
    Fits limit course.history

/-- A log whose two paths can be used, and whose files are not there at first, keeps the newest
entries, however it is used. -/
theorem keeps_after {path : String} {world : World} (usable : world.disk.IsUsable path)
    (usableBackup : world.disk.IsUsable (path ++ ".old")) (absent : ¬world.disk.IsPresent path)
    (absentBackup : ¬world.disk.IsPresent (path ++ ".old")) (uses : List Use) :
    (after path world uses).Keeps path uses := by
  obtain ⟨place, located, -⟩ := usable.placed
  obtain ⟨backupPlace, locatedBackup, -⟩ := usableBackup.placed
  have sound : IsSound path place backupPlace { world, history := [] } :=
    ⟨located, locatedBackup, usable.get?_of_not_isPresent absent located,
      usableBackup.get?_of_not_isPresent absentBackup locatedBackup⟩
  have soundAfter := isSound_after usable.plain usable.named sound uses
  have entries := allEntries_after usable.plain usable.named sound uses
  refine ⟨?_, ?_, entries, fun use => soundAfter.obeys usable.plain usable.named use,
    fun appends => ?_, fun limit limited => fits_after usable.plain usable.named sound limited⟩
  · rw [Disk.read_of_get? usable.plain soundAfter.located soundAfter.current]
    cases currentEntries (after path world uses).history <;> rfl
  · rw [Disk.read_of_get? usableBackup.plain soundAfter.locatedBackup soundAfter.backup,
      backupContent]
    cases backupEntries (after path world uses).history <;> rfl
  · obtain ⟨notCleared, newest⟩ :=
      history_after_appends usable.plain usable.named sound appends
    exact ⟨entries ▸ exists_allEntries_eq notCleared, newest⟩

/-! ### A log that was rotated and cleared -/

def emptyWorld : World where
  disk := { home := [], entries := [] }

def sampleUses : List Use :=
  [{ operation := .append "first", maximumSize := 20, time := 0 },
    { operation := .append "second", maximumSize := 20, time := 60 },
    { operation := .read, maximumSize := 0, time := 60 },
    { operation := .append "third", maximumSize := 100, time := 120 },
    { operation := .clear, maximumSize := 0, time := 180 },
    { operation := .append "fourth", maximumSize := 20, time := 1709251199 }]

/-- The second entry makes the file with the first one the backup, which clearing leaves alone. -/
theorem sample_keeps_after :
    emptyWorld.disk.IsUsable "log" ∧ emptyWorld.disk.IsUsable ("log" ++ ".old") ∧
      ¬emptyWorld.disk.IsPresent "log" ∧ ¬emptyWorld.disk.IsPresent ("log" ++ ".old") ∧
      (after "log" emptyWorld sampleUses).Keeps "log" sampleUses ∧
      (after "log" emptyWorld sampleUses).world.disk.read "log" =
        .ok "[2024-02-29T23:59:59Z] fourth\n".toUTF8 ∧
      (after "log" emptyWorld sampleUses).world.disk.read "log.old" =
        .ok "[1970-01-01T00:00:00Z] first\n".toUTF8 := by
  have usable : emptyWorld.disk.IsUsable "log" :=
    ⟨by decide, by decide, ["log"], rfl, nofun⟩
  have usableBackup : emptyWorld.disk.IsUsable ("log" ++ ".old") :=
    ⟨by decide, by decide, ["log.old"], rfl, nofun⟩
  have absent : ¬emptyWorld.disk.IsPresent "log" := nofun
  have absentBackup : ¬emptyWorld.disk.IsPresent ("log" ++ ".old") := nofun
  have keeps := keeps_after usable usableBackup absent absentBackup sampleUses
  have current : currentEntries (after "log" emptyWorld sampleUses).history =
      ["[2024-02-29T23:59:59Z] fourth\n"] := by
    decide +kernel
  have backup : backupEntries (after "log" emptyWorld sampleUses).history =
      some ["[1970-01-01T00:00:00Z] first\n"] := by
    decide +kernel
  refine ⟨usable, usableBackup, absent, absentBackup, keeps, ?_, ?_⟩
  · rw [keeps.current, current]
    rfl
  · have isBackup : "log" ++ ".old" = "log.old" := by decide
    rw [← isBackup, keeps.backup, backup]
    rfl

end Course

end ActivityLog

end FilterLists
