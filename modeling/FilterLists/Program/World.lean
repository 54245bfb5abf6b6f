/-
This file carries programs out on a modelled world: a disk, the journal and what has been shown to
the user. The clock stands still there, since no program does anything else at another time.
-/

import FilterLists.Program.Basic

namespace FilterLists

/-- The surroundings of a program, as far as programs can see or change them. -/
structure World where
  disk : Disk
  /-- What has been noted, in order. -/
  journal : List Journal.Entry := []
  /-- What has been shown to the user. -/
  shown : String := ""
  /-- The time, in seconds since the start of 1970. -/
  time : Nat := 0

namespace World

/-- The world with the disk that an operation on files leaves behind, and how the operation
ended. A failed one leaves the disk as it was. -/
def withDisk (world : World) (outcome : Except Cause Disk) : Except Cause Unit × World :=
  match outcome with
  | .ok disk => (.ok (), { world with disk })
  | .error cause => (.error cause, world)

/-- The text of the content of a file. -/
def decode (content : ByteArray) : Except Cause String :=
  match String.fromUTF8? content with
  | some text => .ok text
  | none => .error .notText

/-- The reply to a request, and the world after it. -/
def answer (world : World) : (request : Request) → request.Reply × World
  | .read path => (world.disk.read path >>= decode, world)
  | .write path content => world.withDisk (world.disk.write path content.toUTF8)
  | .append path content => world.withDisk (world.disk.append path content.toUTF8)
  | .inspect path => (world.disk.inspect path, world)
  | .createDirectory path => world.withDisk (world.disk.createDirectory path)
  | .removeFile path => world.withDisk (world.disk.removeFile path)
  | .rename source target => world.withDisk (world.disk.rename source target)
  | .print text => ((), { world with shown := world.shown ++ text })
  | .note entry => ((), { world with journal := world.journal ++ [entry] })
  | .time => (world.time, world)
  | .ticks => (0, world)

end World

namespace Program

variable {α β : Type}

/-- What a program ends with in a world, and the world after it. -/
def run : Program α → World → α × World
  | done value, world => (value, world)
  | ask request next, world => (next (world.answer request).1).run (world.answer request).2

@[simp] theorem run_pure (value : α) (world : World) :
    (pure value : Program α).run world = (value, world) := rfl

@[simp] theorem run_bind (program : Program α) (continuation : α → Program β) (world : World) :
    (program >>= continuation).run world =
      (continuation (program.run world).1).run (program.run world).2 := by
  show (program.bind continuation).run world = _
  induction program generalizing world with
  | done value => rfl
  | ask request next inductionHypothesis => exact inductionHypothesis _ _

@[simp] theorem run_request (request : Request) (world : World) :
    (Program.request request).run world = world.answer request := rfl

end Program

end FilterLists
