/-
This file describes what a program does as data: a chain of requests to its surroundings, each
with what is to be done after every possible reply. The same program can then be carried out on a
real file system and on a modelled one, and one can say of it which files it asks for.
-/

import FilterLists.Files.Disk
import FilterLists.Journal

namespace FilterLists

/-- What a program can ask of its surroundings. -/
inductive Request
  | read (path : String)
  | write (path content : String)
  | append (path content : String)
  | inspect (path : String)
  | createDirectory (path : String)
  | removeFile (path : String)
  | rename (source target : String)
  | print (text : String)
  | note (entry : Journal.Entry)
  /-- The time, in seconds since the start of 1970. -/
  | time
  /-- How many nanoseconds have passed since some moment. -/
  | ticks
  deriving DecidableEq, Repr

namespace Request

/-- What a request is answered with. -/
abbrev Reply : Request → Type
  | read _ => Except Cause String
  | write _ _ => Except Cause Unit
  | append _ _ => Except Cause Unit
  | inspect _ => Except Cause Status
  | createDirectory _ => Except Cause Unit
  | removeFile _ => Except Cause Unit
  | rename _ _ => Except Cause Unit
  | print _ => Unit
  | note _ => Unit
  | time => Nat
  | ticks => Nat

end Request

/-- A program that ends with a value. -/
inductive Program (α : Type) : Type
  | done (value : α)
  | ask (request : Request) (next : request.Reply → Program α)

namespace Program

variable {α β : Type}

/-- One program after another. -/
def bind (program : Program α) (continuation : α → Program β) : Program β :=
  match program with
  | done value => continuation value
  | ask request next => ask request fun reply => (next reply).bind continuation

instance : Monad Program where
  pure := done
  bind := bind

theorem bind_done (program : Program α) : program.bind done = program := by
  induction program with
  | done value => rfl
  | ask request next inductionHypothesis =>
    simp only [bind]
    congr 1
    funext reply
    exact inductionHypothesis reply

theorem bind_assoc {γ : Type} (program : Program α) (second : α → Program β)
    (third : β → Program γ) :
    (program.bind second).bind third = program.bind fun value => (second value).bind third := by
  induction program with
  | done value => rfl
  | ask request next inductionHypothesis =>
    simp only [bind]
    congr 1
    funext reply
    exact inductionHypothesis reply

instance : LawfulMonad Program :=
  LawfulMonad.mk' Program bind_done (fun _ _ => rfl) bind_assoc

/-- The program that asks for one thing and ends with the reply. -/
def request (request : Request) : Program request.Reply :=
  ask request done

/-- Shows a text to the user, with a line end after it. -/
def printLine (text : String) : Program Unit :=
  request (.print (text ++ "\n"))

/-- Notes entries in the journal, one after the other. -/
def noteAll (entries : List Journal.Entry) : Program Unit :=
  entries.forM fun entry => request (.note entry)

/-- The program that does `log entry` wherever a program notes an entry. -/
def redirectNotes (log : Journal.Entry → Program Unit) : Program α → Program α
  | done value => done value
  | ask (.note entry) next => (log entry).bind fun _ => redirectNotes log (next ())
  | ask request next => ask request fun reply => redirectNotes log (next reply)

end Program

end FilterLists
