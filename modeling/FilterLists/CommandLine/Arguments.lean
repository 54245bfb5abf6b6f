/-
This file reads the arguments of the program. Options have a long name and some a short one, a
single letter; options with a value take it from the same argument or from the next one. No option
may be given twice in one place, and two dashes alone say that no options follow. Arguments are
read from left to right, so a request for help counts if everything before it makes sense. But a
value in an argument of its own is looked at only when the next thing is given in the same place,
or at the end.
-/

namespace FilterLists.CommandLine

/-! ### Options -/

/-- What an option takes: nothing, a path that is not empty, or a number of 64 bits. -/
inductive OptionKind
  | flag
  | path
  | number
  deriving DecidableEq, Repr

/-- A number of 64 bits. A plus sign may stand before it. -/
def number? (text : String) : Option Nat :=
  let digits := match text.toList with
    | '+' :: rest => rest
    | characters => characters
  if digits ≠ [] ∧ digits.all Char.isDigit then
    let value := digits.foldl (fun value digit => value * 10 + (digit.toNat - '0'.toNat)) 0
    if value < Nat.pow 2 64 then some value else none
  else none

/-- Whether a value is of the kind that an option takes. -/
def OptionKind.accepts : OptionKind → String → Bool
  | flag, _ => true
  | path, value => !value.isEmpty
  | number, value => (number? value).isSome

/-- What it means that an option is not given. -/
inductive Absence
  | allowed
  | refused
  | replaced (value : String)
  deriving DecidableEq, Repr

structure OptionShape where
  long : String
  short : Option Char := none
  kind : OptionKind := .path
  absence : Absence := .allowed
  about : String
  deriving DecidableEq, Repr

/-- An option that is given, with its value; a flag has the empty one. -/
structure GivenOption where
  long : String
  value : String
  deriving DecidableEq, Repr

/-- What arguments come to: the options that are given, the other arguments, and whether help is
asked for. -/
structure Given where
  options : List GivenOption := []
  operands : List String := []
  help : Bool := false
  deriving DecidableEq, Repr

namespace Given

def value? (given : Given) (long : String) : Option String :=
  (given.options.find? fun option => option.long == long).map GivenOption.value

def has (given : Given) (long : String) : Bool :=
  (given.value? long).isSome

/-- What is given with one more option, unless the option has been given before or does not take
the value. -/
def add? (given : Given) (shape : OptionShape) (value : String) : Option Given :=
  if given.has shape.long ∨ !shape.kind.accepts value then none
  else some { given with options := given.options ++ [{ long := shape.long, value }] }

/-- What is given, completed for the options that are not, unless one of them is needed. -/
def complete? (given : Given) : List OptionShape → Option Given
  | [] => some given
  | shape :: rest =>
    if given.has shape.long then given.complete? rest
    else
      match shape.absence with
      | .allowed => given.complete? rest
      | .refused => none
      | .replaced value => do (← given.add? shape value).complete? rest

end Given

/-! ### Arguments -/

inductive Argument
  | separator
  /-- A long name, and a value after an equals sign. -/
  | long (name : String) (value : Option String)
  /-- Short names in a row, which may end with a value. -/
  | shorts (letters : List Char)
  | plain (text : String)
  deriving DecidableEq, Repr

def Argument.ofString (argument : String) : Argument :=
  match argument.toList with
  | ['-', '-'] => .separator
  | '-' :: '-' :: rest =>
    let isName := fun character => character != '='
    match rest.dropWhile isName with
    | [] => .long (.ofList rest) none
    | _ :: value => .long (.ofList (rest.takeWhile isName)) (some (.ofList value))
  | '-' :: letter :: rest => .shorts (letter :: rest)
  | _ => .plain argument

/-- What remains to be done after an argument. -/
inductive Pending
  | nothing
  | awaiting (shape : OptionShape)
  | held (shape : OptionShape) (value : String)
  deriving DecidableEq, Repr

structure Reading where
  given : Given := {}
  pending : Pending := .nothing
  deriving DecidableEq, Repr

namespace Reading

/-- What is given once nothing remains to be done. -/
def settle? (reading : Reading) : Option Given :=
  match reading.pending with
  | .nothing => some reading.given
  | .awaiting _ => none
  | .held shape value => reading.given.add? shape value

def askHelp? (reading : Reading) : Option Reading := do
  return { given := { ← reading.settle? with help := true } }

/-- Reads an option whose value, if it takes one, is in the same argument. -/
def add? (reading : Reading) (shape : OptionShape) (value : String) : Option Reading := do
  return { given := ← (← reading.settle?).add? shape value }

/-- Reads an option whose value is the next argument. -/
def await? (reading : Reading) (shape : OptionShape) : Option Reading := do
  return { given := ← reading.settle?, pending := .awaiting shape }

end Reading

def readLong? (shapes : List OptionShape) (reading : Reading) (name : String)
    (value : Option String) : Option Reading := do
  if name = "help" ∧ value = none then reading.askHelp?
  else
    let shape ← shapes.find? fun shape => shape.long == name
    match shape.kind, value with
    | .flag, none => reading.add? shape ""
    | .flag, some _ => none
    | _, some value => reading.add? shape value
    | _, none => reading.await? shape

/-- Reads short names. What follows the name of an option with a value is the value, and an equals
sign before the value does not count. -/
def readShorts? (shapes : List OptionShape) (reading : Reading) : List Char → Option Reading
  | [] => some reading
  | letter :: rest => do
    if letter = 'h' then reading.askHelp?
    else
      let shape ← shapes.find? fun shape => shape.short == some letter
      match shape.kind, rest with
      | .flag, _ => readShorts? shapes (← reading.add? shape "") rest
      | _, [] => reading.await? shape
      | _, '=' :: value => reading.add? shape (.ofList value)
      | _, value => reading.add? shape (.ofList value)

/-- What becomes of arguments that are no options. -/
inductive Operands
  | command
  | upTo (count : Nat)
  deriving DecidableEq, Repr

/-- What is given with operands added, unless they are too many. -/
def Operands.add? (operands : Operands) (given : Given) (texts : List String) : Option Given :=
  match operands with
  | command => none
  | upTo count =>
    if given.operands.length + texts.length ≤ count then
      some { given with operands := given.operands ++ texts }
    else none

/-- Reads arguments, and gives those from the start of a command on. A request for help ends the
reading too. -/
def read? (shapes : List OptionShape) (operands : Operands) (reading : Reading) :
    List String → Option (Reading × List String)
  | [] => some (reading, [])
  | argument :: rest =>
    if reading.given.help then some (reading, [])
    else
      match Argument.ofString argument, reading.pending with
      | .plain text, .awaiting shape =>
        read? shapes operands { reading with pending := .held shape text } rest
      | .plain text, _ =>
        if operands = .command then some (reading, argument :: rest)
        else do
          read? shapes operands { given := ← operands.add? (← reading.settle?) [text] } rest
      | .separator, _ => do some ({ given := ← operands.add? (← reading.settle?) rest }, [])
      | .long name value, _ => do
        read? shapes operands (← readLong? shapes reading name value) rest
      | .shorts letters, _ => do
        read? shapes operands (← readShorts? shapes reading letters) rest

end FilterLists.CommandLine
