/-
This file defines the values of TOML documents, and how a document builds up its tables. A table
can be written in several ways -- under a header, by dotted keys, on one line -- and each way says
who may still add to it: no key may be set twice, no table defined twice, and what was written in
one way cannot be continued in another.
-/

namespace FilterLists.Toml

/-- How a table came to be. -/
inductive Origin
  /-- It has a header of its own, or is the table of the whole document. -/
  | header
  /-- It is on the way to a table with a header, and may still get one itself. -/
  | implied
  /-- It is on the way of a dotted key. -/
  | dotted
  /-- It is written on one line, and complete. -/
  | inline
  deriving DecidableEq, Repr

/-- A TOML value. Where only the kind of a value matters, its text is all that is kept. -/
inductive Value
  | string (content : String)
  | integer (value : Int)
  | float (numeral : String)
  | boolean (value : Bool)
  /-- A date, a time of day, or both. -/
  | moment (text : String)
  | array (items : List Value)
  | table (origin : Origin) (members : List (String × Value))
  /-- The tables of a header in double brackets, latest first. -/
  | tables (elements : List (List (String × Value)))
  deriving Repr

/-- The members of a table. -/
abbrev Members := List (String × Value)

namespace Members

/-- The value of a key. -/
def get? (members : Members) (key : String) : Option Value :=
  members.lookup key

/-- The members with the value of a key changed, or added if the key is new. Nothing, if the
change is refused. -/
def update (key : String) (change : Option Value → Option Value) : Members → Option Members
  | [] => (change none).map fun value => [(key, value)]
  | (name, value) :: rest =>
    if name = key then (change (some value)).map fun changed => (name, changed) :: rest
    else (update key change rest).map fun changed => (name, value) :: changed

/-- The members with a value under a dotted key. The last part of the key must be new, and the
part before it must name a table that dotted keys have made; further up, tables that a header
implied may lie on the way, and so may the latest table of a list. -/
def insert (value : Value) : List String → Members → Option Members
  | [], _ => none
  | [key], members =>
    members.update key fun
      | none => some value
      | some _ => none
  | key :: next :: rest, members =>
    members.update key fun
      | none => (insert value (next :: rest) []).map (.table .dotted)
      | some (.table .dotted inner) => (insert value (next :: rest) inner).map (.table .dotted)
      | some (.table .implied inner) =>
        if rest = [] then none else (insert value (next :: rest) inner).map (.table .implied)
      | some (.tables (latest :: others)) =>
        if rest = [] then none
        else (insert value (next :: rest) latest).map fun changed => .tables (changed :: others)
      | _ => none

/-- The members with a change at the end of a header. The way leads through tables of any origin
but complete ones, and through the latest table of a list; tables that are missing are implied. -/
def place (change : Option Value → Option Value) : List String → Members → Option Members
  | [], _ => none
  | [key], members => members.update key change
  | key :: next :: rest, members =>
    members.update key fun
      | none => (place change (next :: rest) []).map (.table .implied)
      | some (.table .inline _) => none
      | some (.table origin inner) => (place change (next :: rest) inner).map (.table origin)
      | some (.tables (latest :: others)) =>
        (place change (next :: rest) latest).map fun changed => .tables (changed :: others)
      | _ => none

end Members

/-! ### Sections -/

/-- What stands before the keys of a section. -/
inductive Header
  /-- Nothing: the section is the start of the document. -/
  | root
  /-- The name of a table. -/
  | table (path : List String)
  /-- The name of a list of tables, to which the section adds one. -/
  | element (path : List String)
  deriving Repr

/-- A header and the keys and values under it. -/
structure Section where
  header : Header
  pairs : List (List String × Value)
  deriving Repr

namespace Section

/-- Members with the pairs of a section added. -/
def fill (contents : Section) (members : Members) : Option Members :=
  contents.pairs.foldlM (fun filled (path, value) => filled.insert value path) members

/-- The table of the document with a section added. -/
def addTo (document : Members) (contents : Section) : Option Members :=
  match contents.header with
  | .root => contents.fill document
  | .table path =>
    document.place (fun
      | none => (contents.fill []).map (.table .header)
      | some (.table .implied members) => (contents.fill members).map (.table .header)
      | some _ => none) path
  | .element path =>
    document.place (fun
      | none => (contents.fill []).map fun members => .tables [members]
      | some (.tables elements) =>
        (contents.fill []).map fun members => .tables (members :: elements)
      | some _ => none) path

end Section

end FilterLists.Toml
