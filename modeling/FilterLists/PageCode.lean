/-
This file builds code that runs in pages. All such code is one function that is called at once, so
that its names stay its own, and is put together from lines: the lines inside a block are
indented by four blanks more than the lines around it.
-/

namespace FilterLists.PageCode

/-- A line one level further in. A blank line stays blank. -/
def indent (line : String) : String :=
  if line.isEmpty then line else "    " ++ line

/-- A block: its lines between an opening and a closing line. -/
def block (opening : String) (lines : List String) (closing : String) : List String :=
  opening :: lines.map indent ++ [closing]

/-- A function in strict mode that is called at once. -/
def closure (lines : List String) : List String :=
  block "(function () \x7b" ("'use strict';" :: lines) "\x7d)();"

/-- Lines as text, with a line feed between any two. -/
def join (lines : List String) : String :=
  String.intercalate "\n" lines

end FilterLists.PageCode
