/-
This file brings texts to a width, so that what is shown below each other lines up.
-/

namespace FilterLists.Text

/-- A text with blanks after it, up to a width. -/
def padRight (width : Nat) (text : String) : String :=
  text ++ String.ofList (List.replicate (width - text.length) ' ')

/-- A text with blanks before it, up to a width. -/
def padLeft (width : Nat) (text : String) : String :=
  String.ofList (List.replicate (width - text.length) ' ') ++ text

end FilterLists.Text
