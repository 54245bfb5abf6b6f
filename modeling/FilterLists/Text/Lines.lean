/-
This file says what the lines of a document are. A line ends at a line feed, or at a carriage
return followed by a line feed; the end of the document also ends a line, unless nothing stands
after the last line feed. A carriage return anywhere else belongs to its line.
-/

import FilterLists.Text.Split

namespace FilterLists.Text

/-- A line without the carriage return that stood before its line feed. -/
def dropReturn (line : List Char) : List Char :=
  (dropLast? '\r' line).getD line

/-- Makes lines of the pieces between line feeds: every piece but the last was followed by a line
feed, and the last one is a line only if something stands in it. -/
def linesOfPieces : List (List Char) → List (List Char)
  | [] => []
  | [last] => if last.isEmpty then [] else [last]
  | piece :: next :: rest => dropReturn piece :: linesOfPieces (next :: rest)

/-- The lines of a document, without their line ends. -/
def lines (document : List Char) : List (List Char) :=
  linesOfPieces (splitOn '\n' document)

end FilterLists.Text
