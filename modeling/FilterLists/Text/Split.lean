/-
This file takes texts apart at separators and markers. Filter lists are made of small pieces
between fixed marks -- options between commas, domains between bars, a selector after `##` -- and
each of them is found with one of the functions below. All of them work on lists of characters,
so that what they find can be reasoned about by induction on the text.
-/

namespace FilterLists.Text

/-! ### Splitting at every occurrence of a character -/

/-- The pieces of a text between the occurrences of a separator, from the first to the last.
There is always one piece more than there are separators, so the empty text has one empty
piece. `piece` holds the characters of the current piece, latest first. -/
def splitFrom (separator : Char) (piece : List Char) : List Char → List (List Char)
  | [] => [piece.reverse]
  | character :: rest =>
    if character = separator then piece.reverse :: splitFrom separator [] rest
    else splitFrom separator (character :: piece) rest

/-- The pieces of a text between the occurrences of a separator. -/
def splitOn (separator : Char) (text : List Char) : List (List Char) :=
  splitFrom separator [] text

/-! ### Cutting at the first occurrence of a marker -/

/-- What stands before and what stands after the first occurrence of a marker, or nothing if the
marker does not occur. -/
def cut? (marker : List Char) : List Char → Option (List Char × List Char)
  | [] => if marker = [] then some ([], []) else none
  | character :: rest =>
    match marker.isPrefixOf? (character :: rest) with
    | some after => some ([], after)
    | none => (cut? marker rest).map fun (before, after) => (character :: before, after)

/-- Whether a marker occurs in a text. -/
def contains (marker : List Char) (text : List Char) : Bool :=
  (cut? marker text).isSome

/-- A text without the suffix `last`, or nothing if it does not end so. -/
def dropLast? (last : Char) (text : List Char) : Option (List Char) :=
  if text.getLast? = some last then some text.dropLast else none

theorem eq_append_of_dropLast? {last : Char} {text inner : List Char}
    (found : dropLast? last text = some inner) : text = inner ++ [last] := by
  unfold dropLast? at found
  split at found
  · rename_i isLast
    obtain ⟨front, rfl⟩ := List.getLast?_eq_some_iff.mp isLast
    cases found
    rw [List.dropLast_concat]
  · cases found

/-! ### Joining -/

/-- The pieces in order with a separator between any two neighbours. -/
def join (separator : List Char) : List (List Char) → List Char
  | [] => []
  | [piece] => piece
  | piece :: next :: rest => piece ++ separator ++ join separator (next :: rest)

end FilterLists.Text
