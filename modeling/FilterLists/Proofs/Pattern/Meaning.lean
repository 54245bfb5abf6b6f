/-
This file says which addresses a filter pattern matches, in the terms of filter lists and without
regular expressions. A pattern that starts with `||` matches from the start of a host label on;
`|address|` matches that address alone; any other pattern matches a part of an address, which a
bar ties to the start or to the end.

What a body matches depends on what stands after the matched part in one case only: the separator
`^` also stands for the end of the address.
-/

import FilterLists.Text.Split

namespace FilterLists.Pattern

/-! ### Kinds of characters -/

/-- Whether a character separates the parts of an address. -/
def isSeparator (character : Char) : Bool :=
  !(character.isAlphanum || ['%', '.', '_', '-'].contains character)

/-- Whether a character may stand in a scheme after its first letter. -/
def isSchemeChar (character : Char) : Bool :=
  character.isLower || character.isDigit || ['+', '.', '-'].contains character

/-- Whether a character may stand in a label of a host name. -/
def isLabelChar (character : Char) : Bool :=
  character.isLower || character.isDigit || ['_', '-'].contains character

/-- Whether a character is a printable one of ASCII and no blank. -/
def isPrintable (character : Char) : Bool :=
  0x21 ≤ character.toNat && character.toNat ≤ 0x7E

/-! ### Starts of addresses -/

/-- A scheme and the mark after it, such as `https://`. -/
inductive IsScheme : List Char → Prop
  | intro {first : Char} {rest : List Char} :
    first.isLower = true → (∀ character ∈ rest, isSchemeChar character = true) →
      IsScheme (first :: (rest ++ [':', '/', '/']))

/-- A label of a host name, without dots. -/
def IsLabel (label : List Char) : Prop :=
  label ≠ [] ∧ ∀ character ∈ label, isLabelChar character = true

instance (label : List Char) : Decidable (IsLabel label) :=
  decidable_of_iff (label ≠ [] ∧ label.all isLabelChar = true)
    (and_congr_right fun _ => List.all_eq_true)

/-- Labels of a host name, each with a dot after it. -/
inductive AreLabels : List Char → Prop
  | nil : AreLabels []
  | cons {label rest : List Char} :
    IsLabel label → AreLabels rest → AreLabels (label ++ '.' :: rest)

/-! ### Bodies -/

/-- Whether a body matches a part of an address that has `after` behind it: `*` any run of
characters, `?` any one character, `^` a separator or the end of the address, and every other
character itself. -/
inductive Covers : (body found after : List Char) → Prop
  | done {after : List Char} : Covers [] [] after
  | run {run body found after : List Char} :
    Covers body found after → Covers ('*' :: body) (run ++ found) after
  | anyChar {character : Char} {body found after : List Char} :
    Covers body found after → Covers ('?' :: body) (character :: found) after
  | separator {character : Char} {body found after : List Char} :
    isSeparator character = true → Covers body found after →
      Covers ('^' :: body) (character :: found) after
  | ending {body : List Char} : Covers body [] [] → Covers ('^' :: body) [] []
  | same {character : Char} {body found after : List Char} :
    character ∉ ['*', '?', '^'] → Covers body found after →
      Covers (character :: body) (character :: found) after

/-- Whether a body matches a part of an address, where a bar at the end of the body ties the part
to the end of the address. -/
def CoversClosed (body found after : List Char) : Prop :=
  match Text.dropLast? '|' body with
  | some inner => after = [] ∧ Covers inner found after
  | none => Covers body found after

/-! ### Patterns -/

/-- Whether a pattern without its leading `||` matches an address: after an optional scheme and
any number of labels, the address goes on with what the pattern says. -/
def MatchesAtHost (rest address : List Char) : Prop :=
  ∃ scheme labels found after, address = scheme ++ labels ++ found ++ after ∧
    (scheme = [] ∨ IsScheme scheme) ∧ AreLabels labels ∧ CoversClosed rest found after

/-- Whether a pattern matches an address. -/
def Matches : (pattern address : List Char) → Prop
  | '|' :: '|' :: rest, address => MatchesAtHost rest address
  | '|' :: rest, address =>
    match Text.dropLast? '|' rest with
    | some exact => address = exact
    | none => ∃ found after, address = found ++ after ∧ Covers rest found after
  | pattern, address =>
    ∃ before found after, address = before ++ found ++ after ∧ CoversClosed pattern found after

end FilterLists.Pattern
