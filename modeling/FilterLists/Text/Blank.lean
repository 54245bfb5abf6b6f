/-
This file says which characters count as blank and takes them off the ends of a text. Every part
of the library that ignores surrounding blanks -- lines, option tokens, domains, selectors --
trims with the functions of this file, so "blank" means one thing throughout: the white space of
the Unicode standard.
-/

namespace FilterLists.Text

/-- The characters that the Unicode standard lists as white space. The information separators
`U+001C` to `U+001F`, the zero width space and the byte order mark are not among them. -/
def isBlank (character : Char) : Bool :=
  let code := character.toNat
  (0x09 ≤ code && code ≤ 0x0D) || code == 0x20 || code == 0x85 || code == 0xA0
    || code == 0x1680 || (0x2000 ≤ code && code ≤ 0x200A) || code == 0x2028 || code == 0x2029
    || code == 0x202F || code == 0x205F || code == 0x3000

/-- What is left of a text without the blanks that it starts with. -/
def trimStart (text : List Char) : List Char :=
  text.dropWhile isBlank

/-- What is left of a text without the blanks that it ends with. -/
def trimEnd (text : List Char) : List Char :=
  (text.reverse.dropWhile isBlank).reverse

/-- What is left of a text without the blanks at either end. -/
def trim (text : List Char) : List Char :=
  trimEnd (trimStart text)

end FilterLists.Text
