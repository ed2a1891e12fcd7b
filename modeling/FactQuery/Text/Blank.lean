import FactQuery.Text.Ranges

/-!
# Blank characters

The characters with the property White_Space: 25 of them, in ten ranges. They separate tokens and
are trimmed from a text before it is read as a number. The information separators (U+001C to
U+001F), the zero-width space and the byte order mark are not blank.
-/

namespace FactQuery.Text

/-- The ranges of White_Space. -/
def blankRanges : List (Nat × Nat) :=
  [(0x09, 0x0D), (0x20, 0x20), (0x85, 0x85), (0xA0, 0xA0), (0x1680, 0x1680), (0x2000, 0x200A),
   (0x2028, 0x2029), (0x202F, 0x202F), (0x205F, 0x205F), (0x3000, 0x3000)]

def isBlank (c : Char) : Bool := inRanges c.toNat blankRanges

/-- The text without the blanks at its two ends. -/
def trim (s : List Char) : List Char :=
  ((s.dropWhile isBlank).reverse.dropWhile isBlank).reverse

end FactQuery.Text
