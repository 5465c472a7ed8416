/-
  PropertyGraph.Text.Blank
  ────────────────────────
  **WHITE SPACE AT THE ENDS OF A LINE.**

  The 25 characters that the Unicode standard calls white space; lines typed
  into the shell are trimmed of them.
-/
import PropertyGraph.Text.Range

namespace PropertyGraph.Text

/-- Ranges of white space in ascending order, both ends included. -/
def blankRanges : List (Nat × Nat) :=
  [(0x09, 0x0D), (0x20, 0x20), (0x85, 0x85), (0xA0, 0xA0), (0x1680, 0x1680), (0x2000, 0x200A),
    (0x2028, 0x2029), (0x202F, 0x202F), (0x205F, 0x205F), (0x3000, 0x3000)]

/-- Is the character white space? -/
def isWhiteSpace (c : Char) : Bool := inRanges blankRanges c

/-- The text without white space at its beginning. -/
def trimLeft (text : List Char) : List Char := text.dropWhile isWhiteSpace

/-- The text without white space at either end. -/
def trim (text : List Char) : List Char := (trimLeft (trimLeft text).reverse).reverse

end PropertyGraph.Text
