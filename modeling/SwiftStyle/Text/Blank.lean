import SwiftStyle.Text.CodeRange

/-!
# White space

The characters with the property White_Space: the ASCII blanks from tab
to carriage return, the space, next line, the no-break space and the
spaces and separators of the other blocks.
-/

namespace SwiftStyle.Text

/-- The white space outside ASCII. -/
def blankRuns : List CodeRun :=
  [(0x85, 0x85), (0xA0, 0xA0), (0x1680, 0x1680), (0x2000, 0x200A),
   (0x2028, 0x2029), (0x202F, 0x202F), (0x205F, 0x205F), (0x3000, 0x3000)]

/-- Whether a character is white space. -/
def isBlank (c : Char) : Bool :=
  if c.toNat < 128 then
    c == ' ' || (decide (9 ≤ c.toNat) && decide (c.toNat ≤ 13))
  else inRuns blankRuns c

/-- A text without the white space at its two ends. -/
def trimBlank (text : List Char) : List Char :=
  ((text.dropWhile isBlank).reverse.dropWhile isBlank).reverse

end SwiftStyle.Text
