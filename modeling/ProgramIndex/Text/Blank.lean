/-!
Blank characters, and texts with the blanks at their two ends removed.
-/

namespace ProgramIndex.Text

/-- The characters with the Unicode property White_Space. This is wider than the
four blanks that separate the parts of a markup tag. -/
def isBlank (c : Char) : Bool :=
  let n := c.toNat
  (0x09 ≤ n && n ≤ 0x0D) || n == 0x20 || n == 0x85 || n == 0xA0 || n == 0x1680
    || (0x2000 ≤ n && n ≤ 0x200A) || n == 0x2028 || n == 0x2029 || n == 0x202F
    || n == 0x205F || n == 0x3000

def trimStart (text : List Char) : List Char :=
  text.dropWhile isBlank

def trimEnd (text : List Char) : List Char :=
  (text.reverse.dropWhile isBlank).reverse

/-- The text without the blanks at its two ends; blanks inside are kept. -/
def trim (text : List Char) : List Char :=
  trimEnd (trimStart text)

end ProgramIndex.Text
