/-!
# Blank text

A name made of white space alone names nothing. White space is the Unicode property `White_Space`,
which is larger than the ASCII class of `Char.isWhitespace`.
-/

namespace SymbolMap.Text

/-- The characters of the Unicode property `White_Space`. -/
def isBlank (c : Char) : Bool :=
  let n := c.toNat
  (0x9 ≤ n && n ≤ 0xd) || n == 0x20 || n == 0x85 || n == 0xa0 || n == 0x1680 ||
    (0x2000 ≤ n && n ≤ 0x200a) || n == 0x2028 || n == 0x2029 || n == 0x202f || n == 0x205f ||
    n == 0x3000

/-- A text is blank when it holds nothing but white space; so the empty text is blank. -/
def allBlank (s : String) : Bool := s.toList.all isBlank

end SymbolMap.Text
