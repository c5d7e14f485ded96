import PercentFormat.Unicode.Ranges

/-! # White space

The property `White_Space` of Unicode 17.0 and the trimming of text by it. -/

namespace PercentFormat.Unicode

def whiteSpaceRanges : Ranges :=
  [(0x9, 0xd), (0x20, 0x20), (0x85, 0x85), (0xa0, 0xa0), (0x1680, 0x1680), (0x2000, 0x200a),
   (0x2028, 0x2029), (0x202f, 0x202f), (0x205f, 0x205f), (0x3000, 0x3000)]

def isWhiteSpace (c : Char) : Bool :=
  whiteSpaceRanges.contains c.toNat

def trim (cs : List Char) : List Char :=
  ((cs.dropWhile isWhiteSpace).reverse.dropWhile isWhiteSpace).reverse

/-- Text of white space alone, or no text at all. -/
def isBlank (cs : List Char) : Bool :=
  cs.all isWhiteSpace

end PercentFormat.Unicode
