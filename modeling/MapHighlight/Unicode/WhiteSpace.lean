import MapHighlight.Unicode.CodePointRanges

/-!
# White space

The characters with the property White_Space of Unicode 16.0. The property is wider than ASCII
blanks: it holds of the no-break space, the ideographic space and the two separators as well.
-/

namespace MapHighlight.Unicode

/-- The code points with the property White_Space. -/
def whiteSpaceRanges : CodePointRanges :=
  [(0x9, 0xd), (0x20, 0x20), (0x85, 0x85), (0xa0, 0xa0), (0x1680, 0x1680), (0x2000, 0x200a),
   (0x2028, 0x2029), (0x202f, 0x202f), (0x205f, 0x205f), (0x3000, 0x3000)]

/-- Whether a character has the property White_Space. -/
def isWhiteSpace (c : Char) : Bool :=
  whiteSpaceRanges.contains c

end MapHighlight.Unicode
