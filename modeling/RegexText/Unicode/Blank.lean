import RegexText.Unicode.RangeTable

/-!
# Blanks and controls

The Unicode property `White_Space`, the line breaks among its members, and the control characters.
-/

namespace RegexText.Unicode

/-- The ranges of the property `White_Space`. -/
def whiteSpaceRanges : RangeTable := #[
  (0x9, 0xd), (0x20, 0x20), (0x85, 0x85), (0xa0, 0xa0), (0x1680, 0x1680), (0x2000, 0x200a),
  (0x2028, 0x2029), (0x202f, 0x202f), (0x205f, 0x205f), (0x3000, 0x3000)]

/-- Whether `c` has the property `White_Space`. -/
def isWhiteSpace (c : Char) : Bool :=
  if c.val < 0x80 then c.val == 0x20 || 0x9 ≤ c.val && c.val ≤ 0xd
  else whiteSpaceRanges.contains c

/-- Whether `c` ends a line: line feed, vertical tab, form feed, carriage return, next line, or the
line or paragraph separator. -/
def isLineBreak (c : Char) : Bool :=
  0xa ≤ c.val && c.val ≤ 0xd || c.val == 0x85 || c.val == 0x2028 || c.val == 0x2029

/-- Whether `c` is a control character (general category `Cc`). -/
def isControl (c : Char) : Bool :=
  c.val < 0x20 || 0x7f ≤ c.val && c.val < 0xa0

end RegexText.Unicode
