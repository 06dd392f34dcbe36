import RegexText.Unicode.Alphabetic
import RegexText.Unicode.Mark
import RegexText.Unicode.Number

/-!
# Word characters

The characters that make up words (`isWordChar`) and the letters and numbers among them
(`isAlphanumeric`).
-/

namespace RegexText.Unicode

/-- The ranges of the general category `Pc` (connector punctuation), the low line among them. -/
def connectorRanges : RangeTable := #[
  (0x5f, 0x5f), (0x203f, 0x2040), (0x2054, 0x2054), (0xfe33, 0xfe34), (0xfe4d, 0xfe4f),
  (0xff3f, 0xff3f)]

/-- Whether `c` joins or separates the letters beside it without showing (zero width joiner and
non-joiner). -/
def isJoinControl (c : Char) : Bool :=
  c.val == 0x200c || c.val == 0x200d

/-- Whether `c` can be part of an ASCII word: a letter, a digit or the low line. -/
def isAsciiWordChar (c : Char) : Bool :=
  c.isAlphanum || c == '_'

/-- Whether `c` can be part of a word: alphabetic, a mark, a decimal digit, connector punctuation or
a join control. -/
def isWordChar (c : Char) : Bool :=
  if c.val < 0x80 then c.isAlphanum || c == '_'
  else
    isAlphabetic c || isMark c || isDecimal c || connectorRanges.contains c || isJoinControl c

/-- Whether `c` is alphabetic or a number of any kind. -/
def isAlphanumeric (c : Char) : Bool :=
  isAlphabetic c || isNumber c

end RegexText.Unicode
