import RegexText.Unicode.Word

/-!
# Assertions

An assertion reads nothing: it holds or fails at a position, and sees no more of the text than the
character before the position and the character after it.
-/

namespace RegexText.Regex

/-- A condition on a position of a text. -/
inductive Assertion where
  | textStart
  | textEnd
  /-- The start of the text, or just after a line feed. -/
  | lineStart
  /-- The end of the text, or just before a line feed. -/
  | lineEnd
  /-- The start of a line that may also end in a carriage return, alone or before a line feed. -/
  | crlfLineStart
  /-- The end of a line that may also end in a carriage return, alone or before a line feed. -/
  | crlfLineEnd
  /-- A word character on one side of the position alone. Here and below `unicode` says whether
  words are made of the word characters of all scripts or of ASCII ones. -/
  | wordBoundary (unicode : Bool)
  | notWordBoundary (unicode : Bool)
  /-- No word character before the position and one after it. -/
  | wordStart (unicode : Bool)
  /-- A word character before the position and none after it. -/
  | wordEnd (unicode : Bool)
  /-- No word character before the position. -/
  | wordStartHalf (unicode : Bool)
  /-- No word character after the position. -/
  | wordEndHalf (unicode : Bool)

/-- The characters on the two sides of a position, absent at the ends of the text. -/
structure Sides where
  before : Option Char
  after : Option Char

/-- Whether a word character stands on a side. -/
def isWordSide (unicode : Bool) (side : Option Char) : Bool :=
  side.any (if unicode then Unicode.isWordChar else Unicode.isAsciiWordChar)

/-- Whether the assertion holds between the two sides. -/
def Assertion.holds (a : Assertion) (s : Sides) : Bool :=
  match a with
  | textStart => s.before.isNone
  | textEnd => s.after.isNone
  | lineStart => s.before.isNone || s.before == some '\n'
  | lineEnd => s.after.isNone || s.after == some '\n'
  | crlfLineStart =>
    s.before.isNone || s.before == some '\n' || (s.before == some '\r' && s.after != some '\n')
  | crlfLineEnd =>
    s.after.isNone || s.after == some '\r' || (s.after == some '\n' && s.before != some '\r')
  | wordBoundary u => isWordSide u s.before != isWordSide u s.after
  | notWordBoundary u => isWordSide u s.before == isWordSide u s.after
  | wordStart u => !isWordSide u s.before && isWordSide u s.after
  | wordEnd u => isWordSide u s.before && !isWordSide u s.after
  | wordStartHalf u => !isWordSide u s.before
  | wordEndHalf u => !isWordSide u s.after

end RegexText.Regex
