/-!
# Rejected patterns

The reasons why a text is not the written form of a regular expression.
-/

namespace RegexText.Regex

/-- What is wrong with a pattern. -/
inductive SyntaxError where
  | unclosedGroup
  | unopenedGroup
  | unclosedBracket
  | unfinishedEscape
  | unknownEscape
  | backreference
  | lookaround
  | invalidHexDigit
  | invalidCodePoint
  | unknownProperty
  | unicodeNotAllowed
  | invalidUtf8
  | unknownBoundary
  | nothingToRepeat
  | unclosedCount
  | invalidCount
  | emptyCount
  | reversedCount
  | invalidGroupName
  | repeatedGroupName
  | unknownMode
  | repeatedMode
  | danglingNegation
  | classInRange
  | assertionInBracket
  | reversedRange

/-- The error in words. -/
def SyntaxError.message : SyntaxError → String
  | unclosedGroup => "unclosed group"
  | unopenedGroup => "unopened group"
  | unclosedBracket => "unclosed character class"
  | unfinishedEscape => "incomplete escape sequence, reached end of pattern prematurely"
  | unknownEscape => "unrecognized escape sequence"
  | backreference => "backreferences are not supported"
  | lookaround => "look-around is not supported"
  | invalidHexDigit => "invalid hexadecimal digit"
  | invalidCodePoint => "hexadecimal literal is not a character"
  | unknownProperty => "Unicode property not found"
  | unicodeNotAllowed => "Unicode not allowed here"
  | invalidUtf8 => "pattern can match invalid UTF-8"
  | unknownBoundary => "unrecognized special word boundary"
  | nothingToRepeat => "repetition operator missing expression"
  | unclosedCount => "unclosed counted repetition"
  | invalidCount => "repetition count too large"
  | emptyCount => "repetition quantifier expects a valid decimal"
  | reversedCount => "invalid repetition count range, the start must not exceed the end"
  | invalidGroupName => "invalid capture group name"
  | repeatedGroupName => "duplicate capture group name"
  | unknownMode => "unrecognized flag"
  | repeatedMode => "duplicate flag"
  | danglingNegation => "dangling flag negation operator"
  | classInRange => "invalid range boundary, must be a literal"
  | assertionInBracket => "invalid escape sequence found in character class"
  | reversedRange => "invalid character class range, the start must not exceed the end"

end RegexText.Regex
