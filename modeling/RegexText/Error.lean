import RegexText.Regex.SyntaxError
import RegexText.Text.Basic

/-!
# Errors

The ways in which the building of a pattern fails. Everything else in the library is total and
reports absence by `none` or by an empty list.
-/

namespace RegexText

/-- Why a pattern cannot be built. -/
inductive PatternError where
  /-- The letter `flag` of `flags` names no flag. -/
  | unsupportedFlag (flag : Char) (flags : Text)
  /-- `pattern` is not the written form of a regular expression. -/
  | invalidPattern (pattern : Text) (cause : Regex.SyntaxError)

namespace PatternError

/-- What is wrong, up to the cause that reading the pattern gave. -/
def headline : PatternError → Text
  | unsupportedFlag flag flags =>
    "unsupported flag '".toList ++ flag :: "' in \"".toList ++ flags ++
      "\" (expected any of \"imsg\")".toList
  | invalidPattern pattern _ => "invalid pattern /".toList ++ pattern ++ "/: ".toList

/-- The error in words. -/
def message (e : PatternError) : Text :=
  match e with
  | unsupportedFlag _ _ => e.headline
  | invalidPattern _ cause => e.headline ++ cause.message.toList

end PatternError

end RegexText
