/-!
# Separator policies

When a text is cut at separators, the separators themselves can be kept in four ways.
-/

namespace RegexText

/-- What becomes of a separator. -/
inductive SeparatorPolicy where
  /-- It is dropped. -/
  | drop
  /-- It is a token of its own. -/
  | alone
  /-- It ends the token before it. -/
  | withPrevious
  /-- It starts the token after it. -/
  | withNext

end RegexText
