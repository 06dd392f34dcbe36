import RegexText.Lexer.Scan

/-!
# Lexer events

What a lexer reports about its way through a text, and the lines that it reports it in.
-/

namespace RegexText.Lexer

/-- Something that is reported. -/
inductive Event where
  /-- A bracket or quote mark changed the stack, or was malformed. The character is the mark itself
  or, if it opened something, the one that will close it; the stack is the one after the change. -/
  | nesting (reaction : Nesting.Reaction) (char : Char) (stack : Nesting.Stack)
  /-- What was open was given up at a mark with index `index`, and the new floor is `floor`. -/
  | resync (index floor : Nat)
  /-- A token was made. -/
  | token (t : Text)

/-- What is reported of a scan that goes past the mark `y`: what the mark does, unless it is
escaped. -/
def Event.ofPass (s : Scan) (y : Nesting.Symbol) : Option Event :=
  if y.escaped then none
  else
    match s.stack.observe y.char with
    | (.opened, stack) => some (.nesting .opened (stack.headD y.char) stack)
    | (.ignored, _) => none
    | (reaction, stack) => some (.nesting reaction y.char stack)

/-- The word that reports a reaction. -/
def reactionWord : Nesting.Reaction → String
  | .opened => "push"
  | .closed => "pop"
  | .truncated => "truncate"
  | .ignored => "ignore"
  | .malformed => "malformed"

/-- The stack as it is shown, the innermost closing character last. -/
def stackText (s : Nesting.Stack) : Text :=
  '[' :: Text.commaSeparated (s.reverse.map Text.quotedChar) ++ [']']

/-- The line that reports an event. -/
def Event.line : Event → Text
  | nesting reaction char stack =>
    "[lexer:".toList ++ (reactionWord reaction).toList ++ "] symbol=".toList ++
      Text.quotedChar char ++ " stack=".toList ++ stackText stack
  | resync index floor =>
    "[lexer:resync] at=".toList ++ Text.decimal index ++ " floor=".toList ++ Text.decimal floor
  | token t => "[lexer:token] ".toList ++ Text.quoted t

end RegexText.Lexer
