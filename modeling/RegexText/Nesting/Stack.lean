/-!
# Nesting of brackets and quotes

The brackets and quotes that are open at a place are kept as the stack of the characters that close
them, the innermost first. `Stack.observe` says what one more bracket or quote does to it.

Inside a quote only the quote mark that closes it counts. A closing bracket whose partner lies
deeper in the stack closes all that lies above it, and one that has no partner at all is malformed.
-/

namespace RegexText.Nesting

/-- The closing characters of the open brackets and quotes, the innermost first. -/
abbrev Stack := List Char

/-- What a bracket or quote did. -/
inductive Reaction where
  | opened
  | closed
  /-- It closed a bracket and all that was open inside it. -/
  | truncated
  /-- It counted for nothing: it stands in a quote, or closes a bracket while none is open. -/
  | ignored
  /-- It closes a bracket that is not open, while others are. -/
  | malformed
  deriving DecidableEq

/-- Whether `c` opens and closes a quote. -/
def isQuote (c : Char) : Bool := c == '"' || c == '\''

/-- The character that closes what `c` opens. -/
def closerOf? (c : Char) : Option Char :=
  match c with
  | '(' => some ')'
  | '[' => some ']'
  | '\x7b' => some '\x7d'
  | '"' => some '"'
  | '\'' => some '\''
  | _ => none

/-- Whether `c` is a bracket or a quote mark. -/
def isPairing (c : Char) : Bool :=
  (closerOf? c).isSome || c == ')' || c == ']' || c == '\x7d'

namespace Stack

/-- What `c` does where it does not close the innermost bracket or quote and no quote is open. -/
def observeInside (s : Stack) (c : Char) : Reaction × Stack :=
  match closerOf? c with
  | some closer => (.opened, closer :: s)
  | none =>
    if s.contains c then (.truncated, (s.dropWhile (· != c)).tail)
    else if s.isEmpty then (.ignored, s)
    else (.malformed, s)

/-- What the bracket or quote `c` does, and the stack after it. -/
def observe (s : Stack) (c : Char) : Reaction × Stack :=
  match s with
  | [] => observeInside [] c
  | innermost :: outer =>
    if innermost == c then (.closed, outer)
    else if isQuote innermost then (.ignored, s)
    else s.observeInside c

end Stack

end RegexText.Nesting
