import RegexText.Lexer.State

/-!
# The tokens of a text

`lex` cuts a text into tokens by taking steps as long as there are any. A text of `n` characters is
cut at most `n` times. Between two cuts each of the indices `floor` and `offset` has at most `n + 1`
values: `floor` never shrinks, `offset` grows while `floor` stays, and the nesting is found
malformed at most once. So `stepBound n` steps are enough.
-/

namespace RegexText.Lexer

/-- A number of steps in which the lexer comes to the end of a text of `n` characters. -/
def stepBound (n : Nat) : Nat := 2 * ((n + 1) * (n + 1) * (n + 1))

namespace State

/-- The state after at most `steps` steps. -/
def run (sep : Pattern) (o : Options) : (steps : Nat) → State → State
  | 0, s => s
  | steps + 1, s =>
    match s.step sep o with
    | none => s
    | some s => run sep o steps s

/-- The state with all that is left made a token, unless nothing is left. -/
def finish (o : Options) (s : State) : State :=
  if s.text.isEmpty then s else s.push o s.text

end State

/-- The end of the lexer's work on `code`. -/
def process (sep : Pattern) (o : Options) (code : Text) : State :=
  (State.run sep o (stepBound code.length) { text := code }).finish o

/-- The tokens of `code`, without empty ones. -/
def lex (sep : Pattern) (o : Options) (code : Text) : List Text :=
  (process sep o code).tokens.reverse.filter (!·.isEmpty)

/-- The lines that report how the tokens of `code` were made. -/
def trace (sep : Pattern) (o : Options) (code : Text) : List Text :=
  (process sep o code).events.reverse.map Event.line

end RegexText.Lexer
