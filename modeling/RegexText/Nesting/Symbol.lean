import RegexText.Nesting.Stack
import RegexText.Text.Basic

/-!
# Occurrences of brackets and quotes

A bracket or quote mark in a text is escaped if an odd number of backslashes stands just before it.
-/

namespace RegexText.Nesting

/-- A bracket or quote mark in a text. -/
structure Symbol where
  /-- The index of the first of the backslashes before it, or its own. -/
  start : Nat
  /-- The index just after it. -/
  stop : Nat
  char : Char
  escaped : Bool

/-- The first bracket or quote mark in a text that starts at index `i`, after `slashes` backslashes.
-/
def Symbol.scan (i slashes : Nat) : Text → Option Symbol
  | [] => none
  | c :: cs =>
    if c == '\\' then scan (i + 1) (slashes + 1) cs
    else if isPairing c then some ⟨i - slashes, i + 1, c, slashes % 2 == 1⟩
    else scan (i + 1) 0 cs

/-- The first bracket or quote mark of `t` at index `i` or later. Backslashes before `i` do not
count. -/
def nextSymbol? (t : Text) (i : Nat) : Option Symbol :=
  Symbol.scan i 0 (t.drop i)

end RegexText.Nesting
