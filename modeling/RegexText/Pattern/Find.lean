import RegexText.Pattern.Basic
import RegexText.Pattern.Match

/-!
# Matching at an offset

Every operation that takes an offset works on the rest of the text from there, as if the text began
there, and counts indices from the start of the whole text. A match is looked for only at an offset
inside the text, while `test` also looks at its end.
-/

namespace RegexText.Pattern

/-- Whether the pattern matches somewhere in `t` from `offset` on. -/
def test (p : Pattern) (t : Text) (offset : Nat) : Bool :=
  if t.length < offset then false else (p.regex.find? (t.drop offset) 0).isSome

/-- The first match in `t` from `offset` on. -/
def matchFirst (p : Pattern) (t : Text) (offset : Nat) : Option Match :=
  if t.length ≤ offset then none
  else
    let rest := t.drop offset
    (p.regex.find? rest 0).map (Match.ofCaptures rest offset)

/-- All matches in `t` from `offset` on, gathered in one. -/
def matchAll (p : Pattern) (t : Text) (offset : Nat) : Option Match :=
  if t.length ≤ offset then none
  else
    let rest := t.drop offset
    match (p.regex.findAll rest).map (·.whole) with
    | [] => none
    | first :: more => some (Match.ofOccurrences rest offset first more)

/-- What the pattern matches in `t` from `offset` on: all matches if the pattern is global and
`single` does not ask for one, else the first. -/
def matchWith (p : Pattern) (t : Text) (offset : Nat) (single : Bool) : Option Match :=
  if p.flags.global && !single then p.matchAll t offset else p.matchFirst t offset

/-- What the pattern matches in `t` from `offset` on, as its flags ask. -/
def matchAt (p : Pattern) (t : Text) (offset : Nat) : Option Match :=
  p.matchWith t offset false

end RegexText.Pattern
