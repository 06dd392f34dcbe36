import RegexText.Pattern.Find

/-!
# Replacing matches

`Pattern.replace` puts an expanded template in the place of every match that one search through the
text finds. `Pattern.replaceWith` looks for each match anew in the rest of the text, and replaces it
by what a function makes of it. Both keep the text before the offset, and neither depends on the
flag `g`.
-/

namespace RegexText

/-- `t` from index `i` on with the matches `ms` replaced by what `f` makes of them. -/
def Regex.substituteFrom (t : Text) (f : Regex.Captures → Text) (i : Nat) :
    List Regex.Captures → Text
  | [] => t.drop i
  | m :: ms =>
    t.slice i m.whole.start ++ f m ++ substituteFrom t f m.whole.stop ms

/-- `t` with every match replaced by what `f` makes of it. -/
def Regex.substitute (re : Regex) (t : Text) (f : Regex.Captures → Text) : Text :=
  substituteFrom t f 0 (re.findAll t)

namespace Pattern

/-- `t` with every match from `offset` on replaced by the template. -/
def replace (p : Pattern) (t template : Text) (offset : Nat) : Text :=
  let rest := t.drop offset
  t.take offset ++ p.regex.substitute rest fun c => (Match.ofCaptures rest 0 c).expand template

/-- `t` from `position` on with each match replaced by what `f` makes of it and of its number, the
first that is found here having number `n`. An empty match stands before the character at its index,
which is kept. -/
def replaceFrom (p : Pattern) (t : Text) (f : Nat → Match → Text) :
    (steps n position : Nat) → Text
  | 0, _, position => t.drop position
  | steps + 1, n, position =>
    match p.matchFirst t position with
    | none => t.drop position
    | some m =>
      t.slice position m.index ++ f n m ++
        match m.lastIndex with
        | some last => p.replaceFrom t f steps (n + 1) (last + 1)
        | none => t[m.index]?.toList ++ p.replaceFrom t f steps (n + 1) (m.index + 1)

/-- `t` with each match from `offset` on replaced by what `f` makes of it and of its number, counted
from 0. -/
def replaceWith (p : Pattern) (t : Text) (offset : Nat) (f : Nat → Match → Text) : Text :=
  t.take offset ++ p.replaceFrom t f (t.length + 1) 0 offset

end Pattern

end RegexText
