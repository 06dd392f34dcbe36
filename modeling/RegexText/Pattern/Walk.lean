import RegexText.Pattern.Find

/-!
# Walking along matches

A walk is a pattern with a position, from which the next match is looked for. After a match it moves
on just past it, at least by one character, and when nothing is left it goes back to the start.
-/

namespace RegexText

/-- A pattern and the index at which it looks for the next match. -/
structure Walk where
  pattern : Pattern
  position : Nat := 0

namespace Walk

/-- The next match in `t`, and the walk after it. -/
def next (w : Walk) (t : Text) : Option Match × Walk :=
  match w.pattern.matchFirst t w.position with
  | none => (none, { w with position := 0 })
  | some m => (some m, { w with position := m.index + m.text.length.max 1 })

/-- The matches that are left in `t`, each with the position after it. The position grows with every
match and stays inside the text, so the length of the text bounds the steps. -/
def rest (w : Walk) (t : Text) : (steps : Nat) → List (Match × Nat)
  | 0 => []
  | steps + 1 =>
    match w.next t with
    | (none, _) => []
    | (some m, w) => (m, w.position) :: w.rest t steps

/-- All matches from the position of the walk to the end of `t`, each with the position after it. -/
def all (w : Walk) (t : Text) : List (Match × Nat) :=
  w.rest t (t.length + 1)

end Walk

end RegexText
