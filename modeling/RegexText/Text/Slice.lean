import RegexText.Text.Basic

/-!
# Slices by signed positions

A position counts characters from the start of a text or, if it is negative, from its end.
-/

namespace RegexText.Text

/-- Where position `i` lies in a text of `n` characters, counted from its start. It may lie outside
the text on either side. -/
def resolve (n : Nat) (i : Int) : Int :=
  if i < 0 then n + i else i

/-- The characters of `t` from position `start` up to, and without, position `stop`, which is the
end of the text if it is absent. What lies outside the text does not count, and a slice that ends
before it starts is empty. -/
def sliceSigned (t : Text) (start : Int) (stop : Option Int) : Text :=
  let first := resolve t.length start
  if t.length < first then []
  else
    let first := max first 0
    let last := (stop.map (resolve t.length)).getD t.length
    let last := min (max last first) t.length
    (t.drop first.toNat).take (last - first).toNat

end RegexText.Text
