/-!
# Tables of code point ranges

A property of characters is stored as the array of the maximal ranges of code points that have it,
in increasing order. Membership is decided by bisection: `RangeTable.startsUpTo` counts the ranges
that start at or before a code point, and only the last of those can hold it.
-/

namespace RegexText.Unicode

/-- Disjoint ranges of code points in increasing order, each with its first and its last member. -/
abbrev RangeTable := Array (Nat × Nat)

/-- The number of ranges that start at or before `n`, found between `low` and `high`: every range
before `low` starts at or before `n`, and none from `high` on does. -/
def RangeTable.startsUpTo (t : RangeTable) (n : Nat) : (steps low high : Nat) → Nat
  | 0, low, _ => low
  | steps + 1, low, high =>
    if high ≤ low then low
    else
      let middle := (low + high) / 2
      match t[middle]? with
      | none => low
      | some (first, _) =>
        if first ≤ n then t.startsUpTo n steps (middle + 1) high
        else t.startsUpTo n steps low middle

/-- Whether some range of the table holds the character `c`. -/
def RangeTable.contains (t : RangeTable) (c : Char) : Bool :=
  match t.startsUpTo c.toNat t.size 0 t.size with
  | 0 => false
  | k + 1 =>
    match t[k]? with
    | none => false
    | some (_, last) => c.toNat ≤ last

end RegexText.Unicode
