import RegexText.Regex.Assertion
import RegexText.Regex.CharClass

/-!
# Regular expressions

`Expr` has one loop, `plus`: one time or more. All other repetitions are written with it
(`Expr.repeated`). Alternatives are ordered, the left one preferred, so that a greedy choice and a
lazy one differ only in their order.
-/

namespace RegexText.Regex

/-- A regular expression. -/
inductive Expr where
  /-- Reads nothing. -/
  | empty
  /-- Reads one character of a class. -/
  | chars (s : CharClass)
  /-- Reads nothing, where an assertion holds. -/
  | assert (a : Assertion)
  /-- `a` and then `b`. -/
  | seq (a b : Expr)
  /-- `a`, or else `b`. -/
  | alt (a b : Expr)
  /-- `a` one time or more: as often as possible if `greedy`, else as seldom as possible. -/
  | plus (greedy : Bool) (a : Expr)
  /-- `a`, recording what it reads as group `i`. -/
  | group (i : Nat) (a : Expr)

namespace Expr

/-- The expressions `es`, one after the other. -/
def concat : List Expr → Expr
  | [] => empty
  | [e] => e
  | e :: es => seq e (concat es)

/-- The first of the expressions `es` that leads to a match. -/
def firstOf : List Expr → Expr
  | [] => empty
  | [e] => e
  | e :: es => alt e (firstOf es)

/-- Reads exactly the text `t`. -/
def literal (t : List Char) : Expr :=
  concat (t.map fun c => chars (.single c))

/-- `a` or nothing, in the order that `greedy` asks for. -/
def optional (greedy : Bool) (a : Expr) : Expr :=
  if greedy then alt a empty else alt empty a

/-- `a` exactly `n` times. -/
def times (a : Expr) : Nat → Expr
  | 0 => empty
  | 1 => a
  | n + 1 => seq a (times a n)

/-- `a` up to `n` times. -/
def atMost (greedy : Bool) (a : Expr) : Nat → Expr
  | 0 => empty
  | 1 => optional greedy a
  | n + 1 => optional greedy (seq a (atMost greedy a n))

/-- `a` at least `n` times. -/
def atLeast (greedy : Bool) (a : Expr) : Nat → Expr
  | 0 => optional greedy (plus greedy a)
  | 1 => plus greedy a
  | n + 1 => seq (times a n) (plus greedy a)

/-- Whether every match of the expression is empty. -/
def readsNothing : Expr → Bool
  | empty => true
  | chars _ => false
  | assert _ => true
  | seq a b => a.readsNothing && b.readsNothing
  | alt a b => a.readsNothing && b.readsNothing
  | plus _ a => a.readsNothing
  | group _ a => a.readsNothing

/-- How often something may be repeated. -/
structure Count where
  min : Nat
  /-- Absent if there is no bound. -/
  max : Option Nat

/-- A count in which more than one time is no different from one time. -/
def Count.clip (n : Count) : Count :=
  ⟨n.min.min 1, some ((n.max.getD 1).min 1)⟩

/-- `a` as often as `n` allows. Repeating what reads nothing more than once changes nothing, so such
an `a` stands at most once. -/
def repeated (greedy : Bool) (n : Count) (a : Expr) : Expr :=
  let n := if a.readsNothing then n.clip else n
  match n.max with
  | none => atLeast greedy a n.min
  | some m =>
    if m ≤ n.min then times a n.min
    else if n.min = 0 then atMost greedy a m
    else seq (times a n.min) (atMost greedy a (m - n.min))

/-- One more than the highest group number in the expression, and at least one: the whole match is
group 0. -/
def groupCount : Expr → Nat
  | empty | chars _ | assert _ => 1
  | seq a b | alt a b => max a.groupCount b.groupCount
  | plus _ a => a.groupCount
  | group i a => max (i + 1) a.groupCount

end Expr

end RegexText.Regex
