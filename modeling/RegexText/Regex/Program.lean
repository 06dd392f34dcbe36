import RegexText.Regex.Expr

/-!
# Programs

A regular expression is run as a list of instructions. `Expr.code` lays an expression out as a block
that is entered at its first instruction and left at the one after its last, so that blocks compose
by being put side by side.
-/

namespace RegexText.Regex

/-- An instruction. Unless it says otherwise, the next instruction follows. -/
inductive Instr where
  /-- Reads one character of the class. -/
  | chars (s : CharClass)
  /-- Goes on where the assertion holds. -/
  | assert (a : Assertion)
  /-- Records the position as bound `slot`. -/
  | mark (slot : Nat)
  /-- Goes on at `target`. -/
  | jump (target : Nat)
  /-- Goes on at `first`, or else at `second`. -/
  | split (first second : Nat)
  /-- Ends a match. -/
  | accept

/-- The number of the bound at which group `i` starts. -/
def startSlot (i : Nat) : Nat := 2 * i

/-- The number of the bound at which group `i` ends. -/
def stopSlot (i : Nat) : Nat := 2 * i + 1

/-- The block of the expression, laid out from instruction `k` on. -/
def Expr.code (k : Nat) : Expr → List Instr
  | empty => []
  | chars s => [.chars s]
  | assert a => [.assert a]
  | seq a b =>
    let first := a.code k
    first ++ b.code (k + first.length)
  | alt a b =>
    let first := a.code (k + 1)
    let middle := k + 2 + first.length
    let second := b.code middle
    .split (k + 1) middle :: first ++ .jump (middle + second.length) :: second
  | plus greedy a =>
    let body := a.code k
    let exit := k + body.length + 1
    body ++ [if greedy then .split k exit else .split exit k]
  | group i a => .mark (startSlot i) :: a.code (k + 1) ++ [.mark (stopSlot i)]

/-- The instructions of a whole regular expression. -/
abbrev Program := Array Instr

/-- The program that matches the expression. -/
def Expr.program (e : Expr) : Program :=
  (e.code 0 ++ [Instr.accept]).toArray

end RegexText.Regex
