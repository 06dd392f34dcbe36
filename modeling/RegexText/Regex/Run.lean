import RegexText.Regex.Program
import RegexText.Text.Basic

/-!
# Running programs

A program is run over a text by keeping, at each position, the list of the threads that can go on
from there, the preferred ones first. `Program.follow` walks from an instruction to all those that
read a character or accept, taking no instruction twice at one position: the first way to reach it
is the preferred one, and a loop that reads nothing ends there. `Program.run` then takes all threads
over one character after the other. A thread that accepts cuts off those behind it, while those
before it may still find the match that is preferred.
-/

namespace RegexText.Regex

/-- The bounds of groups recorded so far, the latest first. -/
abbrev Marks := List (Nat × Nat)

/-- A way to go on: an instruction that reads or accepts, and what was recorded before it. -/
structure Thread where
  place : Nat
  marks : Marks

/-- What has been found at one position. -/
structure Frontier where
  /-- The instructions visited, as the bits of a number. -/
  seen : Nat := 0
  /-- The threads found, the latest first. -/
  threads : List Thread := []

namespace Frontier

/-- Whether instruction `k` has been visited. -/
def hasSeen (f : Frontier) (k : Nat) : Bool := f.seen.testBit k

/-- The frontier after a visit to instruction `k`. -/
def visit (f : Frontier) (k : Nat) : Frontier := { f with seen := f.seen ||| (1 <<< k) }

/-- The frontier with one more thread. -/
def push (f : Frontier) (t : Thread) : Frontier := { f with threads := t :: f.threads }

end Frontier

namespace Program

/-- Follows the instructions from `k` on that read nothing, at position `pos` between `sides`, and
adds the threads found to the frontier. Each step visits an instruction for the first time, so the
number of instructions bounds the depth. -/
def follow (p : Program) (sides : Sides) (pos : Nat) :
    (depth k : Nat) → Marks → Frontier → Frontier
  | 0, _, _, f => f
  | depth + 1, k, marks, f =>
    if f.hasSeen k then f
    else
      let f := f.visit k
      match p[k]? with
      | none => f
      | some (.chars _) | some .accept => f.push ⟨k, marks⟩
      | some (.assert a) => if a.holds sides then p.follow sides pos depth (k + 1) marks f else f
      | some (.mark slot) => p.follow sides pos depth (k + 1) ((slot, pos) :: marks) f
      | some (.jump target) => p.follow sides pos depth target marks f
      | some (.split first second) =>
        p.follow sides pos depth second marks (p.follow sides pos depth first marks f)

/-- The threads, from the preferred one on, that go on from the instructions `starts`. -/
def threadsFrom (p : Program) (sides : Sides) (pos : Nat) (starts : List Thread) : List Thread :=
  let f := starts.foldl (fun f t => p.follow sides pos (p.size + 1) t.place t.marks f) {}
  f.threads.reverse

/-- The threads after `c` has been read by those of `threads` that can. -/
def advance (p : Program) (c : Char) (threads : List Thread) : List Thread :=
  threads.filterMap fun (t : Thread) =>
    match p[t.place]? with
    | some (.chars s) => if s.contains c then some ⟨t.place + 1, t.marks⟩ else none
    | _ => none

/-- Whether the thread stands at the end of a match. -/
def accepts (p : Program) (t : Thread) : Bool :=
  match p[t.place]? with
  | some .accept => true
  | _ => false

/-- Runs the threads over what follows position `pos`, and gives the end of the preferred match with
what was recorded on the way. -/
def run (p : Program) (pos : Nat) (threads : List Thread) : Text → Option (Nat × Marks)
  | [] => (threads.find? p.accepts).map fun t => (pos, t.marks)
  | c :: cs =>
    let accepted := (threads.find? p.accepts).map fun t => (pos, t.marks)
    match p.advance c (threads.takeWhile (!p.accepts ·)) with
    | [] => accepted
    | moved =>
      (p.run (pos + 1) (p.threadsFrom ⟨some c, cs.head?⟩ (pos + 1) moved) cs).or accepted

end Program

end RegexText.Regex
