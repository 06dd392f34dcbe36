import RegexText.Nesting.Symbol
import RegexText.Pattern.Find

/-!
# Looking for the end of a token

A token ends at a match of the separator that lies outside all brackets and quotes. A scan looks for
it in the text that has not been cut off yet: `offset` is how far that text has been looked through,
and `floor` the place to go back to when the nesting turns out to be broken. What lies before
`floor` is never searched. `Scan.move?` decides what comes next.

* Where nothing is open, a bracket or quote mark counts only if it comes before the next separator.
* Where something is open, separators do not count.
* A malformed mark takes the scan back to `floor`, and the token then ends at the next separator,
  whatever the nesting.
* Where something is open and no mark is left, it is given up, and the scan goes on just past the
  first mark after `floor`, which becomes the new floor.
-/

namespace RegexText.Lexer

/-- How far the search for the end of a token has come. -/
structure Scan where
  /-- The index from which separators and marks are looked for. -/
  offset : Nat := 0
  /-- The least index that the scan goes back to: where the scan started, and later just past the
  mark at which it last gave up what was open. -/
  floor : Nat := 0
  /-- What is open at `offset`. -/
  stack : Nesting.Stack := []
  /-- Whether nesting is disregarded up to the next separator. -/
  malformed : Bool := false

/-- What a scan does next. -/
inductive Move where
  /-- It goes past a bracket or quote mark. -/
  | pass (y : Nesting.Symbol)
  /-- It gives up what is open and goes on after a mark that it has been at before. -/
  | resync (y : Nesting.Symbol)
  /-- It ends the token at a separator. -/
  | cut (m : Match)

namespace Scan

/-- The scan that starts at index `i`. -/
def startAt (i : Nat) : Scan := { offset := i, floor := i }

/-- The next separator in `rest`. An empty one right at `floor` would cut nothing off, so the next
one is looked for beyond it. -/
def nextSeparator? (sep : Pattern) (rest : Text) (s : Scan) : Option Match :=
  match sep.matchFirst rest s.offset with
  | none => none
  | some m =>
    if m.index == s.floor && m.lastIndex.isNone then sep.matchFirst rest (s.floor + 1) else some m

/-- What comes next where something is open. -/
def moveInside? (rest : Text) (s : Scan) : Option Move :=
  match Nesting.nextSymbol? rest s.offset with
  | some y => some (.pass y)
  | none => (Nesting.nextSymbol? rest s.floor).map .resync

/-- What comes next where nothing is open. -/
def moveOutside? (sep : Pattern) (rest : Text) (s : Scan) : Option Move :=
  match s.nextSeparator? sep rest with
  | none => none
  | some m =>
    match Nesting.nextSymbol? rest s.offset with
    | some y => if y.start < m.index then some (.pass y) else some (.cut m)
    | none => some (.cut m)

/-- What comes next in `rest`, if anything: a scan ends where the text ends or no separator is left.
-/
def move? (sep : Pattern) (rest : Text) (s : Scan) : Option Move :=
  if rest.length ≤ s.offset then none
  else if s.malformed then (s.nextSeparator? sep rest).map .cut
  else if s.stack.isEmpty then s.moveOutside? sep rest
  else s.moveInside? rest

/-- The scan after the mark `y`. -/
def pass (s : Scan) (y : Nesting.Symbol) : Scan :=
  if y.escaped then { s with offset := y.stop }
  else
    match s.stack.observe y.char with
    | (.malformed, _) => { s with offset := s.floor, malformed := true }
    | (_, stack) => { s with offset := y.stop, stack }

end Scan

end RegexText.Lexer
