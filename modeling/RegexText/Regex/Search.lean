import RegexText.Regex.Parser
import RegexText.Regex.Run

/-!
# Searching

A search finds the leftmost match: at each position in turn the program is started afresh, and the
first start from which it accepts is taken (`Regex.scan`). `Regex.findAll` lists successive matches,
which do not overlap.
-/

namespace RegexText

/-- A stretch of a text: from index `start` up to, and without, index `stop`. -/
structure Span where
  start : Nat
  stop : Nat

namespace Span

/-- The stretch of `t` that the span names. -/
def text (s : Span) (t : Text) : Text := t.slice s.start s.stop

/-- Whether the span holds no character. -/
def isEmpty (s : Span) : Bool := s.stop ≤ s.start

end Span

/-- A compiled regular expression. -/
structure Regex where
  program : Regex.Program
  /-- The number of groups, the whole match among them as group 0. -/
  groupCount : Nat

namespace Regex

/-- What a match consists of. -/
structure Captures where
  /-- The whole match. -/
  whole : Span
  /-- The groups from group 1 on; absent are those that took no part in the match. -/
  groups : List (Option Span)

/-- Compiles an expression. -/
def ofExpr (e : Expr) : Regex :=
  ⟨e.program, e.groupCount⟩

/-- Reads and compiles a pattern. -/
def compile (m : Modes) (pattern : Text) : Except SyntaxError Regex :=
  (parse m pattern).map ofExpr

/-- The span of group `i` by the latest bounds recorded for it. -/
def groupSpan? (marks : Marks) (i : Nat) : Option Span := do
  let start ← marks.lookup (startSlot i)
  let stop ← marks.lookup (stopSlot i)
  pure ⟨start, stop⟩

/-- The match that starts at position `pos`, after `before` and before `rest`. -/
def matchAt? (re : Regex) (before : Option Char) (pos : Nat) (rest : Text) : Option Captures :=
  let threads := re.program.threadsFrom ⟨before, rest.head?⟩ pos [⟨0, []⟩]
  (re.program.run pos threads rest).map fun (stop, marks) =>
    ⟨⟨pos, stop⟩, (List.range' 1 (re.groupCount - 1)).map (groupSpan? marks)⟩

/-- The match with the least start at or after position `pos`. -/
def scan (re : Regex) (before : Option Char) (pos : Nat) (rest : Text) : Option Captures :=
  match re.matchAt? before pos rest with
  | some m => some m
  | none =>
    match rest with
    | [] => none
    | c :: cs => re.scan (some c) (pos + 1) cs

/-- The leftmost match in `t` that starts at index `i` or later. The characters before `i` can be
seen by assertions. -/
def find? (re : Regex) (t : Text) (i : Nat) : Option Captures :=
  if i ≤ t.length then re.scan (t.before? i) i (t.drop i) else none

/-- The next of the successive matches, after a match that ended at index `i`. A match is not
followed by an empty one at its end. -/
def findNext? (re : Regex) (t : Text) (i : Nat) : Option Captures :=
  match re.find? t i with
  | none => none
  | some m =>
    if m.whole.isEmpty && m.whole.stop == i then re.find? t (i + 1) else some m

/-- The matches after one that ended at index `i`. Each ends later than the one before, so the
length of the text bounds their number. -/
def findMore (re : Regex) (t : Text) : (steps i : Nat) → List Captures
  | 0, _ => []
  | steps + 1, i =>
    match re.findNext? t i with
    | none => []
    | some m => m :: re.findMore t steps m.whole.stop

/-- The successive matches in `t`, from the left. -/
def findAll (re : Regex) (t : Text) : List Captures :=
  match re.find? t 0 with
  | none => []
  | some m => m :: re.findMore t (t.length + 1) m.whole.stop

end Regex

end RegexText
