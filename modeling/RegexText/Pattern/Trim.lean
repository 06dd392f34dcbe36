import RegexText.Pattern.Replace
import RegexText.Regex.Escape

/-!
# Trimming runs of a pattern

`trimRuns` takes off the ends of a text the runs of what a trim pattern describes. In a trim pattern
the operators of regular expressions stand for themselves, while backslash escapes keep their
meaning and a vertical bar separates alternatives. A trim pattern that does not compile then is
taken as plain text.
-/

namespace RegexText

/-- The characters that lose their meaning as operators in a trim pattern. -/
def isTrimOperator (c : Char) : Bool :=
  "()[]?\x7b\x7d.*$^+".toList.contains c

/-- A trim pattern as a regular expression: its operators carry a backslash, and so does a vertical
bar that is the whole pattern. -/
def escapeOperators (pattern : Text) : Text :=
  if pattern == ['|'] then ['\\', '|']
  else pattern.flatMap fun c => if isTrimOperator c then ['\\', c] else [c]

/-- The regular expressions for a run at the start of a text and for a run at its end. -/
structure EdgeRuns where
  head : Regex
  tail : Regex

namespace EdgeRuns

/-- Runs of what the regular expression `inner` writes. -/
def compile (inner : Text) : Except Regex.SyntaxError EdgeRuns := do
  let head ← Regex.compile {} ("^(?:".toList ++ inner ++ ")+".toList)
  let tail ← Regex.compile {} ("(?:".toList ++ inner ++ ")+$".toList)
  .ok ⟨head, tail⟩

/-- Runs of copies of `t`. -/
def literal (t : Text) : EdgeRuns :=
  let run := Regex.Expr.repeated true ⟨1, none⟩ (.literal t)
  ⟨Regex.ofExpr (.seq (.assert .textStart) run), Regex.ofExpr (.seq run (.assert .textEnd))⟩

/-- The runs that a trim pattern describes. -/
def ofPattern (pattern : Text) : EdgeRuns :=
  match compile (escapeOperators pattern) with
  | .ok runs => runs
  | .error _ => literal pattern

/-- `t` without a run at its start and then without a run at its end. -/
def remove (runs : EdgeRuns) (t : Text) : Text :=
  runs.tail.substitute (runs.head.substitute t fun _ => []) fun _ => []

end EdgeRuns

/-- `t` without the runs of `pattern` at its ends. Without a pattern white space is trimmed, and the
empty pattern trims nothing. -/
def trimRuns (t : Text) (pattern : Option Text) : Text :=
  match pattern with
  | none => t.trimBoth Unicode.isWhiteSpace
  | some [] => t
  | some pattern => (EdgeRuns.ofPattern pattern).remove t

end RegexText
