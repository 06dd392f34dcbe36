import RegexText.Pattern.Basic
import RegexText.SeparatorPolicy
import RegexText.TrimSet

/-!
# Splitting at matches

`Pattern.explode` cuts a text at every match from an offset on. The text before the offset is not
searched and belongs to the first token. Tokens are trimmed, and those that are empty then are
dropped.
-/

namespace RegexText

/-- A text being cut: the tokens made so far, the latest first, and the index up to which the text
belongs to them. -/
structure Cutting where
  tokens : List Text := []
  index : Nat := 0

namespace Cutting

/-- The cutting with one more token, which is trimmed. -/
def push (trim : TrimSet) (t : Text) (c : Cutting) : Cutting :=
  { c with tokens := trim.trim t :: c.tokens }

/-- The cutting with what lies before index `stop` made a token, unless there is nothing. -/
def pushUpTo (trim : TrimSet) (t : Text) (stop : Nat) (c : Cutting) : Cutting :=
  if c.index = stop then c else c.push trim (t.slice c.index stop)

/-- The cutting with a text, which is trimmed, added to its latest token, or as its first. -/
def append (trim : TrimSet) (t : Text) (c : Cutting) : Cutting :=
  match c.tokens with
  | [] => c.push trim t
  | latest :: earlier => { c with tokens := (latest ++ trim.trim t) :: earlier }

/-- The cutting of `t` after the separator `s`. A separator that starts the next token is left for
it. -/
def cut (policy : SeparatorPolicy) (trim : TrimSet) (t : Text) (c : Cutting) (s : Span) : Cutting :=
  let c := c.pushUpTo trim t s.start
  match policy with
  | .drop => { c with index := s.stop }
  | .alone => { c.push trim (s.text t) with index := s.stop }
  | .withPrevious => { c.append trim (s.text t) with index := s.stop }
  | .withNext => { c with index := s.start }

/-- The tokens of `t` after its last separator. -/
def finish (trim : TrimSet) (t : Text) (c : Cutting) : List Text :=
  let c := if c.index < t.length then c.push trim (t.drop c.index) else c
  c.tokens.reverse.filter (!·.isEmpty)

end Cutting

namespace Pattern

/-- The spans of the successive matches in `t` from `offset` on. -/
def spansFrom (p : Pattern) (t : Text) (offset : Nat) : List Span :=
  (p.regex.findAll (t.drop offset)).map fun m =>
    let start := offset.min t.length
    ⟨start + m.whole.start, start + m.whole.stop⟩

/-- The tokens of `t` when it is cut at every match from `offset` on. -/
def explode (p : Pattern) (policy : SeparatorPolicy) (trim : TrimSet) (t : Text) (offset : Nat) :
    List Text :=
  ((p.spansFrom t offset).foldl (Cutting.cut policy trim t) {}).finish trim t

/-- The tokens of `t` between the matches from `offset` on. -/
def split (p : Pattern) (trim : TrimSet) (t : Text) (offset : Nat) : List Text :=
  p.explode .drop trim t offset

end Pattern

end RegexText
