import RegexText.Lexer.Event
import RegexText.SeparatorPolicy
import RegexText.TrimSet

/-!
# Making tokens

The state of a lexer is the text that is left, the scan for the end of its first token, and the
tokens made so far. A separator that is to start the next token is put in front of the text that is
left, and the scan starts behind it. What is put there may be longer than the separator was.
-/

namespace RegexText.Lexer

/-- How tokens are made. -/
structure Options where
  policy : SeparatorPolicy := .drop
  /-- What is trimmed off tokens and separators. -/
  trim : TrimSet := {}
  /-- What is kept of a separator instead of its text: a template for its match. -/
  template : Option Text := none

/-- What is kept of a separator. -/
def Options.display (o : Options) (m : Match) : Text :=
  match o.template with
  | none => m.text
  | some template => m.expand template

/-- What is put in front of the text after the separator. -/
def Options.carried (o : Options) (m : Match) : Text :=
  match o.policy with
  | .withNext => o.display m
  | .drop | .alone | .withPrevious => []

/-- A text that has been cut in part. -/
structure State where
  /-- What is left of the text, with what it has to start with in front of it. -/
  text : Text
  /-- The search for the next separator in `text`. -/
  scan : Scan := {}
  /-- The tokens made, the latest first. -/
  tokens : List Text := []
  /-- What has been reported, the latest first. -/
  events : List Event := []

namespace State

/-- The state with one more token, which is trimmed. -/
def push (o : Options) (t : Text) (s : State) : State :=
  let t := o.trim.trim t
  { s with tokens := t :: s.tokens, events := .token t :: s.events }

/-- The state with a text, which is trimmed, added to its latest token. -/
def append (o : Options) (t : Text) (s : State) : State :=
  match s.tokens with
  | [] => s
  | latest :: earlier => { s with tokens := (latest ++ o.trim.trim t) :: earlier }

/-- The state with a separator, shown as `display`, added to its tokens as the policy asks. -/
def keep (o : Options) (display : Text) (s : State) : State :=
  match o.policy with
  | .drop | .withNext => s
  | .alone => s.push o display
  | .withPrevious => s.append o display

/-- The state after the text before the separator `m` has been made a token. -/
def cut (o : Options) (m : Match) (s : State) : State :=
  let carried := o.carried m
  { (s.push o (s.text.take m.index)).keep o (o.display m) with
    text := carried ++ s.text.drop m.stop, scan := .startAt carried.length }

/-- The state with a move made. -/
def apply (o : Options) (s : State) : Move → State
  | .pass y =>
    { s with scan := s.scan.pass y, events := (Event.ofPass s.scan y).toList ++ s.events }
  | .resync y =>
    { s with scan := .startAt y.stop, events := .resync y.start y.stop :: s.events }
  | .cut m => s.cut o m

/-- The next state, if there is one. -/
def step (sep : Pattern) (o : Options) (s : State) : Option State :=
  (s.scan.move? sep s.text).map (s.apply o)

end State

end RegexText.Lexer
