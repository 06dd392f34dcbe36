import RegexText.Regex.SyntaxError
import RegexText.Text.Basic
import RegexText.Unicode.Blank

/-!
# Modes

The modes that a pattern is read under: some change what its parts match, and one makes white space
and comments between them disappear (`Modes.skipBlanks`). A pattern can change them for the rest of
the group it stands in; `Modes.read` reads such a change.
-/

namespace RegexText.Regex

/-- How a pattern is to be read. -/
structure Modes where
  /-- Characters match up to case. -/
  ignoreCase : Bool := false
  /-- `^` and `$` match at the ends of every line. -/
  multiLine : Bool := false
  /-- `.` matches line breaks too. -/
  dotAll : Bool := false
  /-- Repetitions are lazy unless a `?` makes them greedy. -/
  swapGreed : Bool := false
  /-- A carriage return ends a line, alone or before a line feed. -/
  crlf : Bool := false
  /-- White space and comments in the pattern mean nothing. -/
  ignoreBlanks : Bool := false
  /-- Classes and words hold the characters of all scripts. Otherwise they hold ASCII ones, and a
  class that would hold others is an error. -/
  unicode : Bool := true

/-- What reading a pattern gives, unless the pattern is wrong. -/
abbrev Reading := Except SyntaxError

namespace Modes

/-- `t` without white space and comments at its front; `inComment` says that `t` starts inside a
comment, which ends with its line. -/
def dropBlanks : (inComment : Bool) → Text → Text
  | _, [] => []
  | true, c :: cs => dropBlanks (c != '\n') cs
  | false, c :: cs =>
    if Unicode.isWhiteSpace c then dropBlanks false cs
    else if c == '#' then dropBlanks true cs
    else c :: cs

/-- `t` from its first character that means something in these modes. -/
def skipBlanks (m : Modes) (t : Text) : Text :=
  if m.ignoreBlanks then dropBlanks false t else t

/-- The longest run of meaningful characters at the front of `t` that satisfy `p`, and the rest of
`t` from the meaningful character that ends it. -/
def spanWhile (m : Modes) (p : Char → Bool) : (inComment : Bool) → Text → Text × Text
  | _, [] => ([], [])
  | true, c :: cs => m.spanWhile p (c != '\n') cs
  | false, c :: cs =>
    if m.ignoreBlanks && Unicode.isWhiteSpace c then m.spanWhile p false cs
    else if m.ignoreBlanks && c == '#' then m.spanWhile p true cs
    else if p c then
      let (run, rest) := m.spanWhile p false cs
      (c :: run, rest)
    else ([], c :: cs)

/-- The modes with the one that a letter names switched on or off. -/
def set? (m : Modes) (letter : Char) (on : Bool) : Option Modes :=
  match letter with
  | 'i' => some { m with ignoreCase := on }
  | 'm' => some { m with multiLine := on }
  | 's' => some { m with dotAll := on }
  | 'U' => some { m with swapGreed := on }
  | 'R' => some { m with crlf := on }
  | 'x' => some { m with ignoreBlanks := on }
  | 'u' => some { m with unicode := on }
  | _ => none

/-- A change of modes that has been read in part. -/
structure Change where
  modes : Modes
  /-- The letters and dashes read so far, the latest first. -/
  read : List Char := []

/-- How a change of modes ends: for a group of its own, or for the rest of the group around it. -/
inductive Scope where
  | ownGroup
  | restOfGroup

/-- Reads a change of modes: letters that switch modes on and, after a dash, off, up to the colon or
the parenthesis that ends them. -/
def Change.run (ch : Change) : Text → Reading ((Modes × Scope) × Text)
  | [] => .error .unclosedGroup
  | ':' :: rest =>
    if ch.read.head? == some '-' then .error .danglingNegation
    else .ok ((ch.modes, .ownGroup), rest)
  | ')' :: rest =>
    if ch.read.head? == some '-' then .error .danglingNegation
    else if ch.read.isEmpty then .error .nothingToRepeat
    else .ok ((ch.modes, .restOfGroup), rest)
  | c :: rest =>
    if ch.read.contains c then .error .repeatedMode
    else if c == '-' then Change.run ⟨ch.modes, c :: ch.read⟩ rest
    else
      match ch.modes.set? c (!ch.read.contains '-') with
      | none => .error .unknownMode
      | some modes => Change.run ⟨modes, c :: ch.read⟩ rest

/-- Reads the change of modes at the front of a text. -/
def read (m : Modes) (t : Text) : Reading ((Modes × Scope) × Text) :=
  Change.run ⟨m, []⟩ t

end Modes

end RegexText.Regex
