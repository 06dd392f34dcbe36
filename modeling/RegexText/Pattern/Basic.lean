import RegexText.Flags
import RegexText.Regex.Search

/-!
# Patterns

A pattern is a compiled regular expression that remembers how it was written.
-/

namespace RegexText

/-- A regular expression with its written form and its flags. -/
structure Pattern where
  source : Text
  flags : Flags
  regex : Regex

namespace Pattern

/-- Compiles `source` for the flags that decide what it matches. -/
def compileRegex (source : Text) (flags : Flags) : Except PatternError Regex :=
  match Regex.compile flags.modes source with
  | .ok re => .ok re
  | .error cause => .error (.invalidPattern source cause)

/-- The pattern that `source` writes, under the flags that `flags` writes. A bad flag is reported
before a bad pattern. -/
def compile (source flags : Text) : Except PatternError Pattern := do
  let flags ← Flags.parse flags
  let regex ← compileRegex source flags
  .ok ⟨source, flags, regex⟩

/-- The pattern that matches exactly the text `t`. -/
def literal (t : Text) : Pattern :=
  ⟨Regex.escape t, {}, Regex.ofExpr (.literal t)⟩

/-- The pattern as it is shown: its source between slashes, and its flags. -/
def text (p : Pattern) : Text :=
  '/' :: p.source ++ '/' :: p.flags.text

end Pattern

end RegexText
