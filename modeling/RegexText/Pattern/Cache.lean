import RegexText.Pattern.Basic

/-!
# Pattern caches

A cache keeps the compiled form of every pattern it has been asked for, under the source of the
pattern and the flags that decide what it matches. Each compilation has a serial number, so that two
answers can be told to be one and the same object. Patterns that do not compile are not kept.
-/

namespace RegexText

/-- A compiled regular expression, with the number of the compilation that made it. -/
structure Compiled where
  serial : Nat
  regex : Regex

/-- The compiled patterns, and the number of compilations so far. -/
structure PatternCache where
  entries : List ((Text × Flags) × Compiled) := []
  compilations : Nat := 0

namespace PatternCache

/-- What is kept for a pattern, if anything. -/
def get? (c : PatternCache) (source : Text) (flags : Flags) : Option Compiled :=
  c.entries.lookup (source, flags.engine)

/-- The number of patterns kept. -/
def size (c : PatternCache) : Nat := c.entries.length

/-- Whether no pattern is kept. -/
def isEmpty (c : PatternCache) : Bool := c.entries.isEmpty

/-- The cache with nothing kept. Numbers that have been given out are not used again. -/
def clear (c : PatternCache) : PatternCache := { c with entries := [] }

/-- The answer of a cache: the compiled pattern, whether it had to be compiled for this, and the
cache after it. -/
structure Answer where
  compiled : Compiled
  isNew : Bool
  cache : PatternCache

/-- Looks a pattern up, and compiles it if it is not kept. -/
def getOrCompile (c : PatternCache) (source : Text) (flags : Flags) : Except PatternError Answer :=
  match c.get? source flags with
  | some found => .ok ⟨found, false, c⟩
  | none =>
    match Pattern.compileRegex source flags with
    | .error e => .error e
    | .ok regex =>
      let made : Compiled := ⟨c.compilations, regex⟩
      .ok ⟨made, true, ⟨((source, flags.engine), made) :: c.entries, c.compilations + 1⟩⟩

/-- Looks a pattern up under the flags that `flags` writes, which are read first. -/
def request (c : PatternCache) (source flags : Text) : Except PatternError (Flags × Answer) := do
  let flags ← Flags.parse flags
  let answer ← c.getOrCompile source flags
  .ok (flags, answer)

/-- The line that reports a compilation, with all flags, and nothing if there was none. -/
def Answer.trace (a : Answer) (source : Text) (flags : Flags) : Text :=
  if a.isNew then
    "[cache:compile] pattern=/".toList ++ source ++ "/ flags=\"".toList ++ flags.text ++
      ['"', '\n']
  else []

/-- The pattern that an answer gives for its source and flags. -/
def Answer.pattern (a : Answer) (source : Text) (flags : Flags) : Pattern :=
  ⟨source, flags, a.compiled.regex⟩

end PatternCache

end RegexText
