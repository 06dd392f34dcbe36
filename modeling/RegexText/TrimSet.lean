import RegexText.Text.Basic
import RegexText.Unicode.Blank
import RegexText.Unicode.Word

/-!
# Trim sets

The characters that are taken off the ends of a token: whole kinds of them, and any others listed
one by one.
-/

namespace RegexText

/-- A kind of characters. -/
inductive CharKind where
  /-- White space that ends no line. -/
  | whiteSpace
  /-- Characters that end a line. -/
  | newline
  /-- ASCII punctuation. -/
  | punctuation
  | alphanumeric
  /-- Control characters that are not white space. -/
  | control

/-- Whether `c` is ASCII punctuation: a printable character but letters, digits and the space. -/
def isPunctuation (c : Char) : Bool :=
  0x21 ≤ c.val && c.val ≤ 0x7e && !c.isAlphanum

/-- Whether `c` is of the kind. -/
def CharKind.contains (k : CharKind) (c : Char) : Bool :=
  match k with
  | whiteSpace => Unicode.isWhiteSpace c && !Unicode.isLineBreak c
  | newline => Unicode.isLineBreak c
  | punctuation => isPunctuation c
  | alphanumeric => Unicode.isAlphanumeric c
  | control => Unicode.isControl c && !Unicode.isWhiteSpace c

/-- A set of characters to trim. Without members it trims nothing. -/
structure TrimSet where
  kinds : List CharKind := []
  chars : List Char := []

namespace TrimSet

/-- Whether `c` is to be trimmed. -/
def contains (s : TrimSet) (c : Char) : Bool :=
  s.chars.contains c || s.kinds.any (·.contains c)

/-- The members of `a` and those of `b`. -/
def union (a b : TrimSet) : TrimSet :=
  ⟨a.kinds ++ b.kinds, a.chars ++ b.chars⟩

/-- `t` without the members at its two ends. -/
def trim (s : TrimSet) (t : Text) : Text :=
  t.trimBoth s.contains

theorem trim_nil (s : TrimSet) : s.trim [] = [] := rfl

/-- The set without members trims nothing. -/
theorem trim_empty (t : Text) : ({} : TrimSet).trim t = t := by
  have hnone (t : Text) : t.dropWhile ({} : TrimSet).contains = t := by
    cases t <;> rfl
  rw [trim, Text.trimBoth, hnone, hnone, List.reverse_reverse]

end TrimSet

end RegexText
