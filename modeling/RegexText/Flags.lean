import RegexText.Error
import RegexText.Regex.Modes

/-!
# Flags

The flags of a pattern are written as letters of `imsg`, in any order and as often as one likes, and
shown in that order, each once. `g` concerns only what a match reports, so the flags without it
(`Flags.engine`) decide what a pattern matches.
-/

namespace RegexText

/-- The flags of a pattern. -/
structure Flags where
  /-- `i`: characters match up to case. -/
  ignoreCase : Bool := false
  /-- `m`: `^` and `$` match at the ends of every line. -/
  multiLine : Bool := false
  /-- `s`: `.` matches line breaks too. -/
  dotAll : Bool := false
  /-- `g`: a match reports every occurrence. -/
  global : Bool := false
  deriving DecidableEq

namespace Flags

/-- The flags with the one that the letter `c` names, if it names one. -/
def add? (f : Flags) (c : Char) : Option Flags :=
  match c with
  | 'i' => some { f with ignoreCase := true }
  | 'm' => some { f with multiLine := true }
  | 's' => some { f with dotAll := true }
  | 'g' => some { f with global := true }
  | _ => none

/-- The flags with those that the letters name; `all` is the text they are part of, for the error.
-/
def addAll (all : Text) (f : Flags) : Text → Except PatternError Flags
  | [] => .ok f
  | c :: cs =>
    match f.add? c with
    | none => .error (.unsupportedFlag c all)
    | some f => f.addAll all cs

/-- The flags that `t` writes. -/
def parse (t : Text) : Except PatternError Flags :=
  addAll t {} t

/-- The letters of the flags, in the order of `imsg`. -/
def text (f : Flags) : Text :=
  letter 'i' f.ignoreCase ++ letter 'm' f.multiLine ++ letter 's' f.dotAll ++ letter 'g' f.global
where
  letter (c : Char) (on : Bool) : Text := if on then [c] else []

/-- The flags as the bits of a number, `i` the lowest and `g` the highest. -/
def bits (f : Flags) : Nat :=
  f.ignoreCase.toNat + 2 * f.multiLine.toNat + 4 * f.dotAll.toNat + 8 * f.global.toNat

/-- The flags that decide what a pattern matches. -/
def engine (f : Flags) : Flags := { f with global := false }

/-- The modes that a pattern with these flags is read in. -/
def modes (f : Flags) : Regex.Modes :=
  { ignoreCase := f.ignoreCase, multiLine := f.multiLine, dotAll := f.dotAll }

end Flags

end RegexText
