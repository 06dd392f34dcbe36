import RegexText.Regex.Assertion
import RegexText.Regex.CharClass
import RegexText.Regex.Modes

/-!
# Escapes

What a backslash and the characters after it stand for (`Atom.ofEscape`), and the writing of a text
so that it stands for itself (`escape`).
-/

namespace RegexText.Regex

/-- The characters that need a backslash to stand for themselves somewhere in a pattern. -/
def isMeta (c : Char) : Bool :=
  "\\.+*?()|[]\x7b\x7d^$#&-~".toList.contains c

/-- The pattern that matches exactly the text `t`: a backslash before every character that could
mean something else. -/
def escape (t : Text) : Text :=
  t.flatMap fun c => if isMeta c then ['\\', c] else [c]

/-- The smallest parts of a pattern. -/
inductive Atom where
  | literal (c : Char)
  | chars (s : CharClass)
  | assert (a : Assertion)

namespace Modes

/-- `a`, closed under change of case if the modes say so. -/
def fold (m : Modes) (a : CharClass) : CharClass :=
  if !m.ignoreCase then a else if m.unicode then .fold a else .foldAscii a

/-- The complement of `a` if `negated`, else `a` itself. A complement holds characters outside
ASCII, so it needs Unicode mode. -/
def negateIf (m : Modes) (negated : Bool) (a : CharClass) : Reading CharClass :=
  if negated && !m.unicode then .error .invalidUtf8 else .ok (.negateIf negated a)

/-- Whether `c` can be a member of a bracket expression. -/
def hasMember (m : Modes) (c : Char) : Bool := m.unicode || c.val < 0x80

end Modes

/-- The value of a hexadecimal digit. -/
def hexValue? (c : Char) : Option Nat :=
  if '0' ≤ c && c ≤ '9' then some (c.toNat - '0'.toNat)
  else if 'a' ≤ c && c ≤ 'f' then some (c.toNat - 'a'.toNat + 10)
  else if 'A' ≤ c && c ≤ 'F' then some (c.toNat - 'A'.toNat + 10)
  else none

/-- The character with code point `n`, if there is one. -/
def charOfCodePoint (n : Nat) : Reading Char :=
  if n.isValidChar then .ok (Char.ofNat n) else .error .invalidCodePoint

/-- The number written by the hexadecimal digits `ds`, after the digits that gave `n`. -/
def hexNumber : (n : Nat) → List Char → Reading Nat
  | n, [] => .ok n
  | n, d :: ds =>
    match hexValue? d with
    | none => .error .invalidHexDigit
    | some v => hexNumber (n * 16 + v) ds

/-- Reads `n` characters that mean something. -/
def readChars (m : Modes) : Nat → Text → Reading (List Char × Text)
  | 0, t => .ok ([], t)
  | n + 1, t =>
    match m.skipBlanks t with
    | [] => .error .unfinishedEscape
    | c :: cs => do
      let (ds, rest) ← readChars m n cs
      .ok (c :: ds, rest)

/-- Reads a code point: `width` hexadecimal digits, or any number of them between braces. Two digits
stand for a byte, which outside Unicode mode is to be ASCII. -/
def readCodePoint (m : Modes) (width : Nat) (t : Text) : Reading (Char × Text) := do
  match m.skipBlanks t with
  | '{' :: cs =>
    match m.spanWhile (· != '}') false cs with
    | (_, []) => .error .unfinishedEscape
    | ([], _ :: _) => .error .invalidHexDigit
    | (ds, _ :: rest) => .ok (← charOfCodePoint (← hexNumber 0 ds), rest)
  | t =>
    let (ds, rest) ← readChars m width t
    let c ← charOfCodePoint (← hexNumber 0 ds)
    if !m.unicode && width == 2 && 0x7f < c.val then .error .invalidUtf8 else .ok (c, rest)

/-- The class of the characters that have the property called `name`. Of the properties only the
major general categories are known. -/
def property? (name : List Char) : Option CharClass :=
  (Unicode.Category.ofName? name).map .category

/-- Reads the name of a property: one character, or all between braces. -/
def readProperty (m : Modes) (t : Text) : Reading (CharClass × Text) :=
  match m.skipBlanks t with
  | [] => .error .unfinishedEscape
  | '{' :: cs =>
    match m.spanWhile (· != '}') false cs with
    | (_, []) => .error .unfinishedEscape
    | (name, _ :: rest) =>
      match property? name with
      | none => .error .unknownProperty
      | some s => .ok (s, rest)
  | c :: cs =>
    match property? [c] with
    | none => .error .unknownProperty
    | some s => .ok (s, cs)

/-- Whether `c` can stand in the name of a special word boundary. -/
def isBoundaryChar (c : Char) : Bool := c.isAlpha || c == '-'

/-- The special word boundary called `name`. -/
def boundary? (unicode : Bool) (name : List Char) : Option Assertion :=
  if name == "start".toList then some (.wordStart unicode)
  else if name == "end".toList then some (.wordEnd unicode)
  else if name == "start-half".toList then some (.wordStartHalf unicode)
  else if name == "end-half".toList then some (.wordEndHalf unicode)
  else none

/-- Reads what follows `\b`: the name of a special boundary between braces, or nothing. Braces
around something else are left alone, as they may be a repetition count. -/
def readBoundary (m : Modes) (t : Text) : Reading (Assertion × Text) :=
  match t with
  | '{' :: cs =>
    match m.skipBlanks cs with
    | [] => .error .unknownBoundary
    | c :: rest =>
      if isBoundaryChar c then
        match m.spanWhile isBoundaryChar false (c :: rest) with
        | (name, '}' :: rest) =>
          match boundary? m.unicode name with
          | none => .error .unknownBoundary
          | some a => .ok (a, rest)
        | _ => .error .unknownBoundary
      else .ok (.wordBoundary m.unicode, t)
  | _ => .ok (.wordBoundary m.unicode, t)

/-- Whether a backslash may stand before `c` though `c` stands for itself without one: any ASCII
character but letters, digits and angle brackets. -/
def isEscapable (c : Char) : Bool :=
  c.val < 0x80 && !c.isAlphanum && c != '<' && c != '>'

/-- Reads what follows a backslash. -/
def Atom.ofEscape (m : Modes) : Text → Reading (Atom × Text)
  | [] => .error .unfinishedEscape
  | c :: cs =>
    if isEscapable c then .ok (.literal c, cs)
    else
      match c with
      | 'x' => literal (readCodePoint m 2 cs)
      | 'u' => literal (readCodePoint m 4 cs)
      | 'U' => literal (readCodePoint m 8 cs)
      | 'p' => property false cs
      | 'P' => property true cs
      | 'd' => named false .digit .asciiDigit cs
      | 's' => named false .space .asciiSpace cs
      | 'w' => named false .word .asciiWord cs
      | 'D' => named true .digit .asciiDigit cs
      | 'S' => named true .space .asciiSpace cs
      | 'W' => named true .word .asciiWord cs
      | 'a' => .ok (.literal '\x07', cs)
      | 'f' => .ok (.literal '\x0c', cs)
      | 't' => .ok (.literal '\t', cs)
      | 'n' => .ok (.literal '\n', cs)
      | 'r' => .ok (.literal '\r', cs)
      | 'v' => .ok (.literal '\x0b', cs)
      | 'A' => .ok (.assert .textStart, cs)
      | 'z' => .ok (.assert .textEnd, cs)
      | 'b' => (readBoundary m cs).map fun (a, rest) => (.assert a, rest)
      | 'B' => .ok (.assert (.notWordBoundary m.unicode), cs)
      | '<' => .ok (.assert (.wordStart m.unicode), cs)
      | '>' => .ok (.assert (.wordEnd m.unicode), cs)
      | _ => .error (if c.isDigit then .backreference else .unknownEscape)
where
  literal (r : Reading (Char × Text)) : Reading (Atom × Text) :=
    r.map fun (c, rest) => (.literal c, rest)
  named (negated : Bool) (s ascii : CharClass) (cs : Text) : Reading (Atom × Text) :=
    (m.negateIf negated (if m.unicode then s else ascii)).map (.chars ·, cs)
  property (negated : Bool) (cs : Text) : Reading (Atom × Text) :=
    if !m.unicode then .error .unicodeNotAllowed
    else (readProperty m cs).map fun (s, rest) => (.chars (.negateIf negated (m.fold s)), rest)

end RegexText.Regex
