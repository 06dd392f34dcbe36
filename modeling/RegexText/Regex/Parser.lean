import RegexText.Regex.Bracket
import RegexText.Regex.Expr

/-!
# Reading regular expressions

`parse` reads the written form of a regular expression. It keeps the groups that are open around the
current place (`Level`) and, for the innermost, the alternatives that are complete and the parts of
the one being read, so that every step (`Reader.step`) looks only at the front of what is left.
-/

namespace RegexText.Regex

/-- A part of an alternative. -/
inductive Part where
  | expr (e : Expr)
  /-- A change of modes: it matches nothing and cannot be repeated. -/
  | modeChange

/-- The expression of a part, if it has one. -/
def Part.expr? : Part → Option Expr
  | expr e => some e
  | modeChange => none

/-- The parts of one alternative, the latest first, in the order of the text. -/
def joinParts (parts : List Part) : Expr :=
  Expr.concat (parts.reverse.filterMap Part.expr?)

/-- What is put aside while a group is open: the group's number, if it has one, and the state of the
reader outside it. -/
structure Level where
  group : Option Nat
  modes : Modes
  branches : List Expr
  parts : List Part

/-- A pattern that has been read in part. -/
structure Reader where
  /-- The modes in force. -/
  modes : Modes
  /-- The complete alternatives of the innermost open group, the latest first. -/
  branches : List Expr := []
  /-- The parts of its current alternative, the latest first. -/
  parts : List Part := []
  /-- The groups open around it, the innermost first. -/
  outer : List Level := []
  /-- The number of the next group. -/
  nextGroup : Nat := 1
  /-- The group names in use. -/
  names : List Text := []

namespace Reader

/-- The reader with one more part read. -/
def push (r : Reader) (e : Expr) : Reader :=
  { r with parts := .expr e :: r.parts }

/-- The expression of the innermost open group. -/
def expr (r : Reader) : Expr :=
  Expr.firstOf (joinParts r.parts :: r.branches).reverse

/-- The reader after an alternative has ended. -/
def nextBranch (r : Reader) : Reader :=
  { r with branches := joinParts r.parts :: r.branches, parts := [] }

/-- The reader inside a new group, which is recorded under the number `group` and read in the modes
`inner`. -/
def openGroup (r : Reader) (group : Option Nat) (inner : Modes) : Reader :=
  { r with
    modes := inner
    branches := []
    parts := []
    outer := ⟨group, r.modes, r.branches, r.parts⟩ :: r.outer }

/-- The reader after the innermost open group has ended. -/
def closeGroup? (r : Reader) : Reading Reader :=
  match r.outer with
  | [] => .error .unopenedGroup
  | level :: outer =>
    let e := match level.group with
      | none => r.expr
      | some i => .group i r.expr
    .ok { r with
      modes := level.modes
      branches := level.branches
      parts := .expr e :: level.parts
      outer }

/-- The reader with its last part repeated. A repetition is greedy unless it is marked lazy, or the
other way round if the modes say so. -/
def repeatLast? (r : Reader) (marked : Bool) (n : Expr.Count) : Reading Reader :=
  match r.parts with
  | .expr e :: parts =>
    .ok { r with parts := .expr (e.repeated (marked == r.modes.swapGreed) n) :: parts }
  | _ => .error .nothingToRepeat

/-- The expression of an atom. A character matches up to case if the modes say so; a class has been
folded by whoever wrote it. -/
def ofAtom (m : Modes) : Atom → Expr
  | .literal c => .chars (m.fold (.single c))
  | .chars s => .chars s
  | .assert a => .assert a

/-- What `.` reads: any character, or any that does not end a line. Both need Unicode mode. -/
def dot (m : Modes) : Reading CharClass :=
  m.negateIf true
    (if m.dotAll then .empty else if m.crlf then .ofChars ['\r', '\n'] else .single '\n')

/-- What `^` asserts. -/
def caret (m : Modes) : Assertion :=
  if !m.multiLine then .textStart else if m.crlf then .crlfLineStart else .lineStart

/-- What `$` asserts. -/
def dollar (m : Modes) : Assertion :=
  if !m.multiLine then .textEnd else if m.crlf then .crlfLineEnd else .lineEnd

/-- Reads the mark that makes a repetition lazy, if it comes next. -/
def lazyMark : Text → Bool × Text
  | '?' :: cs => (true, cs)
  | cs => (false, cs)

/-- Whether `c` can stand in the name of a group, as its first character or later. -/
def isNameChar (first : Bool) (c : Char) : Bool :=
  if first then c == '_' || Unicode.isAlphabetic c
  else c == '_' || c == '.' || c == '[' || c == ']' || Unicode.isAlphanumeric c

/-- Reads the name of a group up to its closing angle bracket. -/
def readGroupName (names : List Text) (t : Text) : Reading (Text × Text) :=
  match t.span (· != '>') with
  | (c :: cs, _ :: rest) =>
    if !(isNameChar true c && cs.all (isNameChar false)) then .error .invalidGroupName
    else if names.contains (c :: cs) then .error .repeatedGroupName
    else .ok (c :: cs, rest)
  | _ => .error .invalidGroupName

/-- Reads the start of a group, after its parenthesis. -/
def openGroup? (r : Reader) (t : Text) : Reading (Reader × Text) :=
  match r.modes.skipBlanks t with
  | '?' :: '=' :: _ | '?' :: '!' :: _ | '?' :: '<' :: '=' :: _ | '?' :: '<' :: '!' :: _ =>
    .error .lookaround
  | '?' :: 'P' :: '<' :: cs | '?' :: '<' :: cs => do
    let (name, rest) ← readGroupName r.names cs
    let numbered := r.openGroup (some r.nextGroup) r.modes
    .ok ({ numbered with nextGroup := r.nextGroup + 1, names := name :: r.names }, rest)
  | '?' :: cs => do
    match ← r.modes.read cs with
    | ((modes, .ownGroup), rest) => .ok (r.openGroup none modes, rest)
    | ((modes, .restOfGroup), rest) =>
      .ok ({ r with modes, parts := .modeChange :: r.parts }, rest)
  | cs => .ok ({ r.openGroup (some r.nextGroup) r.modes with nextGroup := r.nextGroup + 1 }, cs)

/-- The largest number that a repetition count may be: the largest of 32 bits. -/
def maxCount : Nat := 4294967295

/-- Reads a number, which white space may surround. -/
def readNumber (m : Modes) (t : Text) : Reading (Nat × Text) :=
  match m.spanWhile Char.isDigit false (t.dropWhile Unicode.isWhiteSpace) with
  | ([], _) => .error .emptyCount
  | (ds, rest) =>
    let n := Nat.ofDigitChars 10 ds 0
    if n ≤ maxCount then .ok (n, m.skipBlanks (rest.dropWhile Unicode.isWhiteSpace))
    else .error .invalidCount

/-- Reads a repetition count, after its opening brace. -/
def readCount (m : Modes) (t : Text) : Reading (Expr.Count × Text) := do
  let (min, rest) ← readNumber m (m.skipBlanks t)
  match rest with
  | '\x7d' :: rest => .ok (⟨min, some min⟩, rest)
  | ',' :: cs =>
    match m.skipBlanks cs with
    | '\x7d' :: rest => .ok (⟨min, none⟩, rest)
    | cs =>
      let (max, rest) ← readNumber m cs
      match rest with
      | '\x7d' :: rest => if min ≤ max then .ok (⟨min, some max⟩, rest) else .error .reversedCount
      | _ => .error .unclosedCount
  | _ => .error .unclosedCount

/-- Reads the front of a pattern, whose first character is `c`. -/
def step (r : Reader) (c : Char) (cs : Text) : Reading (Reader × Text) :=
  match c with
  | '(' => r.openGroup? cs
  | ')' => r.closeGroup?.map (·, cs)
  | '|' => .ok (r.nextBranch, cs)
  | '[' => (readBracket r.modes cs).map fun (s, rest) => (r.push (.chars s), rest)
  | '?' => repeated ⟨0, some 1⟩ cs
  | '*' => repeated ⟨0, none⟩ cs
  | '+' => repeated ⟨1, none⟩ cs
  | '\x7b' => do
    let (n, rest) ← readCount r.modes cs
    repeated n (r.modes.skipBlanks rest)
  | '\\' => (Atom.ofEscape r.modes cs).map fun (a, rest) => (r.push (ofAtom r.modes a), rest)
  | '.' => (dot r.modes).map fun s => (r.push (.chars s), cs)
  | '^' => .ok (r.push (.assert (caret r.modes)), cs)
  | '$' => .ok (r.push (.assert (dollar r.modes)), cs)
  | c => .ok (r.push (ofAtom r.modes (.literal c)), cs)
where
  repeated (n : Expr.Count) (cs : Text) : Reading (Reader × Text) :=
    let (marked, rest) := lazyMark cs
    (r.repeatLast? marked n).map (·, rest)

/-- Reads a pattern to its end. Every step reads a character, so the length of the pattern bounds
their number. -/
def run (r : Reader) : (steps : Nat) → Text → Reading Expr
  | 0, _ => .error .unclosedGroup
  | steps + 1, t =>
    match r.modes.skipBlanks t with
    | [] => if r.outer.isEmpty then .ok r.expr else .error .unclosedGroup
    | c :: cs => do
      let (r, rest) ← r.step c cs
      run r steps rest

end Reader

/-- The regular expression that `t` writes, read in the modes `m`. -/
def parse (m : Modes) (t : Text) : Reading Expr :=
  Reader.run { modes := m } (t.length + 1) t

end RegexText.Regex
