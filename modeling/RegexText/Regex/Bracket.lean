import RegexText.Regex.Escape

/-!
# Bracket expressions

A bracket expression writes a character class by its members: characters, ranges, escapes, named
ASCII classes and further bracket expressions, joined by being listed or by the operators `&&`, `--`
and `~~`, which all bind equally and to the left. `readBracket` reads one. Case is folded before a
class is negated and before an operator applies.
-/

namespace RegexText.Regex

/-- The operators of bracket expressions. -/
inductive SetOp where
  | inter
  | diff
  | symmDiff

/-- The class that an operator makes of two classes. -/
def SetOp.apply : SetOp → CharClass → CharClass → CharClass
  | inter => .inter
  | diff => .diff
  | symmDiff => .symmDiff

/-- A bracket expression that has been read in part. -/
structure OpenBracket where
  /-- The members listed since the last operator. -/
  members : CharClass
  /-- The last operator, with its left operand. -/
  pending : Option (SetOp × CharClass) := none

namespace OpenBracket

/-- The bracket expression with further members listed. -/
def add (b : OpenBracket) (s : CharClass) : OpenBracket :=
  { b with members := .union b.members s }

/-- The class of all that has been read. -/
def close (m : Modes) (b : OpenBracket) : CharClass :=
  match b.pending with
  | none => b.members
  | some (op, left) => op.apply (m.fold left) (m.fold b.members)

/-- The bracket expression continued by an operator. -/
def operator (m : Modes) (b : OpenBracket) (op : SetOp) : OpenBracket :=
  ⟨.empty, some (op, b.close m)⟩

end OpenBracket

/-- Reads a named ASCII class such as `[:alpha:]` or `[:^digit:]`, after its bracket. -/
def namedClass? (t : Text) : Option ((Bool × CharClass) × Text) :=
  match t with
  | ':' :: '^' :: cs => named true cs
  | ':' :: cs => named false cs
  | _ => none
where
  named (negated : Bool) (cs : Text) : Option ((Bool × CharClass) × Text) :=
    match cs.span (· != ':') with
    | (name, ':' :: ']' :: rest) => (CharClass.named? name).map fun s => ((negated, s), rest)
    | _ => none

/-- Reads one character or escape of a bracket expression. -/
def readMember (m : Modes) : Text → Reading (Atom × Text)
  | [] => .error .unclosedBracket
  | '\\' :: cs => Atom.ofEscape m cs
  | c :: cs => .ok (.literal c, cs)

/-- The class of a member that stands alone. -/
def Atom.toClass (m : Modes) : Atom → Reading CharClass
  | literal c => if m.hasMember c then .ok (.single c) else .error .unicodeNotAllowed
  | chars s => .ok s
  | assert _ => .error .assertionInBracket

/-- The range between two members. -/
def Atom.rangeTo (m : Modes) : Atom → Atom → Reading CharClass
  | literal a, literal b =>
    if b < a then .error .reversedRange
    else if m.hasMember b then .ok (.range a b)
    else .error .unicodeNotAllowed
  | _, _ => .error .classInRange

/-- Reads a member or a range of a bracket expression. -/
def readRange (m : Modes) (t : Text) : Reading (CharClass × Text) := do
  let (first, rest) ← readMember m t
  match m.skipBlanks rest with
  | [] => .error .unclosedBracket
  | '-' :: cs =>
    match m.skipBlanks cs with
    | [] => .error .unclosedBracket
    | ']' :: _ | '-' :: _ => .ok (← first.toClass m, '-' :: cs)
    | cs =>
      let (last, rest) ← readMember m cs
      .ok (← first.rangeTo m last, rest)
  | rest => .ok (← first.toClass m, rest)

/-- Reads the start of a bracket expression, after its bracket: whether it is negated, and the
dashes or the closing bracket that stand for themselves because they come first. -/
def readBracketStart (m : Modes) (t : Text) : Reading ((Bool × OpenBracket) × Text) :=
  match m.skipBlanks t with
  | '^' :: cs => leading true cs
  | cs => leading false cs
where
  leading (negated : Bool) (cs : Text) : Reading ((Bool × OpenBracket) × Text) :=
    match m.spanWhile (· == '-') false cs with
    | (_, []) => .error .unclosedBracket
    | ([], ']' :: rest) => .ok ((negated, ⟨.single ']', none⟩), rest)
    | ([], rest) => .ok ((negated, ⟨.empty, none⟩), rest)
    | (_ :: _, rest) => .ok ((negated, ⟨.single '-', none⟩), rest)

/-- The class of a bracket expression whose members make up `s`. -/
def bracketClass (m : Modes) (negated : Bool) (s : CharClass) : Reading CharClass :=
  m.negateIf negated (m.fold s)

/-- Reads a bracket expression to its end. Every step reads a character, so the length of the text
bounds their number. -/
def readBracketRest (m : Modes) : (steps : Nat) → OpenBracket → Text → Reading (CharClass × Text)
  | 0, _, _ => .error .unclosedBracket
  | steps + 1, b, t => do
    match m.skipBlanks t with
    | [] => .error .unclosedBracket
    | ']' :: cs => .ok (b.close m, cs)
    | '[' :: cs =>
      match namedClass? cs with
      | some ((negated, s), rest) =>
        readBracketRest m steps (b.add (← bracketClass m negated s)) rest
      | none =>
        let ((negated, inner), rest) ← readBracketStart m cs
        let (s, rest) ← readBracketRest m steps inner rest
        readBracketRest m steps (b.add (← bracketClass m negated s)) rest
    | '&' :: '&' :: cs => readBracketRest m steps (b.operator m .inter) cs
    | '-' :: '-' :: cs => readBracketRest m steps (b.operator m .diff) cs
    | '~' :: '~' :: cs => readBracketRest m steps (b.operator m .symmDiff) cs
    | cs =>
      let (s, rest) ← readRange m cs
      readBracketRest m steps (b.add s) rest

/-- Reads a bracket expression, after its first bracket. -/
def readBracket (m : Modes) (t : Text) : Reading (CharClass × Text) := do
  let ((negated, b), rest) ← readBracketStart m t
  let (s, rest) ← readBracketRest m (rest.length + 1) b rest
  .ok (← bracketClass m negated s, rest)

end RegexText.Regex
