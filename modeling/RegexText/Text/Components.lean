import RegexText.TrimSet

/-!
# Splitting at a literal separator

The occurrences of a separator are found from the left, and they do not overlap. The empty separator
occurs at both ends of a text and between any two of its characters.
-/

namespace RegexText.Text

/-- The index of the first occurrence of `sep` in `t`. -/
def indexOf? (sep : Text) : Text → Option Nat
  | [] => if sep.isEmpty then some 0 else none
  | c :: cs => if sep.isPrefixOf (c :: cs) then some 0 else (indexOf? sep cs).map (· + 1)

/-- The parts of `t` before and after the first occurrence of `sep` at index `start` or later. -/
def splitOnce? (sep t : Text) (start : Nat) : Option (Text × Text) :=
  (indexOf? sep (t.drop start)).map fun i =>
    let found := start.min t.length + i
    (t.take found, t.drop (found + sep.length))

/-- The parts of `t` between the occurrences of `sep`, which is not empty. Each occurrence takes up
a character at least, so the length of the text bounds their number. -/
def splitRest (sep : Text) : (steps : Nat) → Text → List Text
  | 0, t => [t]
  | steps + 1, t =>
    match splitOnce? sep t 0 with
    | none => [t]
    | some (part, rest) => part :: splitRest sep steps rest

/-- The parts of `t` between the occurrences of `sep`. -/
def splitAll (sep t : Text) : List Text :=
  if sep.isEmpty then [] :: t.map (fun c => [c]) ++ [[]]
  else splitRest sep t.length t

/-- The texts `ts`, trimmed, without those that are empty then. -/
def trimmedNonempty (trim : TrimSet) (ts : List Text) : List Text :=
  (ts.map trim.trim).filter (!·.isEmpty)

/-- The parts of `t` between the occurrences of `sep`, trimmed, without those that are empty then.
-/
def components (sep : Text) (trim : TrimSet) (t : Text) : List Text :=
  trimmedNonempty trim (splitAll sep t)

/-- The parts of `t` before and after the first occurrence of `sep` at index `start` or later. With
a trim set they are trimmed, and those that are empty then are left out. -/
def splitOnceAfter (sep t : Text) (start : Nat) (trim : Option TrimSet) : Option (List Text) :=
  (splitOnce? sep t start).map fun (before, after) =>
    match trim with
    | none => [before, after]
    | some set => trimmedNonempty set [before, after]

end RegexText.Text
