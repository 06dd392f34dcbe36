import RegexText.Text.Basic

/-!
# Character indices and byte offsets

A position in a text can be given as a number of characters or as a number of bytes of its UTF-8
form. `byteOffset` and `charIndex` go from one to the other; both clamp what lies past the end.
`OffsetWalk` converts a run of byte offsets without starting over for each.
-/

namespace RegexText.Text

/-- The number of bytes of the UTF-8 form of `t`. -/
def byteLength : Text → Nat
  | [] => 0
  | c :: cs => c.utf8Size + byteLength cs

/-- The byte offset at which the character with index `i` starts. -/
def byteOffset (t : Text) (i : Nat) : Nat :=
  byteLength (t.take i)

/-- The number of characters of `t` that end at or before byte offset `b`. -/
def charIndex : Text → Nat → Nat
  | [], _ => 0
  | c :: cs, b => if b < c.utf8Size then 0 else charIndex cs (b - c.utf8Size) + 1

/-- A place in a text, known both as a byte offset and as a character index. -/
structure OffsetWalk where
  /-- The whole text. -/
  whole : Text
  /-- What follows the place. -/
  ahead : Text
  /-- The number of bytes before the place. -/
  bytes : Nat
  /-- The number of characters before the place. -/
  chars : Nat

namespace OffsetWalk

/-- The start of `t`. -/
def start (t : Text) : OffsetWalk := ⟨t, t, 0, 0⟩

/-- The walk moved forward to byte offset `b`, which does not lie before it. -/
def forward (w : OffsetWalk) (b : Nat) : OffsetWalk :=
  let n := charIndex w.ahead (b - w.bytes)
  ⟨w.whole, w.ahead.drop n, w.bytes + byteOffset w.ahead n, w.chars + n⟩

/-- The walk moved to byte offset `b`, from the start of the text if `b` lies before it. -/
def seek (w : OffsetWalk) (b : Nat) : OffsetWalk :=
  if b < w.bytes then (start w.whole).forward b else w.forward b

/-- The character indices of the byte offsets `bs`, visited one after the other. -/
def visit (w : OffsetWalk) : List Nat → List Nat
  | [] => []
  | b :: bs => let w := w.seek b; w.chars :: w.visit bs

end OffsetWalk

/-- The character indices of the byte offsets `bs` of `t`, in their order. -/
def charIndices (t : Text) (bs : List Nat) : List Nat :=
  (OffsetWalk.start t).visit bs

end RegexText.Text
