import RegexText.Text.Offset

/-!
# Character indices from byte offsets

Every character takes up a byte at least, so later characters start at larger byte offsets
(`byteOffset_lt`), and the byte offset of a character gives back its index
(`charIndex_byteOffset`).

Byte offsets can be turned into indices one after the other by a walk that goes on from the last one
or, to go back, from the start of the text. A walk always knows its place rightly
(`OffsetWalk.Knows`), so the order of the offsets does not matter (`charIndices_eq`).
-/

namespace RegexText.Text

theorem byteLength_append (t u : Text) : byteLength (t ++ u) = byteLength t + byteLength u := by
  induction t with
  | nil => exact (Nat.zero_add _).symm
  | cons c t ih => rw [List.cons_append, byteLength, byteLength, ih, Nat.add_assoc]

theorem byteLength_pos {t : Text} (h : t ≠ []) : 0 < byteLength t := by
  cases t with
  | nil => exact absurd rfl h
  | cons c t =>
    rw [byteLength]
    have hc := c.utf8Size_pos
    omega

/-- A later character starts at a larger byte offset. -/
theorem byteOffset_lt {t : Text} {i j : Nat} (hij : i < j) (hj : j ≤ t.length) :
    t.byteOffset i < t.byteOffset j := by
  have hsplit : t.take j = t.take i ++ t.slice i j := by
    rw [slice, ← List.take_add, Nat.add_sub_cancel' (Nat.le_of_lt hij)]
  have hne : t.slice i j ≠ [] := by
    refine List.ne_nil_of_length_pos ?_
    rw [length_slice t hj]
    omega
  have hpos := byteLength_pos hne
  rw [byteOffset, byteOffset, hsplit, byteLength_append]
  omega

theorem byteOffset_le_iff {t : Text} {i j : Nat} (hi : i ≤ t.length) (hj : j ≤ t.length) :
    t.byteOffset j ≤ t.byteOffset i ↔ j ≤ i := by
  refine ⟨fun h => Nat.le_of_not_lt fun hlt => ?_, fun h => ?_⟩
  · have := byteOffset_lt hlt hj
    omega
  · rcases Nat.lt_or_eq_of_le h with hlt | rfl
    · exact Nat.le_of_lt (byteOffset_lt hlt hi)
    · exact Nat.le_refl _

/-- The byte offset of a character gives back its index, and one past the end gives the end. -/
theorem charIndex_byteOffset (t : Text) (i : Nat) : t.charIndex (t.byteOffset i) = min i t.length := by
  induction t generalizing i with
  | nil => exact (Nat.min_zero i).symm
  | cons c t ih =>
    have hc := c.utf8Size_pos
    cases i with
    | zero =>
      rw [charIndex, if_pos (by show 0 < _; exact hc), Nat.zero_min]
    | succ i =>
      have hoffset : byteOffset (c :: t) (i + 1) = c.utf8Size + byteOffset t i := rfl
      rw [charIndex, hoffset, if_neg (by omega), Nat.add_sub_cancel_left, ih, List.length_cons]
      omega

theorem charIndex_byteOffset_of_le {t : Text} {i : Nat} (h : i ≤ t.length) :
    t.charIndex (t.byteOffset i) = i := by
  rw [charIndex_byteOffset, Nat.min_eq_left h]

/-! ## One offset after the other -/

theorem charIndex_le_length (t : Text) (b : Nat) : t.charIndex b ≤ t.length := by
  induction t generalizing b with
  | nil => exact Nat.le_refl 0
  | cons c t ih =>
    rw [charIndex, List.length_cons]
    split
    · exact Nat.zero_le _
    · exact Nat.succ_le_succ (ih _)

theorem byteOffset_add (t : Text) (i n : Nat) :
    t.byteOffset (i + n) = t.byteOffset i + byteOffset (t.drop i) n := by
  rw [byteOffset, List.take_add, byteLength_append]
  rfl

/-- From the start of the character with index `i` on, characters can be counted anew. -/
theorem charIndex_eq_add {t : Text} {i b : Nat} (hi : i ≤ t.length) (hb : t.byteOffset i ≤ b) :
    t.charIndex b = i + charIndex (t.drop i) (b - t.byteOffset i) := by
  induction t generalizing i b with
  | nil =>
    obtain rfl : i = 0 := Nat.le_zero.mp hi
    exact (Nat.zero_add _).symm
  | cons c t ih =>
    cases i with
    | zero => exact (Nat.zero_add _).symm
    | succ i =>
      have hoffset : byteOffset (c :: t) (i + 1) = c.utf8Size + byteOffset t i := rfl
      rw [hoffset] at hb ⊢
      rw [charIndex, if_neg (by omega), ih (Nat.le_of_succ_le_succ hi) (by omega), Nat.sub_sub,
        List.drop_succ_cons, Nat.add_right_comm]

namespace OffsetWalk

variable {t : Text} {w : OffsetWalk}

/-- The walk goes through `t`, and knows its place both in characters and in bytes. -/
structure Knows (t : Text) (w : OffsetWalk) : Prop where
  whole_eq : w.whole = t
  chars_le : w.chars ≤ t.length
  ahead_eq : w.ahead = t.drop w.chars
  bytes_eq : w.bytes = t.byteOffset w.chars

theorem knows_start (t : Text) : (start t).Knows t :=
  ⟨rfl, Nat.zero_le _, rfl, rfl⟩

theorem Knows.chars_forward (h : w.Knows t) {b : Nat} (hb : w.bytes ≤ b) :
    (w.forward b).chars = t.charIndex b := by
  show w.chars + charIndex w.ahead (b - w.bytes) = _
  rw [h.ahead_eq, h.bytes_eq]
  exact (charIndex_eq_add h.chars_le (h.bytes_eq ▸ hb)).symm

theorem Knows.forward (h : w.Knows t) {b : Nat} (hb : w.bytes ≤ b) : (w.forward b).Knows t where
  whole_eq := h.whole_eq
  chars_le := h.chars_forward hb ▸ charIndex_le_length t b
  ahead_eq := by
    show w.ahead.drop _ = t.drop (w.chars + _)
    rw [h.ahead_eq, List.drop_drop]
  bytes_eq := by
    show w.bytes + byteOffset w.ahead _ = t.byteOffset (w.chars + _)
    rw [byteOffset_add, h.ahead_eq, h.bytes_eq]

/-- A walk goes to any offset, before or behind its place, and gives its index. -/
theorem Knows.seek (h : w.Knows t) (b : Nat) :
    (w.seek b).Knows t ∧ (w.seek b).chars = t.charIndex b := by
  unfold OffsetWalk.seek
  split
  · have hstart : (start w.whole).Knows t := h.whole_eq ▸ knows_start w.whole
    exact ⟨hstart.forward (Nat.zero_le b), hstart.chars_forward (Nat.zero_le b)⟩
  · rename_i hb
    exact ⟨h.forward (Nat.le_of_not_lt hb), h.chars_forward (Nat.le_of_not_lt hb)⟩

theorem Knows.visit (h : w.Knows t) (bs : List Nat) : w.visit bs = bs.map t.charIndex := by
  induction bs generalizing w with
  | nil => rfl
  | cons b bs ih =>
    obtain ⟨hknows, hchars⟩ := h.seek b
    rw [OffsetWalk.visit, List.map_cons, ← ih hknows, hchars]

end OffsetWalk

/-- Visited one after the other, in any order, byte offsets have the indices that they have each by
itself. -/
theorem charIndices_eq (t : Text) (bs : List Nat) : t.charIndices bs = bs.map t.charIndex :=
  (OffsetWalk.knows_start t).visit bs

end RegexText.Text
