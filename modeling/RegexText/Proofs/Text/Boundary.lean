import RegexText.Proofs.Text.Offset

/-!
# Character boundaries

The UTF-8 form of a text can be cut at the byte offsets of its characters and at its end, and
nowhere else (`isBoundary_iff`). Between these boundaries and the indices of the text, `byteOffset`
and `charIndex` undo each other (`charIndex_byteOffset`, `byteOffset_charIndex`). What lies past the
end stands for the end, in characters as in bytes.

The main statement is `offsets_inverse`.
-/

namespace RegexText.Text

variable {t : Text} {b : Nat}

/-- The UTF-8 form of `t` can be cut at byte offset `b`: what comes before is again the UTF-8 form
of a text. -/
def IsBoundary (t : Text) (b : Nat) : Prop := (String.Pos.Raw.mk b).IsValid (String.ofList t)

instance (t : Text) (b : Nat) : Decidable (t.IsBoundary b) :=
  inferInstanceAs (Decidable ((String.Pos.Raw.mk b).IsValid (String.ofList t)))

theorem byteLength_eq (t : Text) : t.byteLength = (String.ofList t).utf8ByteSize := by
  induction t with
  | nil => rfl
  | cons c t ih =>
    rw [byteLength, String.ofList_cons, String.utf8ByteSize_append, String.utf8ByteSize_singleton,
      ih]

theorem isBoundary_iff : t.IsBoundary b ↔ ∃ i, b = t.byteOffset i := by
  rw [IsBoundary, String.Pos.Raw.isValid_ofList]
  simp only [byteOffset, byteLength_eq]

/-! ## There and back -/

theorem byteOffset_length (t : Text) : t.byteOffset t.length = t.byteLength := by
  rw [byteOffset, List.take_length]

theorem byteOffset_min_length (t : Text) (i : Nat) :
    t.byteOffset (min i t.length) = t.byteOffset i := by
  rw [byteOffset, byteOffset, ← List.take_eq_take_min]

theorem byteOffset_le_byteLength (t : Text) (i : Nat) : t.byteOffset i ≤ t.byteLength :=
  calc t.byteOffset i ≤ t.byteOffset i + byteLength (t.drop i) := Nat.le_add_right _ _
    _ = t.byteLength := by rw [byteOffset, ← byteLength_append, List.take_append_drop]

/-- A byte offset past the end is that of no character. -/
theorem charIndex_of_byteLength_le (h : t.byteLength ≤ b) : t.charIndex b = t.length := by
  rw [charIndex_eq_add (Nat.le_refl _) (byteOffset_length t ▸ h), List.drop_length]
  rfl

/-- The index of a boundary gives back the boundary, and past the end it gives the end. -/
theorem byteOffset_charIndex (h : t.IsBoundary b ∨ t.byteLength ≤ b) :
    t.byteOffset (t.charIndex b) = min b t.byteLength := by
  rcases h with hb | hend
  · obtain ⟨i, rfl⟩ := isBoundary_iff.mp hb
    rw [charIndex_byteOffset, byteOffset_min_length,
      Nat.min_eq_left (byteOffset_le_byteLength t i)]
  · rw [charIndex_of_byteLength_le hend, byteOffset_length, Nat.min_eq_right hend]

/-- Character indices and byte offsets in the UTF-8 form of a text are two ways to say the same. An
index gives a boundary, which gives back the index, and a boundary gives an index, which gives back
the boundary, where the end stands for all that lies past it. A later index gives a later boundary,
and from any place on both can be counted anew. -/
theorem offsets_inverse (t : Text) :
    t.byteLength = (String.ofList t).utf8ByteSize ∧
      (∀ i, t.charIndex (t.byteOffset i) = min i t.length) ∧
      (∀ b, t.IsBoundary b ∨ t.byteLength ≤ b →
        t.byteOffset (t.charIndex b) = min b t.byteLength) ∧
      (∀ i, t.IsBoundary (t.byteOffset i)) ∧
      (∀ i j, i < j → j ≤ t.length → t.byteOffset i < t.byteOffset j) ∧
      ∀ k i, k ≤ i → t.byteOffset i = t.byteOffset k + byteOffset (t.drop k) (i - k) := by
  refine ⟨byteLength_eq t, charIndex_byteOffset t, fun b => byteOffset_charIndex,
    fun i => isBoundary_iff.mpr ⟨i, rfl⟩, fun i j => byteOffset_lt, fun k i hki => ?_⟩
  rw [← byteOffset_add, Nat.add_sub_cancel' hki]

theorem offsets_inverse_mixed_widths :
    (IsBoundary "añ€😀".toList 6 ∧ ¬ IsBoundary "añ€😀".toList 5 ∧
        byteOffset "añ€😀".toList (charIndex "añ€😀".toList 6) = 6) ∧
      (byteLength "añ€😀".toList ≤ 18446744073709551615 ∧
        byteOffset "añ€😀".toList (charIndex "añ€😀".toList 18446744073709551615) = 10) ∧
      (3 < 4 ∧ 4 ≤ "añ€😀".toList.length ∧
        byteOffset "añ€😀".toList 3 < byteOffset "añ€😀".toList 4) ∧
      1 ≤ 3 ∧ byteOffset "añ€😀".toList 3 =
        byteOffset "añ€😀".toList 1 + byteOffset "ñ€😀".toList 2 := by
  have hboundary : IsBoundary "añ€😀".toList 6 := by decide
  have hinside : ¬ IsBoundary "añ€😀".toList 5 := by decide
  have hend : byteLength "añ€😀".toList ≤ 18446744073709551615 := by decide
  have hlength : 4 ≤ "añ€😀".toList.length := by decide
  obtain ⟨-, -, hback, -, hlt, hadd⟩ := offsets_inverse "añ€😀".toList
  exact ⟨⟨hboundary, hinside, hback 6 (.inl hboundary)⟩, ⟨hend, hback _ (.inr hend)⟩,
    ⟨by decide, hlength, hlt 3 4 (by decide) hlength⟩, by decide, hadd 1 3 (by decide)⟩

end RegexText.Text
