import RegexText.Proofs.Pattern.Walk

/-!
# Working at an offset

At an offset every operation does what it does at the start of the rest of the text from there, with
all indices counted from the start of the whole text (`Match.shift`). For single and global matches
that is so of each search (`matchFirst_add`, `matchAll_add`). `Pattern.replaceWith` looks at the
whole text at every step, so there it is shown of the walk that its matches come from
(`Walk.Yields.add`) and of the pieces between them (`Segmentation.replaced_shift`).

The main statement is `Pattern.at_offset`.
-/

namespace RegexText

theorem Match.ofOccurrences_add (t : Text) (k offset : Nat) (first : Span) (more : List Span) :
    ofOccurrences t (k + offset) first more = (ofOccurrences t offset first more).shift k := by
  simp only [ofOccurrences, shift, lastIndexOf?_add, Nat.add_assoc]

theorem Match.resume_shift (k : Nat) (m : Match) : (m.shift k).resume = k + m.resume :=
  Nat.add_assoc k m.index _

/-- A text cut from index `k` on, with its matches replaced, and the same of what is left of it from
there. -/
theorem Segmentation.replaced_shift (t : Text) (k i : Nat) (ms : List Match)
    (f : Nat → Match → Text) :
    (ofMatches t (k + i) (ms.map (Match.shift k))).replaced f =
      (ofMatches (t.drop k) i ms).replaced fun n m => f n (m.shift k) := by
  induction ms generalizing i f with
  | nil =>
    show t.drop (k + i) ++ [] = (t.drop k).drop i ++ []
    rw [List.drop_drop]
  | cons m ms ih =>
    rw [List.map_cons, ofMatches, ofMatches, replaced_cons, replaced_cons, Match.shift_index,
      Match.shift_stop, Text.slice_drop]
    exact congrArg (fun rest => t.slice (k + i) (k + m.index) ++ (f 0 (m.shift k) ++ rest))
      (ih m.stop _)

namespace Pattern

variable {p : Pattern} {t : Text} {k i : Nat}

theorem matchFirst_add (p : Pattern) (t : Text) (k i : Nat) :
    p.matchFirst t (k + i) = (p.matchFirst (t.drop k) i).map (Match.shift k) := by
  have hend : t.length ≤ k + i ↔ (t.drop k).length ≤ i := by
    rw [List.length_drop]
    omega
  simp only [matchFirst, hend, List.drop_drop]
  split
  · rfl
  · rw [Option.map_map]
    exact congrArg (Option.map · _) (funext fun c => Match.ofCaptures_add _ k i c)

theorem matchAll_add (p : Pattern) (t : Text) (k i : Nat) :
    p.matchAll t (k + i) = (p.matchAll (t.drop k) i).map (Match.shift k) := by
  have hend : t.length ≤ k + i ↔ (t.drop k).length ≤ i := by
    rw [List.length_drop]
    omega
  simp only [matchAll, hend, List.drop_drop]
  split
  · rfl
  · cases (p.regex.findAll (t.drop (k + i))).map (·.whole) with
    | nil => rfl
    | cons first more => exact congrArg some (Match.ofOccurrences_add _ k i first more)

theorem matchWith_add (p : Pattern) (t : Text) (k i : Nat) (single : Bool) :
    p.matchWith t (k + i) single = (p.matchWith (t.drop k) i single).map (Match.shift k) := by
  unfold matchWith
  split
  · exact p.matchAll_add t k i
  · exact p.matchFirst_add t k i

end Pattern

/-- What a walk yields in the rest of a text from index `k` on, it yields in the whole text. -/
theorem Walk.Yields.add {t : Text} {k : Nat} {w : Walk} {ms : List Match}
    (h : Yields (t.drop k) w ms) :
    Yields t ⟨w.pattern, k + w.position⟩ (ms.map (Match.shift k)) := by
  induction h with
  | @done w w' hnext =>
    have hnone := w.pattern.matchFirst_add t k w.position
    rw [next_eq_none hnext] at hnone
    exact .done (next_of_none hnone)
  | @more w w' m ms hnext hlater ih =>
    obtain ⟨hm, rfl⟩ := next_eq_some hnext
    have hsome := w.pattern.matchFirst_add t k w.position
    rw [hm] at hsome
    have hmore := next_of_some (w := ⟨w.pattern, k + w.position⟩) hsome
    rw [Match.resume_shift] at hmore
    exact .more hmore ih

namespace Pattern

theorem replaceWith_eq_append (p : Pattern) (t : Text) (k : Nat) (f : Nat → Match → Text) :
    p.replaceWith t k f =
      t.take k ++ p.replaceWith (t.drop k) 0 fun n m => f n (m.shift k) := by
  have hrest := Walk.yields_all ⟨p, 0⟩ (t.drop k)
  have hwhole : Walk.Yields t ⟨p, k⟩ _ := hrest.add
  have hshift := Segmentation.replaced_shift t k 0 (((⟨p, 0⟩ : Walk).all (t.drop k)).map (·.1)) f
  rw [replaceWith_of_yields hwhole, replaceWith_of_yields hrest, ← hshift]
  exact Segmentation.replaced_ofMatches_of_le hwhole.laid (Nat.zero_le k) f

/-- At an offset every operation does what it does at the start of the rest of the text: matches are
the same but for their indices, which are counted from the start of the whole text, and what is
replaced stands behind the text before the offset. Past the end of the text there is no rest, and
there the test alone fails whatever the pattern. -/
theorem at_offset (p : Pattern) (t : Text) (k : Nat) :
    p.matchFirst t k = (p.matchFirst (t.drop k) 0).map (Match.shift k) ∧
      p.matchAt t k = (p.matchAt (t.drop k) 0).map (Match.shift k) ∧
      (∀ single, p.matchWith t k single = (p.matchWith (t.drop k) 0 single).map (Match.shift k)) ∧
      (∀ template, p.replace t template k = t.take k ++ p.replace (t.drop k) template 0) ∧
      (∀ f, p.replaceWith t k f =
        t.take k ++ p.replaceWith (t.drop k) 0 fun n m => f n (m.shift k)) ∧
      p.test t k = (decide (k ≤ t.length) && p.test (t.drop k) 0) := by
  refine ⟨p.matchFirst_add t k 0, p.matchWith_add t k 0 false, p.matchWith_add t k 0,
    fun template => rfl, p.replaceWith_eq_append t k, ?_⟩
  rw [test, test, if_neg (Nat.not_lt_zero _), List.drop_zero]
  rcases Nat.lt_or_ge t.length k with hlt | hle
  · rw [if_pos hlt, decide_eq_false (Nat.not_le.mpr hlt), Bool.false_and]
  · rw [if_neg (Nat.not_lt.mpr hle), decide_eq_true hle, Bool.true_and]

end Pattern

end RegexText
