import RegexText.Pattern.Find
import RegexText.Proofs.Regex.Bounds

/-!
# What a match reports of its place

The last index of a match is taken from all its groups, and its text from the part of the text that
was searched. Both agree with the place of the whole match (`matchFirst_placed`): it lies in the
text, from the offset on, and its text is the stretch from its index to its end.

A search looks at nothing before its offset, so text in front only shifts what it finds
(`matchFirst_append`).
-/

namespace RegexText

namespace Match

/-- The match as it is counted from a place `k` characters further to the left. -/
def shift (k : Nat) (m : Match) : Match :=
  { m with index := k + m.index, lastIndex := m.lastIndex.map (k + ·) }

@[simp] theorem shift_index (k : Nat) (m : Match) : (m.shift k).index = k + m.index := rfl
@[simp] theorem shift_lastIndex (k : Nat) (m : Match) :
    (m.shift k).lastIndex = m.lastIndex.map (k + ·) := rfl

@[simp] theorem shift_stop (k : Nat) (m : Match) : (m.shift k).stop = k + m.stop := by
  unfold stop
  cases h : m.lastIndex <;> simp [h, Nat.add_assoc]

/-- The match, found in a text of `length` characters, as it is counted in one of `n` characters
with the same end. -/
def recount (n length : Nat) (m : Match) : Match :=
  { m with
    index := n + m.index - length, lastIndex := m.lastIndex.map fun last => n + last - length }

theorem lastIndexOf?_add (k offset : Nat) (spans : List Span) :
    lastIndexOf? (k + offset) spans = (lastIndexOf? offset spans).map (k + ·) := by
  unfold lastIndexOf?
  have hpos : ∀ s ∈ spans.filter (!·.isEmpty),
      k + offset + s.stop - 1 = k + (offset + s.stop - 1) := by
    intro s hs
    have hne := (List.mem_filter.mp hs).2
    simp only [Span.isEmpty, Bool.not_eq_true', decide_eq_false_iff_not] at hne
    omega
  generalize spans.filter (!·.isEmpty) = kept at hpos
  rw [List.map_congr_left hpos]
  cases hm : (kept.map fun s => offset + s.stop - 1).max? with
  | none =>
    rw [List.max?_eq_none_iff] at hm
    simp only [List.map_eq_nil_iff] at hm
    simp [hm]
  | some a =>
    rw [List.max?_eq_some_iff] at hm
    rw [Option.map_some, List.max?_eq_some_iff]
    simp only [List.mem_map] at hm ⊢
    obtain ⟨⟨s, hs, rfl⟩, hle⟩ := hm
    refine ⟨⟨s, hs, rfl⟩, ?_⟩
    rintro _ ⟨s', hs', rfl⟩
    exact Nat.add_le_add_left (hle _ ⟨s', hs', rfl⟩) k

theorem ofCaptures_add (t : Text) (k offset : Nat) (c : Regex.Captures) :
    ofCaptures t (k + offset) c = (ofCaptures t offset c).shift k := by
  simp only [ofCaptures, shift, lastIndexOf?_add, Nat.add_assoc]

/-- The last index of a match that holds its groups is that of its own last character. -/
theorem lastIndex_ofCaptures {t : Text} {offset lo hi : Nat} {c : Regex.Captures}
    (h : c.Within lo hi) :
    (ofCaptures t offset c).lastIndex =
      if c.whole.start < c.whole.stop then some (offset + c.whole.stop - 1) else none := by
  have hg : ∀ s ∈ c.groups.filterMap id, c.whole.start ≤ s.start ∧ s.stop ≤ c.whole.stop := by
    intro s hs
    obtain ⟨o, ho, rfl⟩ := List.mem_filterMap.mp hs
    exact h.groups s ho
  show lastIndexOf? offset (c.whole :: c.groups.filterMap id) = _
  generalize c.groups.filterMap id = groups at hg
  unfold lastIndexOf?
  split
  · rename_i hlt
    rw [List.max?_eq_some_iff]
    simp only [List.mem_map, List.mem_filter, List.mem_cons, Span.isEmpty, Bool.not_eq_true',
      decide_eq_false_iff_not, Nat.not_le]
    refine ⟨⟨c.whole, ⟨.inl rfl, hlt⟩, rfl⟩, ?_⟩
    rintro _ ⟨s, ⟨rfl | hs, -⟩, rfl⟩
    · exact Nat.le_refl _
    · have := (hg s hs).2
      omega
  · rename_i hlt
    rw [List.max?_eq_none_iff, List.map_eq_nil_iff, List.filter_eq_nil_iff]
    intro s hs
    simp only [Span.isEmpty, Bool.not_eq_true', decide_eq_false_iff_not, Nat.not_le]
    rcases List.mem_cons.mp hs with rfl | hs
    · exact hlt
    · have := hg s hs
      omega

/-- A match lies in `t` from `lo` on, and reports its place and its text rightly. -/
structure Placed (t : Text) (lo : Nat) (m : Match) : Prop where
  lo_le : lo ≤ m.index
  index_le : m.index ≤ m.stop
  stop_le : m.stop ≤ t.length
  text_eq : m.text = t.slice m.index m.stop
  isNone_iff : m.lastIndex.isNone ↔ m.stop = m.index

theorem Placed.mono {t : Text} {lo lo' : Nat} {m : Match} (h : m.Placed t lo') (hlo : lo ≤ lo') :
    m.Placed t lo :=
  { h with lo_le := Nat.le_trans hlo h.lo_le }

theorem stop_ofCaptures (t : Text) (offset : Nat) {lo hi : Nat} {c : Regex.Captures}
    (h : c.Within lo hi) :
    (ofCaptures t offset c).stop = offset + c.whole.stop := by
  have := h.start_le
  unfold stop
  rw [lastIndex_ofCaptures h]
  split <;> rename_i hlast <;> split at hlast <;> cases hlast
  · simp only [ofCaptures]; omega
  · omega

/-- What is found in the rest of `t` from index `k` on has its place in `t`. -/
theorem placed_ofCaptures {t : Text} {k lo : Nat} {c : Regex.Captures} (hk : k ≤ t.length)
    (h : c.Within lo (t.drop k).length) : (ofCaptures (t.drop k) k c).Placed t (k + lo) := by
  have hstop := stop_ofCaptures (t.drop k) k h
  have hlo := h.lo_le
  have hstart := h.start_le
  have hle := h.le_hi
  have hindex : (ofCaptures (t.drop k) k c).index = k + c.whole.start := rfl
  rw [List.length_drop] at hle
  refine ⟨by omega, by omega, by omega, ?_, ?_⟩
  · rw [hstop]
    exact Text.slice_drop t k c.whole.start c.whole.stop
  · rw [lastIndex_ofCaptures h, hstop, hindex]
    split <;> simp <;> omega

/-- What comes after the text that is searched has no part in what is found in it. -/
theorem ofCaptures_append_right (t w : Text) (offset : Nat) {lo : Nat} {c : Regex.Captures}
    (h : c.Within lo t.length) : ofCaptures (t ++ w) offset c = ofCaptures t offset c := by
  have hgroups : c.groups.map (·.map (·.text (t ++ w))) = c.groups.map (·.map (·.text t)) := by
    refine List.map_congr_left fun group hgroup => ?_
    cases group with
    | none => rfl
    | some s =>
      exact congrArg some (Text.slice_append t w (Nat.le_trans (h.groups s hgroup).2 h.le_hi))
  have hwhole : c.whole.text (t ++ w) = c.whole.text t := Text.slice_append t w h.le_hi
  rw [ofCaptures, ofCaptures, hgroups, hwhole]

end Match

namespace Pattern

variable {p : Pattern} {t : Text} {i : Nat} {m : Match}

theorem matchFirst_of_length_le (hi : t.length ≤ i) : p.matchFirst t i = none := if_pos hi

/-- A match is found from the offset on, and its place is as it reports. -/
theorem matchFirst_placed (h : p.matchFirst t i = some m) : m.Placed t i := by
  unfold matchFirst at h
  split at h
  · cases h
  rename_i hlt
  obtain ⟨c, hc, rfl⟩ := Option.map_eq_some_iff.mp h
  exact Match.placed_ofCaptures (Nat.le_of_not_le hlt) (Regex.find?_within hc)

/-- Text in front of what is searched shifts what is found. -/
theorem matchFirst_append (d t : Text) (i : Nat) :
    p.matchFirst (d ++ t) (d.length + i) = (p.matchFirst t i).map (Match.shift d.length) := by
  simp only [matchFirst, List.length_append, List.drop_length_add_append,
    Nat.add_le_add_iff_left]
  split
  · rfl
  · rw [Option.map_map]
    congr 1
    funext c
    exact Match.ofCaptures_add ..

end Pattern

end RegexText
