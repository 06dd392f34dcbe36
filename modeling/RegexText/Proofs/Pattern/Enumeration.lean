import RegexText.Proofs.Pattern.Literal
import RegexText.Proofs.Pattern.Successive
import RegexText.Proofs.Pattern.Walk
import RegexText.Proofs.Regex.Suffix

/-!
# Two ways to go through the matches

The matches of a text can be had from one search that goes on behind each of them (`Regex.findAll`),
or from a walk that searches the rest of the text anew every time. The walk's searches do not see
what came before, and after an empty match the two go on differently. Where a search finds the same
in a suffix as in the whole text, and never the empty text, both ways lead through the same matches
(`Pattern.yields_matchesFrom`).

What `Pattern.replace` and `Pattern.matchAll` make of the matches of one search holds of every
pattern (`replace_eq_replaced`, `matchAll_values`). The main statement is `enumerations_agree`.
-/

namespace RegexText

namespace Regex

variable {re : Regex} {t : Text} {i : Nat}

/-- The search never finds the empty text. -/
def NeverEmpty (re : Regex) : Prop :=
  ∀ t i c, re.find? t i = some c → c.whole.start < c.whole.stop

theorem NeverEmpty.findNext?_eq (h : re.NeverEmpty) (t : Text) (i : Nat) :
    re.findNext? t i = re.find? t i := by
  unfold findNext?
  cases hc : re.find? t i with
  | none => rfl
  | some c =>
    have hne : c.whole.isEmpty = false := by
      have := h t i c hc
      simp only [Span.isEmpty, decide_eq_false_iff_not]
      omega
    simp only [hne, Bool.false_and, Bool.false_eq_true, if_false]

/-- Then the first match is looked for as every other. -/
theorem NeverEmpty.findAll_eq (h : re.NeverEmpty) (t : Text) :
    re.findAll t = re.findMore t (t.length + 2) 0 := by
  rw [findMore, h.findNext?_eq]
  rfl

/-- At the end of a text nothing but the empty text can be found. -/
theorem NeverEmpty.find?_length (h : re.NeverEmpty) (t : Text) : re.find? t t.length = none := by
  cases hc : re.find? t t.length with
  | none => rfl
  | some c =>
    have hw := find?_within hc
    have hlo := hw.lo_le
    have hle := hw.le_hi
    have := h t _ c hc
    omega

/-- A match of a program that starts by reading a character holds that character. -/
theorem start_lt_stop_of_chars {s : CharClass} (h : re.program[0]? = some (.chars s))
    {before : Option Char} {pos : Nat} {rest : Text} {c : Captures}
    (hc : re.matchAt? before pos rest = some c) : c.whole.start < c.whole.stop := by
  obtain ⟨⟨stop, marks⟩, hr, rfl⟩ := Option.map_eq_some_iff.mp hc
  rw [Program.threadsFrom_stay _ _ (.inr ⟨s, h⟩), Program.run_of_chars h] at hr
  cases rest with
  | nil => cases hr
  | cons a cs =>
    dsimp only at hr
    split at hr
    · have hstart : ThreadsWithin (pos + 1) (pos + 1) [⟨0 + 1, []⟩] := by
        simp [ThreadsWithin, Marks.within_nil]
      exact (Program.run_bounds cs (Nat.le_refl _)
        (Program.threadsFrom_within (Nat.le_refl _) hstart) hr).1
    · cases hr

/-- What a scan finds is a match at some position. -/
theorem exists_matchAt?_of_scan {before : Option Char} {pos : Nat} {rest : Text} {c : Captures}
    (h : re.scan before pos rest = some c) :
    ∃ before pos rest, re.matchAt? before pos rest = some c := by
  induction rest generalizing before pos with
  | nil =>
    unfold scan at h
    split at h
    · cases h
      exact ⟨_, _, _, ‹_›⟩
    · cases h
  | cons a cs ih =>
    unfold scan at h
    split at h
    · cases h
      exact ⟨_, _, _, ‹_›⟩
    · exact ih h

theorem neverEmpty_of_chars {s : CharClass} (h : re.program[0]? = some (.chars s)) :
    re.NeverEmpty := by
  intro t i c hc
  unfold find? at hc
  split at hc
  · obtain ⟨before, pos, rest, hmatch⟩ := exists_matchAt?_of_scan hc
    exact start_lt_stop_of_chars h hmatch
  · cases hc

end Regex

theorem Span.text_drop (s : Span) (t : Text) (i : Nat) :
    (s.shift i).text t = s.text (t.drop i) := by
  rw [Span.text, Span.text, Text.slice_drop]
  rfl

/-- A match counted from a place `i` characters before the text that it was found in. -/
theorem Match.ofCaptures_shift (t : Text) (k i : Nat) (c : Regex.Captures) :
    ofCaptures t k (c.shift i) = ofCaptures (t.drop i) (k + i) c := by
  have hgroups : (c.shift i).groups.filterMap id = (c.groups.filterMap id).map (Span.shift i) := by
    rw [Regex.Captures.shift, List.filterMap_map, List.map_filterMap]
    rfl
  have hlast : lastIndexOf? k ((c.whole :: c.groups.filterMap id).map (Span.shift i)) =
      lastIndexOf? (k + i) (c.whole :: c.groups.filterMap id) := by
    generalize c.whole :: c.groups.filterMap id = spans
    have hempty : ((!·.isEmpty) ∘ Span.shift i) = (!·.isEmpty : Span → Bool) := by
      funext s
      simp only [Function.comp_apply, Span.isEmpty, Span.shift, Nat.add_le_add_iff_left]
    rw [lastIndexOf?, lastIndexOf?, List.filter_map, hempty, List.map_map]
    simp only [Function.comp_def, Span.shift, Nat.add_assoc]
  have hvalues :
      (ofCaptures t k (c.shift i)).values = (ofCaptures (t.drop i) (k + i) c).values := by
    simp only [ofCaptures, Regex.Captures.shift, Span.text_drop, List.map_map, Option.map_map,
      Function.comp_def]
  show Match.mk _ _ (lastIndexOf? k (_ :: (c.shift i).groups.filterMap id)) = Match.mk _ _ _
  rw [hgroups, Match.mk.injEq]
  exact ⟨hvalues, (Nat.add_assoc ..).symm, hlast⟩

namespace Pattern

variable {p : Pattern} {t : Text} {k i : Nat}

/-- What is found anew in the rest of the text is what the search from there finds. -/
theorem matchFirst_eq_find? (hne : p.regex.NeverEmpty) (hs : p.regex.SuffixStable)
    (hk : k ≤ t.length) (hi : i ≤ (t.drop k).length) :
    p.matchFirst t (k + i) =
      (p.regex.find? (t.drop k) i).map (Match.ofCaptures (t.drop k) k) := by
  unfold matchFirst
  split
  · rename_i hend
    have hlast : i = (t.drop k).length := by
      rw [List.length_drop] at hi ⊢
      omega
    rw [hlast, hne.find?_length]
    rfl
  · rw [hs (t.drop k) i hi, Option.map_map, List.drop_drop]
    have hshift : Match.ofCaptures (t.drop k) k ∘ Regex.Captures.shift i =
        Match.ofCaptures (t.drop (k + i)) (k + i) := by
      funext c
      rw [Function.comp_apply, Match.ofCaptures_shift, List.drop_drop]
    rw [hshift]

/-- A walk yields the matches that the search finds one after the other. -/
theorem yields_findMore (hne : p.regex.NeverEmpty) (hs : p.regex.SuffixStable)
    (hk : k ≤ t.length) {steps : Nat} (hi : i ≤ (t.drop k).length)
    (hsteps : (t.drop k).length - i < steps) :
    Walk.Yields t ⟨p, k + i⟩
      ((p.regex.findMore (t.drop k) steps i).map (Match.ofCaptures (t.drop k) k)) := by
  induction steps generalizing i with
  | zero => cases hsteps
  | succ steps ih =>
    have hfirst := matchFirst_eq_find? hne hs hk hi
    rw [Regex.findMore, hne.findNext?_eq]
    cases hc : p.regex.find? (t.drop k) i with
    | none =>
      rw [hc] at hfirst
      exact .done (Walk.next_of_none hfirst)
    | some c =>
      rw [hc] at hfirst
      have hw := Regex.find?_within hc
      have hlt := hne _ _ _ hc
      have hlo := hw.lo_le
      have hle := hw.le_hi
      have hresume : (Match.ofCaptures (t.drop k) k c).resume = k + c.whole.stop := by
        rw [(Match.placed_ofCaptures hk hw).resume_eq, Match.stop_ofCaptures _ k hw]
        show max (k + c.whole.stop) (k + c.whole.start + 1) = _
        omega
      have hlater := ih hle (by omega)
      rw [← hresume] at hlater
      exact .more (Walk.next_of_some hfirst) hlater

/-- A walk from the offset on yields the successive matches from there. -/
theorem yields_matchesFrom (hne : p.regex.NeverEmpty) (hs : p.regex.SuffixStable) (t : Text)
    (offset : Nat) : Walk.Yields t ⟨p, offset⟩ (p.matchesFrom t offset) := by
  have hk : min offset t.length ≤ t.length := Nat.min_le_right _ _
  have h : Walk.Yields t ⟨p, min offset t.length + 0⟩ (p.matchesFrom t offset) := by
    rw [matchesFrom, hne.findAll_eq]
    exact yields_findMore hne hs hk (Nat.zero_le _) (by omega)
  rw [Nat.add_zero] at h
  rcases Nat.le_total offset t.length with hle | hle
  · rwa [Nat.min_eq_left hle] at h
  · rw [Nat.min_eq_right hle] at h
    rw [h.eq_nil (Nat.le_refl _)]
    exact .done (Walk.next_of_none (if_pos hle))

/-! ## What is made of the matches of one search -/

/-- What is left after the matches of a search are replaced, where what replaces a match depends on
what it reports. -/
theorem substituteFrom_eq {lo : Nat} {cs : List Regex.Captures} (F : Match → Text)
    (h : Regex.InOrder (t.drop k).length lo cs) :
    Regex.substituteFrom (t.drop k) (fun c => F (Match.ofCaptures (t.drop k) k c)) lo cs =
      (Segmentation.ofMatches t (k + lo) (cs.map (Match.ofCaptures (t.drop k) k))).replaced
        fun _ => F := by
  induction cs generalizing lo with
  | nil =>
    rw [Regex.substituteFrom, List.drop_drop]
    exact (List.append_nil _).symm
  | cons c cs ih =>
    obtain ⟨hw, hlater⟩ := h
    rw [Regex.substituteFrom, ih hlater, List.map_cons, Segmentation.ofMatches,
      Segmentation.replaced_cons, Match.stop_ofCaptures _ k hw, Text.slice_drop,
      List.append_assoc]
    rfl

/-- A template replaces the successive matches from the offset on, whatever the pattern. -/
theorem replace_eq_replaced (p : Pattern) (t template : Text) (offset : Nat) :
    p.replace t template offset =
      (Segmentation.ofMatches t 0 (p.matchesFrom t offset)).replaced fun _ m =>
        m.expand template := by
  have h := substituteFrom_eq (t := t) (k := min offset t.length) (fun m => m.expand template)
    (Regex.findAll_inOrder p.regex _)
  have htake : t.take offset = t.slice 0 (min offset t.length) := by
    rw [Text.slice, List.drop_zero, Nat.sub_zero, List.take_eq_take_min]
  rw [Segmentation.replaced_ofMatches_of_le (p.laid_matchesFrom t offset) (Nat.zero_le _),
    replace, htake, ← drop_min_length t offset]
  exact congrArg (t.slice 0 (min offset t.length) ++ ·) h

/-- A global match reports the texts of the successive matches from the offset on. -/
theorem matchAll_values (p : Pattern) {t : Text} {offset : Nat} (h : offset < t.length) :
    (p.matchAll t offset).map (·.values) =
      if (p.matchesFrom t offset).isEmpty then none
      else some ((p.matchesFrom t offset).map fun m => some m.text) := by
  simp only [matchAll, if_neg (Nat.not_le.mpr h), matchesFrom, Nat.min_eq_left (Nat.le_of_lt h)]
  cases p.regex.findAll (t.drop offset) with
  | nil => rfl
  | cons c cs =>
    simp only [List.map_cons, List.map_map, Match.ofOccurrences]
    rfl

/-! ## The two ways -/

/-- The pattern with the flag `g`. -/
def globally (p : Pattern) : Pattern := { p with flags := { p.flags with global := true } }

/-- For a pattern that never matches the empty text, and whose search finds in a suffix what it
finds from there on, the two ways agree. A template replaces what a function is called on that
expands the template for each match of a walk, and a global match reports the texts of the matches
that a walk yields, or is absent where the walk yields none. -/
theorem enumerations_agree (hne : p.regex.NeverEmpty) (hs : p.regex.SuffixStable) (t : Text)
    (offset : Nat) :
    (∀ template,
        p.replace t template offset = p.replaceWith t offset fun _ m => m.expand template) ∧
      ∃ ms, Walk.Yields t ⟨p, offset⟩ ms ∧
        (p.globally.matchAt t offset).map (·.values) =
          if ms.isEmpty then none else some (ms.map fun m => some m.text) := by
  have h := yields_matchesFrom hne hs t offset
  refine ⟨fun template => ?_, _, h, ?_⟩
  · rw [replace_eq_replaced, replaceWith_of_yields h]
  · have hglobal : p.globally.matchAt t offset = p.matchAll t offset := rfl
    rw [hglobal]
    rcases Nat.lt_or_ge offset t.length with hlt | hle
    · exact matchAll_values p hlt
    · rw [h.eq_nil hle, matchAll, if_pos hle]
      rfl

/-- An `a`, any number of `b`s as group 1, and possibly a `c` as group 2. -/
def optionalGroups : Pattern :=
  ⟨"a(b*)(c)?".toList, {}, .ofExpr (.seq (.chars (.single 'a'))
    (.seq (.group 1 (.repeated true ⟨0, none⟩ (.chars (.single 'b'))))
      (.repeated true ⟨0, some 1⟩ (.group 2 (.chars (.single 'c'))))))⟩

theorem compile_optionalGroups : compile "a(b*)(c)?".toList [] = .ok optionalGroups := rfl

theorem enumerations_agree_optionalGroups :
    optionalGroups.regex.NeverEmpty ∧ optionalGroups.regex.SuffixStable ∧
      (∀ template, optionalGroups.replace "xabc-a".toList template 1 =
        optionalGroups.replaceWith "xabc-a".toList 1 fun _ m => m.expand template) ∧
      ∃ ms, Walk.Yields "xabc-a".toList ⟨optionalGroups, 1⟩ ms ∧
        (optionalGroups.globally.matchAt "xabc-a".toList 1).map (·.values) =
          if ms.isEmpty then none else some (ms.map fun m => some m.text) := by
  have hne : optionalGroups.regex.NeverEmpty := Regex.neverEmpty_of_chars rfl
  have hs : optionalGroups.regex.SuffixStable :=
    Regex.suffixStable_of_assertionFree (Regex.Expr.assertionFree_program rfl)
  exact ⟨hne, hs, enumerations_agree hne hs "xabc-a".toList 1⟩

example : optionalGroups.replace "xabc-a".toList "<$1|$2>".toList 1 = "x<b|c>-<|>".toList := by
  decide

end Pattern

end RegexText
