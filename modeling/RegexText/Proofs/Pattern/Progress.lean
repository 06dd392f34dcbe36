import Mathlib.Data.Nat.PSub
import RegexText.Proofs.Pattern.Walk

/-!
# Walks move ahead and end

Every match moves a walk ahead, at least to the end of the match, and at most to one place past the
end of the text (`Walk.next_bounds`). A walk finds nothing from the end of the text on, so it yields
at most as many matches as there are characters left (`Walk.Yields.length_le`), one behind the other
(`Walk.Yields.pairwise`).

No number is worked out on the way that exceeds the last of these places. `Walk.nextUpTo?` is the
next step worked out in numbers up to a limit, with no result where one of them would exceed it or
lie below zero; it has the same result as in unbounded numbers (`Walk.nextUpTo?_eq`).

The main statement is `Walk.progresses`.
-/

namespace RegexText

/-! ## Numbers up to a limit -/

/-- The sum of two numbers, unless it exceeds `limit`. -/
def addUpTo? (limit a b : Nat) : Option Nat := if a + b ≤ limit then some (a + b) else none

theorem addUpTo?_eq {limit a b : Nat} (h : a + b ≤ limit) : addUpTo? limit a b = some (a + b) :=
  if_pos h

namespace Match

variable {t : Text} {limit offset : Nat}

/-- The last index of the characters of the spans, worked out in numbers up to `limit`. -/
def lastIndexUpTo? (limit offset : Nat) (spans : List Span) : Option (Option Nat) :=
  ((spans.filter (!·.isEmpty)).mapM fun s =>
    (addUpTo? limit offset s.stop).bind Nat.ppred).map List.max?

/-- The match found in `t`, worked out in numbers up to `limit`. -/
def ofCapturesUpTo? (limit : Nat) (t : Text) (offset : Nat) (c : Regex.Captures) : Option Match := do
  let index ← addUpTo? limit offset c.whole.start
  let lastIndex ← lastIndexUpTo? limit offset (c.whole :: c.groups.filterMap id)
  some { ofCaptures t offset c with index, lastIndex }

theorem mapM_eq_some_map {α β : Type} {f : α → Option β} {g : α → β} {xs : List α}
    (h : ∀ x ∈ xs, f x = some (g x)) : xs.mapM f = some (xs.map g) := by
  induction xs with
  | nil => rfl
  | cons x xs ih =>
    obtain ⟨hx, hxs⟩ := List.forall_mem_cons.mp h
    simp [hx, ih hxs]

theorem lastIndexUpTo?_eq {spans : List Span} (h : ∀ s ∈ spans, offset + s.stop ≤ limit) :
    lastIndexUpTo? limit offset spans = some (lastIndexOf? offset spans) := by
  have hlast : ∀ s ∈ spans.filter (!·.isEmpty),
      (addUpTo? limit offset s.stop).bind Nat.ppred = some (offset + s.stop - 1) := by
    intro s hs
    obtain ⟨hmem, hne⟩ := List.mem_filter.mp hs
    simp only [Span.isEmpty, Bool.not_eq_true', decide_eq_false_iff_not] at hne
    rw [addUpTo?_eq (h s hmem)]
    exact Nat.ppred_eq_some.mpr (by omega)
  rw [lastIndexUpTo?, mapM_eq_some_map hlast]
  rfl

theorem ofCapturesUpTo?_eq {lo : Nat} {c : Regex.Captures} (h : c.Within lo t.length)
    (hlimit : offset + t.length ≤ limit) :
    ofCapturesUpTo? limit t offset c = some (ofCaptures t offset c) := by
  have hstart := h.start_le
  have hstop := h.le_hi
  have hspans : ∀ s ∈ c.whole :: c.groups.filterMap id, offset + s.stop ≤ limit := by
    refine List.forall_mem_cons.mpr ⟨by omega, fun s hs => ?_⟩
    obtain ⟨group, hgroup, rfl⟩ := List.mem_filterMap.mp hs
    have hinside := (h.groups s hgroup).2
    omega
  rw [ofCapturesUpTo?, addUpTo?_eq (by omega), lastIndexUpTo?_eq hspans]
  rfl

end Match

namespace Walk

variable {t : Text} {w w' : Walk} {m : Match} {ms : List Match} {limit : Nat}

/-- The next match in `t` and the walk after it, worked out in numbers up to `limit`. -/
def nextUpTo? (limit : Nat) (w : Walk) (t : Text) : Option (Option Match × Walk) :=
  if t.length ≤ w.position then some (none, { w with position := 0 })
  else
    let rest := t.drop w.position
    match w.pattern.regex.find? rest 0 with
    | none => some (none, { w with position := 0 })
    | some c => do
      let m ← Match.ofCapturesUpTo? limit rest w.position c
      let position ← addUpTo? limit m.index (m.text.length.max 1)
      some (some m, { w with position })

/-! ## One call -/

/-- A match lies at or after the position of the walk and moves it ahead, to the end of the match or
one character after its start, and at most one place past the end of the text. -/
theorem next_bounds (h : w.next t = (some m, w')) :
    w.position ≤ m.index ∧ w.position < w'.position ∧ m.stop ≤ w'.position ∧
      m.index < w'.position ∧ w'.position ≤ t.length + 1 := by
  obtain ⟨hm, rfl⟩ := next_eq_some h
  have hplaced := Pattern.matchFirst_placed hm
  have hlo := hplaced.lo_le
  have hindex := hplaced.index_le
  have hstop := hplaced.stop_le
  show _ ∧ _ < m.resume ∧ _ ≤ m.resume ∧ _ < m.resume ∧ m.resume ≤ _
  rw [hplaced.resume_eq]
  omega

/-- Where nothing is left the walk goes back to the start. -/
theorem next_rewinds (h : w.next t = (none, w')) : w' = ⟨w.pattern, 0⟩ := by
  rw [next_of_none (next_eq_none h)] at h
  cases h
  rfl

/-- In numbers up to one place past the end of the text the next step is the same. -/
theorem nextUpTo?_eq (hlimit : t.length + 1 ≤ limit) (w : Walk) :
    w.nextUpTo? limit t = some (w.next t) := by
  unfold nextUpTo? next Pattern.matchFirst
  split
  · rfl
  · rename_i hlt
    dsimp only
    cases hc : w.pattern.regex.find? (t.drop w.position) 0 with
    | none => rfl
    | some c =>
      have hw := Regex.find?_within hc
      have hlen : w.position + (t.drop w.position).length ≤ limit := by
        rw [List.length_drop]
        omega
      have hplaced := Match.placed_ofCaptures (Nat.le_of_not_le hlt) hw
      have hresume := hplaced.resume_eq
      have hindex := hplaced.index_le
      have hstop := hplaced.stop_le
      have hposition : (Match.ofCaptures (t.drop w.position) w.position c).resume ≤ limit := by
        omega
      show (Match.ofCapturesUpTo? limit _ w.position c).bind _ = _
      rw [Match.ofCapturesUpTo?_eq hw hlen, Option.bind_some, addUpTo?_eq hposition]
      rfl

/-! ## A whole walk -/

/-- What a walk yields lies at or after its position. -/
theorem Yields.position_le (h : Yields t w ms) : ∀ m ∈ ms, w.position ≤ m.index := by
  induction h with
  | done => simp
  | more hnext _ ih =>
    obtain ⟨hle, hlt, -⟩ := next_bounds hnext
    exact List.forall_mem_cons.mpr ⟨hle, fun m hm => Nat.le_trans (Nat.le_of_lt hlt) (ih m hm)⟩

/-- What a walk yields lies one behind the other. -/
theorem Yields.pairwise (h : Yields t w ms) :
    ms.Pairwise fun m m' => m.stop ≤ m'.index ∧ m.index < m'.index := by
  induction h with
  | done => exact .nil
  | more hnext hlater ih =>
    obtain ⟨-, -, hstop, hindex, -⟩ := next_bounds hnext
    refine .cons (fun m hm => ?_) ih
    have hle := hlater.position_le m hm
    omega

/-- A walk yields at most as many matches as there are characters from its position on. -/
theorem Yields.length_le (h : Yields t w ms) : ms.length ≤ t.length - w.position := by
  induction h with
  | done => exact Nat.zero_le _
  | more hnext _ ih =>
    have hlt := (position_lt (next_eq_some hnext).1).1
    obtain ⟨-, hahead, -⟩ := next_bounds hnext
    rw [List.length_cons]
    omega

/-- Every match that a walk finds moves it ahead, and after no more matches than there are
characters left it finds nothing and is back at the start. The matches lie one behind the other, and
nothing is worked out on the way that exceeds the place after the end of the text. -/
theorem progresses (p : Pattern) (t : Text) :
    (∀ i m w', Walk.next ⟨p, i⟩ t = (some m, w') →
        i ≤ m.index ∧ i < w'.position ∧ m.stop ≤ w'.position ∧ w'.position ≤ t.length + 1) ∧
      (∀ i w', Walk.next ⟨p, i⟩ t = (none, w') → w' = ⟨p, 0⟩) ∧
      (∀ i, nextUpTo? (t.length + 1) ⟨p, i⟩ t = some (Walk.next ⟨p, i⟩ t)) ∧
      ∀ i, ∃ ms, Yields t ⟨p, i⟩ ms ∧ ms.length ≤ t.length - i ∧
        ms.Pairwise fun m m' => m.stop ≤ m'.index ∧ m.index < m'.index := by
  refine ⟨fun i m w' h => ?_, fun i w' h => next_rewinds h, fun i => nextUpTo?_eq (Nat.le_refl _) _,
    fun i => ?_⟩
  · obtain ⟨hle, hahead, hstop, -, hend⟩ := next_bounds h
    exact ⟨hle, hahead, hstop, hend⟩
  · have hyields := yields_all ⟨p, i⟩ t
    exact ⟨_, hyields, hyields.length_le, hyields.pairwise⟩

/-- The end of a text. -/
def textEnd : Pattern := ⟨['$'], {}, .ofExpr (.assert .textEnd)⟩

theorem compile_textEnd : Pattern.compile ['$'] [] = .ok textEnd := rfl

/-- A match at the end of the text moves a walk one place past it, from where it goes back. -/
theorem progresses_past_end :
    Walk.next ⟨textEnd, 0⟩ ['é'] = (some ⟨[some []], 1, none⟩, ⟨textEnd, 2⟩) ∧
      (0 ≤ 1 ∧ 0 < 2 ∧ 1 ≤ 2 ∧ 2 ≤ (['é'] : Text).length + 1) ∧
      Walk.next ⟨textEnd, 2⟩ ['é'] = (none, ⟨textEnd, 0⟩) ∧
      (⟨textEnd, 0⟩ : Walk) = ⟨textEnd, 0⟩ := by
  have hfirst : Walk.next ⟨textEnd, 0⟩ ['é'] = (some ⟨[some []], 1, none⟩, ⟨textEnd, 2⟩) := by rfl
  have hsecond : Walk.next ⟨textEnd, 2⟩ ['é'] = (none, ⟨textEnd, 0⟩) := by rfl
  obtain ⟨hfound, hnone, -⟩ := progresses textEnd ['é']
  exact ⟨hfirst, hfound 0 _ _ hfirst, hsecond, hnone 2 _ hsecond⟩

end Walk

end RegexText
