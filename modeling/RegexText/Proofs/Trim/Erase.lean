import RegexText.Pattern.Trim
import RegexText.Proofs.Pattern.Successive
import RegexText.Proofs.Regex.Matches

/-!
# Erasing what is found

`Regex.erase` takes the successive matches out of a text. Empty matches leave it as it is
(`erase_of_empty`). What matches at the start of a text only takes off what its one match reads
(`AtStart.erase_of_some`), and what matches up to the end of a text only takes off all from its
first match on (`AtEnd.erase_of_some`). So an anchored expression takes off an end of the text what
the expression matches there: at the start the preferred match (`exists_front`), at the end the
longest one (`exists_back`). Trimming erases one of each kind (`trimRuns_eq_erase`).
-/

namespace RegexText

namespace Regex

variable {re : Regex} {t : Text} {i lo : Nat} {c : Captures} {cs : List Captures}

/-- `t` without the matches of the expression. -/
def erase (re : Regex) (t : Text) : Text := re.substitute t fun _ => []

/-- Empty matches leave what follows as it is. -/
theorem substituteFrom_of_empty (h : InOrder t.length lo cs)
    (hempty : ∀ c ∈ cs, c.whole.stop = c.whole.start) :
    substituteFrom t (fun _ => []) lo cs = t.drop lo := by
  induction cs generalizing lo with
  | nil => rfl
  | cons c cs ih =>
    obtain ⟨hw, hlater⟩ := h
    rw [substituteFrom, List.append_nil, ih hlater fun c hc => hempty c (List.mem_cons_of_mem _ hc),
      hempty c List.mem_cons_self, Text.slice_append_drop t hw.lo_le]

theorem erase_of_none (hc : re.find? t 0 = none) : re.erase t = t := by
  have hfound : re.findAll t = [] := by rw [findAll, hc]
  rw [erase, substitute, hfound, substituteFrom, List.drop_zero]

theorem exists_find?_of_mem_findAll {c : Captures} (h : c ∈ re.findAll t) :
    ∃ i, re.find? t i = some c := by
  have hnext {i : Nat} {c : Captures} (h : re.findNext? t i = some c) :
      ∃ i, re.find? t i = some c := by
    unfold findNext? at h
    split at h
    · cases h
    · split at h
      · exact ⟨_, h⟩
      · exact ⟨i, h ▸ ‹_›⟩
  have hmore {steps i : Nat} (h : c ∈ re.findMore t steps i) : ∃ i, re.find? t i = some c := by
    induction steps generalizing i with
    | zero => cases h
    | succ steps ih =>
      unfold findMore at h
      split at h
      · cases h
      · rcases List.mem_cons.mp h with rfl | h
        · exact hnext ‹_›
        · exact ih h
  unfold findAll at h
  split at h
  · cases h
  · rcases List.mem_cons.mp h with rfl | h
    · exact ⟨0, ‹_›⟩
    · exact hmore h

/-- What only finds the empty text erases nothing. -/
theorem erase_of_empty (h : ∀ i c, re.find? t i = some c → c.whole.stop = c.whole.start) :
    re.erase t = t := by
  refine substituteFrom_of_empty (re.findAll_inOrder t) fun c hc => ?_
  obtain ⟨i, hi⟩ := exists_find?_of_mem_findAll hc
  exact h i c hi

/-! ## Matches at the start of a text -/

/-- Away from the start of a text nothing matches. -/
def AtStart (re : Regex) : Prop :=
  ∀ (before : Char) (pos : Nat) (rest : Text), re.matchAt? (some before) pos rest = none

theorem Expr.atStart_seq (e : Expr) : (ofExpr (seq (assert .textStart) e)).AtStart := by
  intro before pos rest
  cases hc : (ofExpr (seq (assert .textStart) e)).matchAt? (some before) pos rest with
  | none => rfl
  | some c =>
    obtain ⟨word, after, -, -, hmatches⟩ := matches_of_matchAt? hc
    cases (Expr.matches_textStart_iff.mp hmatches).1

namespace AtStart

theorem find?_eq_none (h : re.AtStart) (hi : 1 ≤ i) : re.find? t i = none := by
  cases hc : re.find? t i with
  | none => rfl
  | some c =>
    have hw := find?_within hc
    have hlo := hw.lo_le
    have hlt : c.whole.start - 1 < t.length := by
      have := hw.start_le
      have := hw.le_hi
      omega
    have hfound := (find?_eq_some hc).1
    rw [matchesAt, Text.before?, if_neg (by omega), List.getElem?_eq_getElem hlt, h] at hfound
    cases hfound

theorem find?_zero (h : re.AtStart) (t : Text) : re.find? t 0 = re.matchAt? none 0 t := by
  rcases Nat.eq_zero_or_pos t.length with hnil | hpos
  · rw [List.length_eq_zero_iff.mp hnil]
    exact re.find?_length []
  · rw [find?_of_lt re hpos, h.find?_eq_none (Nat.le_refl 1), Option.or_none]
    rfl

/-- There is no match but the one at the start of the text. -/
theorem findAll_eq (h : re.AtStart) (t : Text) :
    re.findAll t = (re.matchAt? none 0 t).toList := by
  have hzero := h.find?_zero t
  rw [findAll, hzero]
  cases hc : re.matchAt? none 0 t with
  | none => rfl
  | some c =>
    have hnone : re.findNext? t c.whole.stop = none := by
      rcases Nat.eq_zero_or_pos c.whole.stop with hstop | hpos
      · have hempty : c.whole.isEmpty && c.whole.stop == 0 := by
          simp [Span.isEmpty, hstop]
        rw [findNext?, hstop, hzero, hc]
        simp only [hempty, if_true]
        exact h.find?_eq_none (Nat.le_refl 1)
      · rw [findNext?, h.find?_eq_none hpos]
    show c :: re.findMore t (t.length + 1) c.whole.stop = [c]
    rw [findMore, hnone]

theorem erase_of_none (h : re.AtStart) (hc : re.matchAt? none 0 t = none) : re.erase t = t :=
  Regex.erase_of_none ((h.find?_zero t).trans hc)

theorem erase_of_some (h : re.AtStart) (hc : re.matchAt? none 0 t = some c) :
    re.erase t = t.drop c.whole.stop := by
  obtain ⟨_, _, -, hwhole, -⟩ := leads_of_matchAt? hc
  have hstart : c.whole.start = 0 := by rw [hwhole]
  rw [erase, substitute, h.findAll_eq, hc, Option.toList_some, substituteFrom, substituteFrom,
    hstart, Text.slice_self, List.nil_append, List.nil_append]

end AtStart

/-! ## Matches up to the end of a text -/

/-- All that matches goes up to the end of the text. -/
def AtEnd (re : Regex) : Prop :=
  ∀ (before : Option Char) (pos : Nat) (rest : Text) (c : Captures),
    re.matchAt? before pos rest = some c → c.whole.stop = pos + rest.length

theorem Expr.atEnd_seq (e : Expr) : (ofExpr (seq e (assert .textEnd))).AtEnd := by
  intro before pos rest c hc
  obtain ⟨word, after, rfl, hwhole, hmatches⟩ := matches_of_matchAt? hc
  obtain rfl := (Expr.matches_textEnd_iff.mp hmatches).1
  rw [hwhole, List.append_nil]

namespace AtEnd

theorem stop_eq (h : re.AtEnd) (hc : re.find? t 0 = some c) : c.whole.stop = t.length := by
  have hw := find?_within hc
  have hstart := Nat.le_trans hw.start_le hw.le_hi
  rw [h _ _ _ _ (find?_eq_some hc).1, List.length_drop, Nat.add_sub_cancel' hstart]

theorem erase_of_some (h : re.AtEnd) (hc : re.find? t 0 = some c) :
    re.erase t = t.take c.whole.start := by
  have hstop := h.stop_eq hc
  have hinOrder := re.findAll_inOrder t
  rw [findAll, hc] at hinOrder
  obtain ⟨-, hlater⟩ := hinOrder
  -- what comes behind the end of the text is empty
  have hempty := substituteFrom_of_empty hlater fun c' hc' => by
    have hw := hlater.within c' hc'
    have := hw.lo_le
    have := hw.start_le
    have := hw.le_hi
    omega
  have hfound : re.findAll t = c :: re.findMore t (t.length + 1) c.whole.stop := by
    rw [findAll, hc]
  rw [erase, substitute, hfound, substituteFrom, hempty, hstop, List.drop_length, List.append_nil,
    List.append_nil, Text.slice, List.drop_zero, Nat.sub_zero]

end AtEnd

/-! ## What is taken off the ends of a text -/

/-- What an expression takes off the start of a text is empty or a match. -/
theorem exists_front (e : Expr) (t : Text) :
    ∃ front, t = front ++ (ofExpr (.seq (.assert .textStart) e)).erase t ∧
      (front ≠ [] → e.Matches none front ((ofExpr (.seq (.assert .textStart) e)).erase t)) := by
  have hstart := e.atStart_seq
  cases hc : (ofExpr (.seq (.assert .textStart) e)).matchAt? none 0 t with
  | none => exact ⟨[], (hstart.erase_of_none hc).symm, fun hne => absurd rfl hne⟩
  | some c =>
    obtain ⟨word, after, rfl, hwhole, hmatches⟩ := matches_of_matchAt? hc
    rw [hstart.erase_of_some hc, hwhole, Nat.zero_add, List.drop_left]
    exact ⟨word, rfl, fun _ => (Expr.matches_textStart_iff.mp hmatches).2⟩

/-- What an expression takes off the end of a text is empty or a match, and no match there is
longer. -/
theorem exists_back (e : Expr) (t : Text) :
    ∃ back, t = (ofExpr (.seq e (.assert .textEnd))).erase t ++ back ∧
      (back ≠ [] →
        e.Matches (Text.lastOf none ((ofExpr (.seq e (.assert .textEnd))).erase t)) back []) ∧
      ∀ v w, t = v ++ w → e.Matches (Text.lastOf none v) w [] → w.length ≤ back.length := by
  have hplace (v w : Text) : (ofExpr (.seq e (.assert .textEnd))).matchesAt (v ++ w) v.length =
      (ofExpr (.seq e (.assert .textEnd))).matchAt? (Text.lastOf none v) v.length w := by
    rw [matchesAt, Text.before?_append, List.drop_left]
  have hlonger {v w : Text} (hw : e.Matches (Text.lastOf none v) w []) :
      (ofExpr (.seq e (.assert .textEnd))).matchesAt (v ++ w) v.length ≠ none := by
    have hanchored := Expr.matches_textEnd_iff.mpr ⟨rfl, hw⟩
    have hsome := hanchored.isSome_matchAt? v.length
    rw [List.append_nil, ← hplace] at hsome
    exact fun hnone => by rw [hnone] at hsome; cases hsome
  cases hc : (ofExpr (.seq e (.assert .textEnd))).find? t 0 with
  | none =>
    refine ⟨[], by rw [erase_of_none hc, List.append_nil], fun hne => absurd rfl hne, ?_⟩
    rintro v w rfl hw
    have hinside : v.length ≤ (v ++ w).length := by
      rw [List.length_append]
      omega
    exact absurd (find?_eq_none hc (Nat.zero_le _) hinside) (hlonger hw)
  | some c =>
    obtain ⟨hmatch, hfirst⟩ := find?_eq_some hc
    have hwithin := find?_within hc
    obtain ⟨front, back, rfl, hfront⟩ :
        ∃ front back, t = front ++ back ∧ front.length = c.whole.start :=
      ⟨t.take c.whole.start, t.drop c.whole.start, (List.take_append_drop _ t).symm,
        List.length_take_of_le (Nat.le_trans hwithin.start_le hwithin.le_hi)⟩
    rw [e.atEnd_seq.erase_of_some hc, ← hfront, List.take_left]
    rw [← hfront] at hmatch hfirst
    refine ⟨back, rfl, fun _ => ?_, ?_⟩
    · rw [hplace] at hmatch
      obtain ⟨word, after, rfl, -, hmatches⟩ := matches_of_matchAt? hmatch
      obtain ⟨rfl, hword⟩ := Expr.matches_textEnd_iff.mp hmatches
      rwa [List.append_nil]
    · intro v w ht hw
      refine Nat.le_of_not_lt fun hlt => ?_
      have hlength := congrArg List.length ht
      rw [List.length_append, List.length_append] at hlength
      rw [ht] at hfirst
      exact absurd (hfirst v.length (Nat.zero_le _) (by omega)) (hlonger hw)

end Regex

/-! ## Trimming -/

theorem EdgeRuns.remove_eq (runs : EdgeRuns) (t : Text) :
    runs.remove t = runs.tail.erase (runs.head.erase t) := rfl

theorem trimRuns_eq_erase {p : Text} (hp : p ≠ []) (t : Text) :
    trimRuns t (some p) =
      (EdgeRuns.ofPattern p).tail.erase ((EdgeRuns.ofPattern p).head.erase t) := by
  cases p with
  | nil => exact absurd rfl hp
  | cons c cs => rfl

end RegexText
