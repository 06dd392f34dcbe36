import RegexText.Proofs.Pattern.Found
import RegexText.Text.Components

/-!
# Searching for a literal text

The program of a literal text reads its characters one after the other, so it has one thread, which
matches where the text stands (`matchAt?_literal`). A search for it therefore finds the first
occurrence, which `Text.indexOf?` gives (`find?_literal`). In terms of occurrences: what
`Pattern.matchFirst` finds is one (`literal_occurs`), none comes before it
(`literal_leftmost`), and none is left where it finds nothing (`exists_matchFirst_literal`). Text at
the end that has no character of the literal changes nothing (`matchFirst_literal_append`).
-/

namespace RegexText

namespace Text

theorem indexOf?_eq_some {sep t : Text} {i : Nat} (h : indexOf? sep t = some i) :
    sep <+: t.drop i ∧ ∀ j < i, ¬ sep <+: t.drop j := by
  induction t generalizing i with
  | nil =>
    unfold indexOf? at h
    split at h <;> cases h
    rename_i he
    exact ⟨by rw [List.isEmpty_iff.mp he]; exact List.nil_prefix, by omega⟩
  | cons c cs ih =>
    unfold indexOf? at h
    split at h
    · rename_i hp
      cases h
      exact ⟨List.isPrefixOf_iff_prefix.mp hp, by omega⟩
    · rename_i hp
      obtain ⟨j, hj, rfl⟩ := Option.map_eq_some_iff.mp h
      obtain ⟨h₁, h₂⟩ := ih hj
      refine ⟨h₁, fun k hk => ?_⟩
      cases k with
      | zero => exact fun hk => hp (List.isPrefixOf_iff_prefix.mpr hk)
      | succ k => exact h₂ k (Nat.lt_of_succ_lt_succ hk)

theorem indexOf?_eq_none {sep t : Text} (h : indexOf? sep t = none) (i : Nat) :
    ¬ sep <+: t.drop i := by
  induction t generalizing i with
  | nil =>
    unfold indexOf? at h
    split at h <;> cases h
    rename_i he
    rw [List.drop_nil, List.prefix_nil]
    exact fun hs => he (List.isEmpty_iff.mpr hs)
  | cons c cs ih =>
    unfold indexOf? at h
    split at h
    · cases h
    · rename_i hp
      cases i with
      | zero => exact fun hk => hp (List.isPrefixOf_iff_prefix.mpr hk)
      | succ i => exact ih (Option.map_eq_none_iff.mp h) i

theorem indexOf?_nil {sep : Text} (h : sep ≠ []) : indexOf? sep [] = none :=
  if_neg fun he => h (List.isEmpty_iff.mp he)

/-- Text that has no character of `sep` does not lengthen what `sep` begins. -/
theorem prefix_append_iff {sep w : Text} (hw : ∀ c ∈ w, c ∉ sep) (t : Text) :
    sep <+: t ++ w ↔ sep <+: t := by
  refine ⟨fun h => ?_, fun h => h.trans (List.prefix_append t w)⟩
  induction t generalizing sep with
  | nil =>
    cases sep with
    | nil => exact List.nil_prefix
    | cons a sep =>
      cases w with
      | nil => exact h
      | cons b w =>
        obtain ⟨rfl, -⟩ := List.cons_prefix_cons.mp h
        exact absurd List.mem_cons_self (hw a List.mem_cons_self)
  | cons b t ih =>
    cases sep with
    | nil => exact List.nil_prefix
    | cons a sep =>
      obtain ⟨rfl, hsep⟩ := List.cons_prefix_cons.mp h
      refine List.cons_prefix_cons.mpr ⟨rfl, ih (fun c hc hmem => ?_) hsep⟩
      exact hw c hc (List.mem_cons_of_mem a hmem)

theorem indexOf?_append {sep w : Text} (hsep : sep ≠ []) (hw : ∀ c ∈ w, c ∉ sep) (t : Text) :
    indexOf? sep (t ++ w) = indexOf? sep t := by
  induction t with
  | nil =>
    rw [List.nil_append, indexOf?_nil hsep]
    cases h : indexOf? sep w with
    | none => rfl
    | some i =>
      have hplain : ∀ c ∈ w.drop i, c ∉ sep := fun c hc => hw c (List.mem_of_mem_drop hc)
      have hle := (prefix_append_iff hplain []).mp (indexOf?_eq_some h).1
      exact absurd (List.prefix_nil.mp hle) hsep
  | cons c cs ih =>
    have hstarts : sep.isPrefixOf (c :: (cs ++ w)) = sep.isPrefixOf (c :: cs) := by
      rw [Bool.eq_iff_iff, List.isPrefixOf_iff_prefix, List.isPrefixOf_iff_prefix]
      exact prefix_append_iff hw (c :: cs)
    rw [List.cons_append, indexOf?, indexOf?, hstarts, ih]

end Text

namespace Regex

theorem CharClass.contains_single {a c : Char} : (single a).contains c = (a == c) := by
  rw [Bool.eq_iff_iff, beq_iff_eq]
  simp only [single, contains, Bool.and_eq_true, decide_eq_true_eq]
  exact ⟨fun h => Char.le_antisymm h.1 h.2, fun h => h ▸ ⟨Char.le_refl _, Char.le_refl _⟩⟩

/-! ## The program of a literal text -/

theorem Expr.code_literal (t : Text) (k : Nat) :
    (Expr.literal t).code k = t.map fun c => .chars (.single c) := by
  unfold literal
  induction t generalizing k with
  | nil => rfl
  | cons c cs ih =>
    cases cs with
    | nil => rfl
    | cons d ds => exact congrArg (Instr.chars (.single c) :: ·) (ih (k + 1))

theorem Expr.groupCount_literal (t : Text) : (Expr.literal t).groupCount = 1 := by
  unfold literal
  induction t with
  | nil => rfl
  | cons c cs ih =>
    cases cs with
    | nil => rfl
    | cons d ds => exact congrArg (max 1) ih

namespace Program

theorem getElem?_literal (before after : Text) :
    (Expr.literal (before ++ after)).program[before.length]? =
      some (match after with
        | [] => .accept
        | c :: _ => .chars (.single c)) := by
  simp only [Expr.program, Expr.code_literal, List.getElem?_toArray, List.map_append,
    List.append_assoc]
  rw [List.getElem?_append_right (by simp)]
  cases after <;> simp

/-- A thread that stands where a character is read or a match ends stays there. -/
theorem threadsFrom_stay {p : Program} {k : Nat} {marks : Marks} (sides : Sides) (pos : Nat)
    (h : p[k]? = some .accept ∨ ∃ s, p[k]? = some (.chars s)) :
    p.threadsFrom sides pos [⟨k, marks⟩] = [⟨k, marks⟩] := by
  have hseen : ({} : Frontier).hasSeen k = false := Nat.zero_testBit k
  rcases h with h | ⟨s, h⟩ <;>
  simp [threadsFrom, follow, hseen, h, Frontier.push, Frontier.visit]

theorem threadsFrom_literal (before after : Text) (sides : Sides) (pos : Nat) :
    (Expr.literal (before ++ after)).program.threadsFrom sides pos [⟨before.length, []⟩] =
      [⟨before.length, []⟩] := by
  refine threadsFrom_stay sides pos ?_
  rw [getElem?_literal]
  cases after with
  | nil => exact .inl rfl
  | cons c cs => exact .inr ⟨_, rfl⟩

theorem run_of_accept {p : Program} {k : Nat} (h : p[k]? = some .accept) (pos : Nat) (marks : Marks)
    (rest : Text) : p.run pos [⟨k, marks⟩] rest = some (pos, marks) := by
  have hacc : p.accepts ⟨k, marks⟩ = true := by simp [accepts, h]
  cases rest <;> simp [run, hacc, advance]

theorem run_of_chars {p : Program} {k : Nat} {s : CharClass} (h : p[k]? = some (.chars s))
    (pos : Nat) (marks : Marks) (rest : Text) :
    p.run pos [⟨k, marks⟩] rest =
      match rest with
      | [] => none
      | c :: cs =>
        if s.contains c then
          p.run (pos + 1) (p.threadsFrom ⟨some c, cs.head?⟩ (pos + 1) [⟨k + 1, marks⟩]) cs
        else none := by
  have hacc : p.accepts ⟨k, marks⟩ = false := by simp [accepts, h]
  cases rest with
  | nil => simp [run, hacc]
  | cons c cs => cases hc : s.contains c <;> simp [run, hacc, advance, h, hc]

/-- The one thread, which has read `before`, goes on to the end if and only if `after` follows. -/
theorem run_literal (after : Text) : ∀ (before : Text) (pos : Nat) (rest : Text),
    (Expr.literal (before ++ after)).program.run pos [⟨before.length, []⟩] rest =
      if after.isPrefixOf rest then some (pos + after.length, []) else none := by
  induction after with
  | nil =>
    intro before pos rest
    rw [run_of_accept (getElem?_literal before [])]
    simp
  | cons a after ih =>
    intro before pos rest
    rw [run_of_chars (getElem?_literal before (a :: after))]
    cases rest with
    | nil => simp
    | cons c cs =>
      have h := ih (before ++ [a]) (pos + 1) cs
      have ht := threadsFrom_literal (before ++ [a]) after ⟨some c, cs.head?⟩ (pos + 1)
      simp only [List.append_assoc, List.cons_append, List.nil_append, List.length_append,
        List.length_cons, List.length_nil, Nat.zero_add] at h ht
      simp only [CharClass.contains_single, ht, h, List.isPrefixOf_cons_cons, List.length_cons]
      rw [Nat.add_right_comm, Nat.add_assoc pos]
      by_cases hc : a = c <;> simp [hc]

end Program

/-! ## Searching -/

/-- The match of a literal text of length `n` at index `i`. -/
def literalCaptures (n i : Nat) : Captures := ⟨⟨i, i + n⟩, []⟩

theorem matchAt?_literal (t : Text) (before : Option Char) (pos : Nat) (rest : Text) :
    (ofExpr (.literal t)).matchAt? before pos rest =
      if t.isPrefixOf rest then some (literalCaptures t.length pos) else none := by
  have hrun := Program.run_literal t [] pos rest
  have ht := Program.threadsFrom_literal [] t ⟨before, rest.head?⟩ pos
  simp only [List.nil_append, List.length_nil] at hrun ht
  simp only [matchAt?, ofExpr, ht, hrun, Expr.groupCount_literal]
  split <;> rfl

theorem scan_literal (t : Text) (before : Option Char) (pos : Nat) (rest : Text) :
    (ofExpr (.literal t)).scan before pos rest =
      (t.indexOf? rest).map fun i => literalCaptures t.length (pos + i) := by
  induction rest generalizing before pos with
  | nil =>
    simp only [scan, matchAt?_literal, Text.indexOf?]
    cases t <;> simp
  | cons c cs ih =>
    simp only [scan, matchAt?_literal, Text.indexOf?]
    cases t.isPrefixOf (c :: cs) with
    | true => rfl
    | false =>
      simp only [Bool.false_eq_true, if_false, ih, Option.map_map]
      congr 1
      funext i
      exact congrArg (literalCaptures t.length) (Nat.add_right_comm pos 1 i)

theorem find?_literal (t rest : Text) :
    (ofExpr (.literal t)).find? rest 0 = (t.indexOf? rest).map (literalCaptures t.length) := by
  simp [find?, scan_literal]

end Regex

namespace Pattern

variable {l t : Text} {i j : Nat} {m : Match}

theorem matchFirst_literal (h : (literal l).matchFirst t i = some m) :
    ∃ j, l.indexOf? (t.drop i) = some j ∧ m.index = i + j ∧ m.stop = i + j + l.length := by
  unfold matchFirst at h
  split at h
  · cases h
  obtain ⟨c, hc, rfl⟩ := Option.map_eq_some_iff.mp h
  have hw := Regex.find?_within hc
  rw [literal, Regex.find?_literal] at hc
  obtain ⟨j, hj, rfl⟩ := Option.map_eq_some_iff.mp hc
  refine ⟨j, hj, rfl, ?_⟩
  rw [Match.stop_ofCaptures _ _ hw, Nat.add_assoc]
  rfl

theorem matchFirst_literal_eq_none (h : (literal l).matchFirst t i = none) (hi : i < t.length) :
    l.indexOf? (t.drop i) = none := by
  rw [matchFirst, if_neg (Nat.not_le.mpr hi), Option.map_eq_none_iff, literal, Regex.find?_literal,
    Option.map_eq_none_iff] at h
  exact h

/-- What is found is an occurrence. -/
theorem literal_occurs (h : (literal l).matchFirst t i = some m) : l <+: t.drop m.index := by
  obtain ⟨j, hj, hi, -⟩ := matchFirst_literal h
  rw [hi, ← List.drop_drop]
  exact (Text.indexOf?_eq_some hj).1

theorem literal_stop (h : (literal l).matchFirst t i = some m) :
    m.stop = m.index + l.length := by
  obtain ⟨j, -, hi, hs⟩ := matchFirst_literal h
  rw [hs, hi]

theorem literal_text (h : (literal l).matchFirst t i = some m) : m.text = l := by
  rw [(matchFirst_placed h).text_eq, Text.slice, literal_stop h, Nat.add_sub_cancel_left,
    ← List.prefix_iff_eq_take.mp (literal_occurs h)]

/-- No occurrence comes before the one that is found. -/
theorem literal_leftmost (h : (literal l).matchFirst t i = some m) (hi : i ≤ j)
    (hj : l <+: t.drop j) : m.index ≤ j := by
  obtain ⟨k, hk, hm, -⟩ := matchFirst_literal h
  rw [hm]
  refine Nat.le_of_not_lt fun hlt => (Text.indexOf?_eq_some hk).2 (j - i) (by omega) ?_
  rwa [List.drop_drop, Nat.add_sub_cancel' hi]

/-- An occurrence is found, or one before it. -/
theorem exists_matchFirst_literal (hl : l ≠ []) (hi : i ≤ j) (hj : l <+: t.drop j) :
    ∃ m, (literal l).matchFirst t i = some m ∧ m.index ≤ j := by
  have hlt : j < t.length := by
    refine Nat.lt_of_not_le fun hle => hl ?_
    rwa [List.drop_eq_nil_of_le hle, List.prefix_nil] at hj
  cases h : (literal l).matchFirst t i with
  | some m => exact ⟨m, rfl, literal_leftmost h hi hj⟩
  | none =>
    have hnone := Text.indexOf?_eq_none (matchFirst_literal_eq_none h (by omega)) (j - i)
    rw [List.drop_drop, Nat.add_sub_cancel' hi] at hnone
    exact absurd hj hnone

/-- Where text that has no character of the literal comes after it, a text has the occurrences that
it had. -/
theorem matchFirst_literal_append {w : Text} (hl : l ≠ []) (hw : ∀ c ∈ w, c ∉ l) (t : Text)
    (i : Nat) : (literal l).matchFirst (t ++ w) i = (literal l).matchFirst t i := by
  have hindex : l.indexOf? ((t ++ w).drop i) = l.indexOf? (t.drop i) := by
    rw [List.drop_append]
    exact Text.indexOf?_append hl (fun c hc => hw c (List.mem_of_mem_drop hc)) _
  have hfind :
      (literal l).regex.find? ((t ++ w).drop i) 0 = (literal l).regex.find? (t.drop i) 0 := by
    simp only [literal, Regex.find?_literal, hindex]
  simp only [matchFirst, hfind, List.length_append]
  cases hc : (literal l).regex.find? (t.drop i) 0 with
  | none => simp only [Option.map_none, ite_self]
  | some c =>
    have hi : i < t.length := by
      refine Nat.lt_of_not_le fun hle => ?_
      rw [List.drop_eq_nil_of_le hle, literal, Regex.find?_literal, Text.indexOf?_nil hl] at hc
      cases hc
    rw [if_neg (Nat.not_le.mpr hi), if_neg (by omega),
      List.drop_append_of_le_length (Nat.le_of_lt hi)]
    exact congrArg some (Match.ofCaptures_append_right _ w i (Regex.find?_within hc))

end Pattern

end RegexText
