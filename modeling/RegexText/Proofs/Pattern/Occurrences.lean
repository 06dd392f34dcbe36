import RegexText.Proofs.Pattern.Enumeration
import RegexText.Proofs.Pattern.Explode
import RegexText.Proofs.Pattern.Literal
import RegexText.Text.Components

/-!
# Cutting at the occurrences of a text

A text can be cut at a separator by cutting what is left behind its first occurrence again and again
(`CutUp`). `Text.splitAll` does so, and so does everything that walks along the matches of the
literal pattern (`cutUp_of_yields`): each search finds the first occurrence that is left. Since the
parts are determined (`CutUp.unique`), all of them come to the same parts.

The empty separator is not cut at in this way, since nothing would be cut off. Its successive
matches stand at every place of a text (`matchesFrom_literal_nil`), and between them stand the
characters (`pieces_emptyAt`), as in `Text.splitAll`.

The main statement is `pieces_matchesFrom_literal`.
-/

namespace RegexText

/-! ## Repeated cutting -/

namespace Text

/-- `t` comes apart when what is left behind the first occurrence of `sep` is cut at the next one,
until there is none. -/
inductive CutUp (sep : Text) : Text → List Text → Prop where
  | done {t : Text} (h : splitOnceAfter sep t 0 none = none) : CutUp sep t [t]
  | cut {t part rest : Text} {parts : List Text}
    (h : splitOnceAfter sep t 0 none = some [part, rest]) (hrest : CutUp sep rest parts) :
    CutUp sep t (part :: parts)

variable {l t : Text} {parts parts' : List Text}

theorem CutUp.unique (h : CutUp l t parts) (h' : CutUp l t parts') : parts = parts' := by
  induction h generalizing parts' with
  | done h =>
    cases h' with
    | done => rfl
    | cut hcut => rw [h] at hcut; cases hcut
  | cut h _ ih =>
    cases h' with
    | done hdone => rw [h] at hdone; cases hdone
    | cut hcut hrest =>
      rw [h] at hcut
      cases hcut
      rw [ih hrest]

theorem splitOnce?_zero (l t : Text) :
    splitOnce? l t 0 = (indexOf? l t).map fun i => (t.take i, t.drop (i + l.length)) := by
  have hzero : Nat.min 0 t.length = 0 := Nat.zero_min _
  simp only [splitOnce?, List.drop_zero, hzero, Nat.zero_add]

theorem splitOnceAfter_of_indexOf?_eq_none (h : indexOf? l t = none) :
    splitOnceAfter l t 0 none = none := by
  rw [splitOnceAfter, splitOnce?_zero, h]
  rfl

theorem splitOnceAfter_of_indexOf?_eq_some {i : Nat} (h : indexOf? l t = some i) :
    splitOnceAfter l t 0 none = some [t.take i, t.drop (i + l.length)] := by
  rw [splitOnceAfter, splitOnce?_zero, h]
  rfl

theorem cutUp_splitRest (hl : l ≠ []) {steps : Nat} (hsteps : t.length ≤ steps) :
    CutUp l t (splitRest l steps t) := by
  induction steps generalizing t with
  | zero =>
    have ht : t = [] := List.length_eq_zero_iff.mp (Nat.le_zero.mp hsteps)
    rw [ht]
    exact .done (splitOnceAfter_of_indexOf?_eq_none (indexOf?_nil hl))
  | succ steps ih =>
    rw [splitRest, splitOnce?_zero]
    cases h : indexOf? l t with
    | none => exact .done (splitOnceAfter_of_indexOf?_eq_none h)
    | some i =>
      have hpos := List.length_pos_iff.mpr hl
      have hrest : (t.drop (i + l.length)).length ≤ steps := by
        rw [List.length_drop]
        omega
      exact .cut (splitOnceAfter_of_indexOf?_eq_some h) (ih hrest)

theorem cutUp_splitAll (hl : l ≠ []) (t : Text) : CutUp l t (splitAll l t) := by
  rw [splitAll, if_neg fun he => hl (List.isEmpty_iff.mp he)]
  exact cutUp_splitRest hl (Nat.le_refl _)

end Text

/-! ## Literal patterns -/

namespace Regex

theorem Expr.hasAssertion_literal (t : Text) : (Expr.literal t).hasAssertion = false := by
  unfold literal
  induction t with
  | nil => rfl
  | cons c cs ih =>
    cases cs with
    | nil => rfl
    | cons d ds => exact ih

theorem suffixStable_literal (t : Text) : (ofExpr (.literal t)).SuffixStable :=
  suffixStable_of_assertionFree (Expr.assertionFree_program (Expr.hasAssertion_literal t))

theorem neverEmpty_literal {t : Text} (h : t ≠ []) : (ofExpr (.literal t)).NeverEmpty := by
  cases t with
  | nil => exact absurd rfl h
  | cons c cs => exact neverEmpty_of_chars (Program.getElem?_literal [] (c :: cs))

/-- The empty text is found where it is looked for. -/
theorem find?_literal_nil {t : Text} {i : Nat} (hi : i ≤ t.length) :
    (ofExpr (.literal [])).find? t i = some (literalCaptures 0 i) := by
  have hindex : Text.indexOf? [] (t.drop i) = some 0 := by
    cases t.drop i <;> rfl
  rw [find?, if_pos hi, scan_literal, hindex]
  rfl

/-- A match of the empty text is not followed by another one at the same place. -/
theorem findNext?_literal_nil {t : Text} {i : Nat} (hi : i ≤ t.length) :
    (ofExpr (.literal [])).findNext? t i = (ofExpr (.literal [])).find? t (i + 1) := by
  have hempty : (literalCaptures 0 i).whole.isEmpty && (literalCaptures 0 i).whole.stop == i := by
    simp [literalCaptures, Span.isEmpty]
  simp only [findNext?, find?_literal_nil hi, hempty, if_true]

theorem findMore_literal_nil {t : Text} {steps i : Nat} (hi : i ≤ t.length)
    (hsteps : t.length - i < steps) :
    (ofExpr (.literal [])).findMore t steps i =
      (List.range' (i + 1) (t.length - i)).map (literalCaptures 0) := by
  induction steps generalizing i with
  | zero => cases hsteps
  | succ steps ih =>
    rw [findMore, findNext?_literal_nil hi]
    rcases Nat.lt_or_eq_of_le hi with hlt | rfl
    · have hleft : t.length - i = t.length - (i + 1) + 1 := by omega
      rw [find?_literal_nil hlt, hleft, List.range'_succ, List.map_cons, ← ih hlt (by omega)]
      rfl
    · rw [find?, if_neg (Nat.not_succ_le_self _), Nat.sub_self]
      rfl

/-- The empty text is found once at every place, the end of the text included. -/
theorem findAll_literal_nil (t : Text) :
    (ofExpr (.literal [])).findAll t =
      (List.range' 0 (t.length + 1)).map (literalCaptures 0) := by
  rw [findAll, find?_literal_nil (Nat.zero_le _), List.range'_succ]
  exact congrArg (_ :: ·) (findMore_literal_nil (Nat.zero_le _) (Nat.lt_succ_self _))

end Regex

/-- The empty match at index `i`. -/
def Match.emptyAt (i : Nat) : Match := ⟨[some []], i, none⟩

theorem Match.ofCaptures_literal_nil (t : Text) (k i : Nat) :
    ofCaptures t k (Regex.literalCaptures 0 i) = emptyAt (k + i) := by
  simp [ofCaptures, emptyAt, Regex.literalCaptures, lastIndexOf?, Span.isEmpty, Span.text,
    Text.slice]

namespace Pattern

variable {l t : Text} {i : Nat} {m : Match} {ms : List Match}

/-- Behind an occurrence of a text that is not empty a walk goes on at its end. -/
theorem literal_resume (hl : l ≠ []) (h : (literal l).matchFirst t i = some m) :
    m.resume = m.stop := by
  have hpos := List.length_pos_iff.mpr hl
  rw [(matchFirst_placed h).resume_eq, literal_stop h]
  omega

/-- A walk along the occurrences of a text cuts at each of them. -/
theorem cutUp_of_yields (hl : l ≠ []) (h : Walk.Yields t ⟨literal l, i⟩ ms) (hi : i ≤ t.length) :
    Text.CutUp l (t.drop i) (Segmentation.ofMatches t i ms).pieces := by
  generalize hw : (⟨literal l, i⟩ : Walk) = w at h
  induction h generalizing i with
  | done hnext =>
    subst hw
    have hnone := Walk.next_eq_none hnext
    refine .done (Text.splitOnceAfter_of_indexOf?_eq_none ?_)
    rcases Nat.lt_or_eq_of_le hi with hlt | rfl
    · exact matchFirst_literal_eq_none hnone hlt
    · rw [List.drop_length, Text.indexOf?_nil hl]
  | @more w w' m ms hnext hlater ih =>
    subst hw
    obtain ⟨hm, rfl⟩ := Walk.next_eq_some hnext
    obtain ⟨j, hj, hindex, hstop⟩ := matchFirst_literal hm
    have hcut := Text.splitOnceAfter_of_indexOf?_eq_some hj
    have hpart : (t.drop i).take j = t.slice i m.index := by
      rw [Text.slice, hindex, Nat.add_sub_cancel_left]
    rw [List.drop_drop, ← Nat.add_assoc, ← hstop, hpart] at hcut
    exact .cut hcut (ih (matchFirst_placed hm).stop_le (by rw [literal_resume hl hm]))

theorem matchFirst_literal_nil (hi : i < t.length) :
    (literal []).matchFirst t i = some (.emptyAt i) := by
  have hfind : (literal []).regex.find? (t.drop i) 0 = some (Regex.literalCaptures 0 0) :=
    Regex.find?_literal_nil (Nat.zero_le _)
  simp only [matchFirst, if_neg (Nat.not_le.mpr hi), hfind, Option.map_some,
    Match.ofCaptures_literal_nil, Nat.add_zero]

/-- The empty pattern matches at every place of a text. -/
theorem matchesFrom_literal_nil (t : Text) :
    (literal []).matchesFrom t 0 = (List.range' 0 (t.length + 1)).map .emptyAt := by
  rw [matchesFrom, Nat.zero_min, List.drop_zero, literal, Regex.findAll_literal_nil, List.map_map]
  refine List.map_congr_left fun i _ => ?_
  rw [Function.comp_apply, Match.ofCaptures_literal_nil, Nat.zero_add]

/-- Empty matches behind each of the next `n` characters leave these by themselves. -/
theorem pieces_emptyAt {n j : Nat} (hn : i + n = j) (hj : j ≤ t.length) :
    (Segmentation.ofMatches t i ((List.range' (i + 1) n).map .emptyAt)).pieces =
      (t.slice i j).map (fun c => [c]) ++ [t.drop j] := by
  induction n generalizing i with
  | zero =>
    obtain rfl : i = j := hn
    rw [Text.slice_self]
    rfl
  | succ n ih =>
    have hi : i < t.length := by omega
    have hpart : t.slice i (i + 1) = [t[i]] := by
      rw [Text.slice, Nat.add_sub_cancel_left, List.drop_eq_getElem_cons hi]
      rfl
    rw [← Text.slice_append_slice t (Nat.le_succ i) (by omega), hpart, List.singleton_append,
      List.map_cons, List.cons_append, ← ih (by omega), ← hpart]
    rfl

/-- The pieces between the successive matches of a text are the parts between its occurrences. -/
theorem pieces_matchesFrom_literal (l t : Text) :
    (Segmentation.ofMatches t 0 ((literal l).matchesFrom t 0)).pieces = Text.splitAll l t := by
  cases l with
  | nil =>
    have hpieces := pieces_emptyAt (Nat.zero_add t.length) (Nat.le_refl _)
    have hwhole : t.slice 0 t.length = t := List.take_length
    rw [hwhole, List.drop_length] at hpieces
    rw [matchesFrom_literal_nil, List.range'_succ]
    exact congrArg ([] :: ·) hpieces
  | cons c cs =>
    have hl : c :: cs ≠ [] := List.cons_ne_nil c cs
    have hwalk := yields_matchesFrom (p := literal (c :: cs)) (Regex.neverEmpty_literal hl)
      (Regex.suffixStable_literal _) t 0
    exact (cutUp_of_yields hl hwalk (Nat.zero_le _)).unique (Text.cutUp_splitAll hl t)

/-- The parts of a text between the occurrences of a separator are what splitting at its pattern
gives. -/
theorem split_literal (l t : Text) (trim : TrimSet) :
    (literal l).split trim t 0 = Text.components l trim t := by
  rw [split, explode_eq_exploded, Text.components, ← pieces_matchesFrom_literal]
  rfl

end Pattern

end RegexText
