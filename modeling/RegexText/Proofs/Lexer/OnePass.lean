import RegexText.Proofs.Lexer.Outside
import RegexText.Proofs.Pattern.Literal

/-!
# Splitting in one pass

`splitOutside` reads a text once from the left, with what is open, and cuts at every separator that
stands where nothing is open. The lexer searches for separators and for marks in turn, from an
offset that moves. Both cut at the same places, the `Greedy` ones: the lexer does where the text is
balanced (`greedy_cuts`), and the splitter does in any text (`splitFrom_of_greedy`).

The main statement is `lex_balanced`.
-/

namespace RegexText.Lexer

open Nesting

/-- The pieces of a text that is read from the place `p` on, where `piece` has been read of the
first one already and `skip` characters are left of the separator before it. -/
def splitFrom (sep : Text) : (p : Place) → (piece : Text) → (skip : Nat) → Text → List Text
  | _, piece, _, [] => [piece]
  | p, piece, skip + 1, c :: t => splitFrom sep (p.read c) piece skip t
  | p, piece, 0, c :: t =>
    if p.stack.isEmpty && sep.isPrefixOf (c :: t) then
      piece :: splitFrom sep (p.read c) [] (sep.length - 1) t
    else splitFrom sep (p.read c) (piece ++ [c]) 0 t

/-- The pieces of `t`, cut wherever `sep` stands and nothing is open. -/
def splitOutside (sep t : Text) : List Text := splitFrom sep {} [] 0 t

/-- The separator stands at index `i`, and nothing is open there. -/
def SeparatorAt (sep t : Text) (i : Nat) : Prop :=
  (place t i).stack = [] ∧ sep <+: t.drop i

/-- The matches are the first places at which the separator stands outside all brackets and quotes,
each looked for behind the one before, from index `i` on. -/
inductive Greedy (sep t : Text) : (i : Nat) → List Match → Prop where
  | done {i : Nat} (hnone : ∀ j, i ≤ j → ¬ SeparatorAt sep t j) : Greedy sep t i []
  | cut {i : Nat} {m : Match} {ms : List Match} (hle : i ≤ m.index)
    (hbefore : ∀ j, i ≤ j → j < m.index → ¬ SeparatorAt sep t j) (hat : SeparatorAt sep t m.index)
    (hstop : m.stop = m.index + sep.length) (hlater : Greedy sep t m.stop ms) :
    Greedy sep t i (m :: ms)

variable {l t piece : Text} {i j n : Nat} {s : Scan} {m : Match} {ms : List Match}

/-! ## The splitter -/

theorem SeparatorAt.length_le (h : SeparatorAt l t i) (hl : l ≠ []) :
    i + l.length ≤ t.length := by
  have hle := h.2.length_le
  have hpos := List.length_pos_iff.mpr hl
  rw [List.length_drop] at hle
  omega

/-- Up to the next separator outside brackets and quotes the splitter collects what it reads. -/
theorem splitFrom_walk (hij : i ≤ j) (hj : j ≤ t.length)
    (hnone : ∀ q, i ≤ q → q < j → ¬ SeparatorAt l t q) :
    splitFrom l (place t i) piece 0 (t.drop i) =
      splitFrom l (place t j) (piece ++ t.slice i j) 0 (t.drop j) := by
  induction hij with
  | refl => rw [Text.slice, Nat.sub_self, List.take_zero, List.append_nil]
  | @step j hle ih =>
    have hij : i ≤ j := hle
    rw [ih (by omega) fun q hq hlt => hnone q hq (by omega)]
    have hnot : ((place t j).stack.isEmpty && l.isPrefixOf (t[j] :: t.drop (j + 1))) = false := by
      refine Bool.eq_false_iff.mpr fun hat => hnone j hij (Nat.lt_succ_self j) ?_
      rw [Bool.and_eq_true, List.isEmpty_iff, List.isPrefixOf_iff_prefix] at hat
      rwa [SeparatorAt, List.drop_eq_getElem_cons hj]
    have hslice : t.slice i (j + 1) = t.slice i j ++ [t[j]] := by
      rw [Text.slice, Text.slice, Nat.succ_sub hij, List.take_succ_eq_append_getElem (by
        rw [List.length_drop]; omega), List.getElem_drop]
      simp only [Nat.add_sub_cancel' hij]
    rw [List.drop_eq_getElem_cons hj, splitFrom, hnot, place_succ hj, hslice, List.append_assoc]
    rfl

/-- What is left of a separator is read and put nowhere. -/
theorem splitFrom_skip (hn : i + n ≤ t.length) :
    splitFrom l (place t i) piece n (t.drop i) =
      splitFrom l (place t (i + n)) piece 0 (t.drop (i + n)) := by
  induction n generalizing i with
  | zero => rfl
  | succ n ih =>
    have hi : i < t.length := by omega
    rw [List.drop_eq_getElem_cons hi, splitFrom, ← place_succ hi, ih (by omega),
      Nat.add_right_comm, Nat.add_assoc]

theorem splitFrom_cut (h : SeparatorAt l t i) (hl : l ≠ []) :
    splitFrom l (place t i) piece 0 (t.drop i) =
      piece :: splitFrom l (place t (i + l.length)) [] 0 (t.drop (i + l.length)) := by
  have hlen := h.length_le hl
  have hpos := List.length_pos_iff.mpr hl
  have hi : i < t.length := by omega
  obtain ⟨hopen, hat⟩ := h
  rw [List.drop_eq_getElem_cons hi] at hat ⊢
  rw [splitFrom, if_pos (by rw [hopen, List.isPrefixOf_iff_prefix.mpr hat]; rfl),
    ← place_succ hi, splitFrom_skip (by omega), (by omega : i + 1 + (l.length - 1) = i + l.length)]

/-- The splitter cuts at the greedy places. -/
theorem splitFrom_of_greedy (hl : l ≠ []) (h : Greedy l t i ms) (hi : i ≤ t.length) :
    splitFrom l (place t i) [] 0 (t.drop i) = (Segmentation.ofMatches t i ms).pieces := by
  induction h with
  | @done i hnone =>
    rw [splitFrom_walk hi (Nat.le_refl _) fun q hq _ => hnone q hq, List.drop_length, Text.slice,
      List.take_of_length_le (Nat.le_of_eq List.length_drop)]
    rfl
  | @cut i m ms hle hbefore hat hstop hlater ih =>
    have hlen := hat.length_le hl
    rw [splitFrom_walk hle (by omega) hbefore, splitFrom_cut hat hl, ← hstop, ih (by omega)]
    rfl

example : splitOutside [','] "a,(b, c),d".toList =
    ["a".toList, "(b, c)".toList, "d".toList] := by decide

/-! ## Literal separators -/

/-- A text without marks and backslashes is a separator of which no match has any. -/
theorem literal_avoidsMarks (h : ∀ c ∈ l, isPairing c = false ∧ c ≠ '\\') (t : Text) :
    (Pattern.literal l).AvoidsMarks t := by
  intro i m hm c hc
  rw [Pattern.literal_text hm] at hc
  exact h c hc

theorem comma_plain : ∀ c ∈ [','], isPairing c = false ∧ c ≠ '\\' :=
  List.forall_mem_singleton.mpr (by decide)

/-- A literal separator that is not empty is taken where it is found. -/
theorem nextSeparator?_literal (hl : l ≠ []) (s : Scan) (t : Text) :
    s.nextSeparator? (.literal l) t = (Pattern.literal l).matchFirst t s.offset := by
  unfold Scan.nextSeparator?
  cases hm : (Pattern.literal l).matchFirst t s.offset with
  | none => rfl
  | some m =>
    have hpos := List.length_pos_iff.mpr hl
    have hne : m.lastIndex.isNone = false := by
      refine Bool.eq_false_iff.mpr fun hnone => ?_
      have := (Pattern.matchFirst_placed hm).isNone_iff.mp hnone
      have := Pattern.literal_stop hm
      omega
    simp only [hne, Bool.and_false, Bool.false_eq_true, if_false]

theorem index_lt_stop_of_literal (hl : l ≠ []) (hm : s.nextSeparator? (.literal l) t = some m) :
    m.index < m.stop := by
  rw [nextSeparator?_literal hl] at hm
  rw [Pattern.literal_stop hm]
  exact Nat.lt_add_of_pos_right (List.length_pos_iff.mpr hl)

/-! ## The lexer -/

/-- Before a separator that is the next from the offset on, the separator stands nowhere. -/
theorem not_separatorAt_of_literal (hm : s.nextSeparator? (.literal l) t = some m) (hl : l ≠ [])
    (hj : s.offset ≤ j) (hlt : j < m.index) : ¬ SeparatorAt l t j := by
  rw [nextSeparator?_literal hl] at hm
  exact fun hat => absurd hlt (Nat.not_lt.mpr (Pattern.literal_leftmost hm hj hat.2))

/-- On a mark that a scan goes past in keeping up with the reading, the separator does not stand
outside brackets and quotes. -/
theorem not_separatorAt_of_pass {y : Symbol} (hs : s.Synced t) (hf : s.floor ≤ s.offset)
    (hsep : (Pattern.literal l).AvoidsMarks t) (hl : l ≠ [])
    (hy : nextSymbol? t s.offset = some y)
    (hfirst : s.stack = [] → ∃ m, s.nextSeparator? (.literal l) t = some m ∧ y.start < m.index)
    (hj : s.offset ≤ j) (hlt : j < y.stop) : ¬ SeparatorAt l t j := by
  intro hat
  have hopen : s.stack = [] := by rw [← hs.stack_eq, ← (place_before hy hj hlt).1, hat.1]
  obtain ⟨m, hm, hstart⟩ := hfirst hopen
  have hle := stop_le_index hsep hm hf hy hstart (index_lt_stop_of_literal hl hm)
  exact not_separatorAt_of_literal hm hl hj (by omega) hat

/-- Where a scan of a balanced text makes no move, the separator stands no more outside brackets and
quotes. -/
theorem not_separatorAt_of_end (h : Balanced t) (hs : s.Synced t) (hle : s.offset ≤ t.length)
    (hl : l ≠ []) (hmove : s.move? (.literal l) t = none) (hj : s.offset ≤ j) :
    ¬ SeparatorAt l t j := by
  intro hat
  have hlen := hat.length_le hl
  have hpos := List.length_pos_iff.mpr hl
  rcases Scan.ends_of_move? hs.heeds hmove with hend | ⟨-, hnone⟩ | ⟨hne, hnone, -⟩
  · omega
  · rw [nextSeparator?_literal hl] at hnone
    obtain ⟨m, hm, -⟩ := Pattern.exists_matchFirst_literal hl hj hat.2
    rw [hnone] at hm
    cases hm
  · obtain ⟨y, hy, -⟩ := (horizon_of_balanced h (.literal l)).inside hs hle hne
    rw [hnone] at hy
    cases hy

/-- In a balanced text a scan that keeps up with the reading, given enough moves, cuts at the greedy
places, if there is none before its offset. -/
theorem greedy_cuts (h : Balanced t) (hsep : (Pattern.literal l).AvoidsMarks t) (hl : l ≠ [])
    (hs : s.Synced t) (hin : s.Inside t.length) (hi : i ≤ s.offset)
    (hclear : ∀ j, i ≤ j → j < s.offset → ¬ SeparatorAt l t j) {steps : Nat}
    (hsteps : s.potential t.length < steps) : Greedy l t i (s.cuts (.literal l) t steps) := by
  induction steps generalizing s i with
  | zero => cases hsteps
  | succ steps ih =>
    have hk := horizon_of_balanced h (.literal l)
    unfold Scan.cuts
    cases hmove : s.move? (.literal l) t with
    | none =>
      refine .done fun j hj => ?_
      rcases Nat.lt_or_ge j s.offset with hlt | hge
      · exact hclear j hj hlt
      · exact not_separatorAt_of_end h hs hin.offset_le hl hmove hge
    | some move =>
      obtain ⟨hin', hlt⟩ := Scan.potential_after_lt hin hmove
      rcases hk.move hsep hin.floor_le hs hin.offset_le hmove with
        ⟨y, rfl, hy, hstop, hfirst⟩ | ⟨m, rfl, hout⟩
      · obtain ⟨hsync, hoffset⟩ := hs.pass hy (malformed_place_of_le hstop h.2)
        obtain ⟨hstart, hlong, -⟩ := nextSymbol?_bounds hy
        have hge : i ≤ (s.pass y).offset := by omega
        refine ih hsync hin' hge (fun j hj hlt => ?_) (by omega)
        rcases Nat.lt_or_ge j s.offset with hlt' | hge
        · exact hclear j hj hlt'
        · exact not_separatorAt_of_pass hs hin.floor_le hsep hl hy hfirst hge (hoffset ▸ hlt)
      · have hm := Scan.separator_of_cut hmove
        have hplaced := (Scan.nextSeparator?_placed hm hin.floor_le).1
        have hle := hplaced.index_le
        have hfound := hm
        rw [nextSeparator?_literal hl] at hfound
        refine .cut (Nat.le_trans hi hplaced.lo_le) (fun j hj hlt => ?_)
          ⟨hout.stack_eq m.index (Nat.le_refl _) hle, Pattern.literal_occurs hfound⟩
          (Pattern.literal_stop hfound)
          (ih (hout.synced hle) hin' (Nat.le_refl _) (fun j hj hlt => ?_) (by omega))
        · rcases Nat.lt_or_ge j s.offset with hlt' | hge
          · exact hclear j hj hlt'
          · exact not_separatorAt_of_literal hm hl hge hlt
        · exact absurd hlt (Nat.not_lt.mpr hj)

/-- The lexer of a balanced text, with separators in which no mark stands, cuts outside brackets and
quotes only, and so into balanced pieces. With a literal separator its tokens are the pieces that
the splitter makes in one pass, without empty ones. -/
theorem lex_balanced (sep : Pattern) (code : Text) (hcode : Balanced code)
    (hsep : sep.AvoidsMarks code) :
    (∀ m ∈ cuts sep {} code, ∀ i, m.index ≤ i → i ≤ m.stop → (place code i).stack = []) ∧
      (∀ piece ∈ (Segmentation.ofMatches code 0 (cuts sep {} code)).pieces, Balanced piece) ∧
      ∀ l, l ≠ [] → sep = .literal l →
        lex sep {} code = (splitOutside l code).filter (!·.isEmpty) := by
  have hout := outside_of_balanced hsep hcode {}
  refine ⟨fun m hm => (hout m hm).stack_eq, ?_, ?_⟩
  · have hlaid : Laid code 0 (cuts sep {} code) := by
      rw [cuts_eq]
      exact Scan.laid_cuts (Scan.inside_start _) (Nat.le_refl 0) _
    have hs := Scan.Synced.start code
    exact balanced_pieces hcode hlaid hout hs.stack_eq (Nat.zero_le _) hs.settled
  · rintro l hl rfl
    have hgreedy := greedy_cuts hcode hsep hl (.start code) (Scan.inside_start _) (Nat.le_refl 0)
      (fun j _ hj => absurd hj (Nat.not_lt_zero j)) (Scan.potential_start_lt code.length)
    have hsplit := splitFrom_of_greedy hl hgreedy (Nat.zero_le _)
    rw [place_zero] at hsplit
    rw [lex_eq_tokens, cuts_eq, Segmentation.tokens_drop, ← hsplit]
    rfl

theorem lex_balanced_comma :
    Balanced "a,(b, c),d".toList ∧ (Pattern.literal [',']).AvoidsMarks "a,(b, c),d".toList ∧
      ((cuts (.literal [',']) {} "a,(b, c),d".toList).map (·.index) = [1, 8] ∧
        ∀ m ∈ cuts (.literal [',']) {} "a,(b, c),d".toList, ∀ i, m.index ≤ i → i ≤ m.stop →
          (place "a,(b, c),d".toList i).stack = []) ∧
      (["a".toList, "(b, c)".toList, "d".toList] =
          (Segmentation.ofMatches "a,(b, c),d".toList 0
            (cuts (.literal [',']) {} "a,(b, c),d".toList)).pieces ∧
        ∀ piece ∈ ["a".toList, "(b, c)".toList, "d".toList], Balanced piece) ∧
      lex (.literal [',']) {} "a,(b, c),d".toList =
        (splitOutside [','] "a,(b, c),d".toList).filter (!·.isEmpty) := by
  have hcode : Balanced "a,(b, c),d".toList := by decide
  have hsep := literal_avoidsMarks comma_plain "a,(b, c),d".toList
  obtain ⟨hcuts, hpieces, hlex⟩ := lex_balanced _ _ hcode hsep
  have hsplit : ["a".toList, "(b, c)".toList, "d".toList] =
      (Segmentation.ofMatches "a,(b, c),d".toList 0
        (cuts (.literal [',']) {} "a,(b, c),d".toList)).pieces := by decide
  exact ⟨hcode, hsep, ⟨by decide, hcuts⟩, ⟨hsplit, hsplit ▸ hpieces⟩, hlex [','] (by decide) rfl⟩

end RegexText.Lexer
