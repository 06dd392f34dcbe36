import RegexText.Proofs.Lexer.Boundary
import RegexText.Proofs.Lexer.Groups
import RegexText.Proofs.Nesting.Grammar

/-!
# The token of a malformed mark

A malformed mark is met with something open, and what is outermost there was opened at one place
(`exists_outermost`). Whether the lexer comes as far as the mark depends on that place: outside
brackets and quotes it goes past a mark only if a separator is still to come.

* If none comes behind the outermost mark, that mark is a `Horizon` and nothing is cut
  (`cuts_of_no_separator`).
* If one comes, the scan keeps up with the reading up to the malformed mark, every move going past
  one mark (`pass_before_malformed`). It then goes back to where it started, and cuts at the first
  separator that stands there at all (`cuts_of_separator`).

The main statement is `lex_malformed`.
-/

namespace RegexText.Lexer

open Nesting

variable {l t : Text} {b i q : Nat} {s : Scan}

/-- The first malformed mark of `t` stands at index `q`. -/
structure FirstMalformed (t : Text) (q : Nat) : Prop where
  sound : (place t q).malformed = false
  malformed : (place t (q + 1)).malformed = true

/-- What is outermost of all that is open at index `q` was opened at index `b`. -/
structure Outermost (t : Text) (b q : Nat) : Prop where
  lt : b < q
  outside : (place t b).stack = []
  inside : ∀ i, b < i → i ≤ q → (place t i).stack ≠ []

/-! ## Where a malformed mark is met -/

/-- Where something is open there is an outermost mark. -/
theorem exists_outermost (h : (place t q).stack ≠ []) : ∃ b, Outermost t b q := by
  induction q with
  | zero => exact absurd (congrArg Place.stack (place_zero t)) h
  | succ q ih =>
    by_cases hq : (place t q).stack = []
    · refine ⟨q, Nat.lt_succ_self q, hq, fun i hi hle => ?_⟩
      obtain rfl : i = q + 1 := by omega
      exact h
    · obtain ⟨b, hb⟩ := ih hq
      refine ⟨b, Nat.lt_succ_of_lt hb.lt, hb.outside, fun i hi hle => ?_⟩
      rcases Nat.lt_or_eq_of_le hle with hlt | rfl
      · exact hb.inside i hi (by omega)
      · exact h

namespace FirstMalformed

theorem lt_length (h : FirstMalformed t q) : q < t.length := by
  refine Nat.lt_of_not_le fun hle => ?_
  have hsame : place t (q + 1) = place t q := by
    rw [place, place, List.take_of_length_le (by omega), List.take_of_length_le hle]
  have hmal := h.malformed
  rw [hsame, h.sound] at hmal
  cases hmal

/-- A malformed mark is met with something open. -/
theorem stack_ne (h : FirstMalformed t q) : (place t q).stack ≠ [] := by
  have hlt := h.lt_length
  have hsound := h.sound
  have hmal := h.malformed
  rw [place_succ hlt, Place.read] at hmal
  split at hmal
  · exact absurd (hsound.symm.trans hmal) Bool.false_ne_true
  · split at hmal
    · have hstep := (place t q).stack.observes t[q]
      simp only [hsound, Bool.false_or, beq_iff_eq] at hmal
      generalize (place t q).stack.observe t[q] = step at hstep hmal
      cases hstep with
      | malformed _ _ _ hne => exact hne
      | closed | quoted | opened | truncated | idle => cases hmal
    · exact absurd (hsound.symm.trans hmal) Bool.false_ne_true

/-- Up to the malformed mark a mark is left, and the next one is no later. -/
theorem exists_next (h : FirstMalformed t q) (hi : i ≤ q) :
    ∃ y, nextSymbol? t i = some y ∧ y.stop ≤ q + 1 := by
  have hsound := malformed_place_of_le hi h.sound
  have hmal := h.malformed
  cases hy : nextSymbol? t i with
  | none =>
    rw [(place_none hy (by omega)).2, hsound] at hmal
    cases hmal
  | some y =>
    refine ⟨y, rfl, Nat.le_of_not_lt fun hlt => ?_⟩
    rw [(place_before hy (by omega) hlt).2, hsound] at hmal
    cases hmal

/-- A scan that has kept up with the reading goes back to its floor at the malformed mark. -/
theorem pass_eq (h : FirstMalformed t q) (hs : s.Synced t) {y : Symbol}
    (hy : nextSymbol? t s.offset = some y) (hstop : y.stop = q + 1) :
    s.pass y = { s with offset := s.floor, malformed := true } := by
  have hmal := h.malformed
  rw [← hstop, place_pass hs.settled hy, hs.stack_eq, hs.sound] at hmal
  cases he : y.escaped with
  | true =>
    rw [he, if_pos rfl] at hmal
    exact absurd (hs.sound.symm.trans hmal) Bool.false_ne_true
  | false =>
    rw [he, if_neg Bool.false_ne_true] at hmal
    exact Scan.pass_of_malformed he (by simpa using hmal)

end FirstMalformed

/-! ## Up to the malformed mark -/

/-- If no separator comes behind the outermost mark, nothing is cut. -/
theorem cuts_of_no_separator (hl : l ≠ []) (hmarks : ∀ c ∈ l, isPairing c = false ∧ c ≠ '\\')
    (hq : FirstMalformed t q) (hb : Outermost t b q) (hnone : ∀ i, i < q → ¬ SeparatorAt l t i)
    (hafter : ∀ i, b < i → ¬ l <+: t.drop i) (o : Options) : cuts (.literal l) o t = [] := by
  have hfrom : ∀ i, b ≤ i → ¬ l <+: t.drop i := by
    intro i hi hat
    rcases Nat.lt_or_eq_of_le hi with hlt | rfl
    · exact hafter i hlt hat
    · exact hnone b hb.lt ⟨hb.outside, hat⟩
  have hsep := literal_avoidsMarks hmarks t
  have hsound := malformed_place_of_le (Nat.le_of_lt hb.lt) hq.sound
  have hhorizon := horizon_of_literal hl hsep hb.outside hsound (.inr hfrom)
  refine List.eq_nil_iff_forall_not_mem.mpr fun m hm => ?_
  have hcut := hhorizon.cuts hsep o m hm
  rw [cuts_eq] at hm
  obtain ⟨j, hj⟩ := Scan.found_cuts _ _ _ _ m hm
  have hoccurs := Pattern.literal_occurs hj
  have hindex : m.index < b := Nat.lt_of_not_le fun hle => hfrom m.index hle hoccurs
  rcases hcut with hout | hpast
  · have hopen := hout.stack_eq m.index (Nat.le_refl _) (Pattern.matchFirst_placed hj).index_le
    exact hnone m.index (Nat.lt_trans hindex hb.lt) ⟨hopen, hoccurs⟩
  · omega

/-- If a separator comes behind the outermost mark, a scan that has kept up with the reading goes
past one mark, up to the malformed one. -/
theorem pass_before_malformed (hl : l ≠ []) (hmarks : ∀ c ∈ l, isPairing c = false ∧ c ≠ '\\')
    (hq : FirstMalformed t q) (hb : Outermost t b q) (hnone : ∀ i, i < q → ¬ SeparatorAt l t i)
    (hi : b < i) (hat : l <+: t.drop i) (hs : s.Synced t) (hf : s.floor ≤ s.offset)
    (hoffset : s.offset ≤ q) :
    ∃ y, s.move? (.literal l) t = some (.pass y) ∧ nextSymbol? t s.offset = some y ∧
      y.stop ≤ q + 1 := by
  obtain ⟨y, hy, hstop⟩ := hq.exists_next hoffset
  have hlen := hq.lt_length
  refine ⟨y, ?_, hy, hstop⟩
  rw [Scan.move?, if_neg (by omega), hs.heeds, if_neg Bool.false_ne_true]
  by_cases hopen : s.stack = []
  · -- Nothing is open, so the outermost mark and the separator behind it are still to come.
    have hle : s.offset ≤ b := by
      refine Nat.le_of_not_lt fun hlt => hb.inside s.offset hlt hoffset ?_
      rw [hs.stack_eq, hopen]
    obtain ⟨m, hm, -⟩ := Pattern.exists_matchFirst_literal hl (by omega : s.offset ≤ i) hat
    have hnext : s.nextSeparator? (.literal l) t = some m := by rw [nextSeparator?_literal hl, hm]
    have hlt : y.start < m.index := by
      refine Nat.lt_of_not_le fun hle => ?_
      have hsep := literal_avoidsMarks hmarks t
      have hapart := stop_le_start hsep hnext hf hy hle
      have hlong := index_lt_stop_of_literal hl hnext
      have hbounds := nextSymbol?_bounds hy
      have hlo := (Pattern.matchFirst_placed hm).lo_le
      have hstack := (place_before hy hlo (by omega)).1
      rw [hs.stack_eq, hopen] at hstack
      exact hnone m.index (by omega) ⟨hstack, Pattern.literal_occurs hm⟩
    rw [hopen, List.isEmpty_nil, if_pos rfl, Scan.moveOutside?, hnext, hy]
    exact if_pos hlt
  · rw [if_neg (by simpa using hopen), Scan.moveInside?, hy]

/-- A scan that disregards what is open cuts at the next separator. -/
theorem cuts_of_heedless (hl : l ≠ []) (hs : s.malformed = true) (hlt : s.offset < t.length)
    {m : Match} (hm : (Pattern.literal l).matchFirst t s.offset = some m) (steps : Nat) :
    ∃ ms, s.cuts (.literal l) t (steps + 1) = m :: ms := by
  have hcut : s.move? (.literal l) t = some (.cut m) := by
    rw [Scan.move?, if_neg (Nat.not_le.mpr hlt), hs, if_pos rfl, nextSeparator?_literal hl, hm]
    rfl
  unfold Scan.cuts
  rw [hcut]
  exact ⟨_, rfl⟩

/-- If a separator comes behind the outermost mark, the first cut is at the first separator that
stands anywhere in the text. -/
theorem cuts_of_separator (hl : l ≠ []) (hmarks : ∀ c ∈ l, isPairing c = false ∧ c ≠ '\\')
    (hq : FirstMalformed t q) (hb : Outermost t b q) (hnone : ∀ i, i < q → ¬ SeparatorAt l t i)
    (hi : b < i) (hat : l <+: t.drop i) (hs : s.Synced t) (hfloor : s.floor = 0)
    (hoffset : s.offset ≤ q) {steps : Nat} (hsteps : s.potential t.length < steps) :
    ∃ m ms, (Pattern.literal l).matchFirst t 0 = some m ∧
      s.cuts (.literal l) t steps = m :: ms := by
  have hlen := hq.lt_length
  induction steps generalizing s with
  | zero => cases hsteps
  | succ steps ih =>
    obtain ⟨y, hmove, hy, hstop⟩ :=
      pass_before_malformed hl hmarks hq hb hnone hi hat hs (by omega) hoffset
    have hless : (s.pass y).potential t.length < s.potential t.length :=
      (Scan.potential_after_lt ⟨by omega, by omega⟩ hmove).2
    unfold Scan.cuts
    rw [hmove]
    show ∃ m ms, _ ∧ (s.pass y).cuts (.literal l) t steps = m :: ms
    rcases Nat.lt_or_eq_of_le hstop with hlt | heq
    · obtain ⟨hsync, hnext⟩ := hs.pass hy (malformed_place_of_le (by omega) hq.sound)
      exact ih hsync (by rw [Scan.pass_floor, hfloor]) (by omega) (by omega)
    · -- The scan is back at the start of the text, and now disregards what is open.
      have hback := hq.pass_eq hs hy heq
      have hstart : (s.pass y).offset = 0 := by rw [hback, hfloor]
      obtain ⟨m, hm, -⟩ := Pattern.exists_matchFirst_literal hl (Nat.zero_le i) hat
      cases steps with
      | zero => omega
      | succ steps =>
        obtain ⟨ms, hms⟩ := cuts_of_heedless hl (by rw [hback]) (by omega) (hstart ▸ hm) steps
        exact ⟨m, ms, hm, hms⟩

/-- Up to the first malformed mark let no separator stand outside brackets and quotes. If none comes
behind the mark that is outermost there, the whole text is one token. Otherwise the first token ends
at the first separator of the text, wherever that stands, and the tokens of what comes after that
separator follow. -/
theorem lex_malformed (l code : Text) (hl : l ≠ [])
    (hmarks : ∀ c ∈ l, isPairing c = false ∧ c ≠ '\\') (q : Nat) (hq : FirstMalformed code q)
    (hnone : ∀ i, i < q → ¬ SeparatorAt l code i) :
    ∃ b, Outermost code b q ∧
      ((∀ i, b < i → ¬ l <+: code.drop i) → lex (.literal l) {} code = [code]) ∧
      ((∃ i, b < i ∧ l <+: code.drop i) →
        ∃ first rest, code = first ++ (l ++ rest) ∧
          (∀ i, i < first.length → ¬ l <+: code.drop i) ∧
          lex (.literal l) {} code =
            (if first.isEmpty then [] else [first]) ++ lex (.literal l) {} rest) := by
  obtain ⟨b, hb⟩ := exists_outermost hq.stack_ne
  refine ⟨b, hb, fun hafter => ?_, ?_⟩
  · have hcode : code ≠ [] := List.ne_nil_of_length_pos (Nat.zero_lt_of_lt hq.lt_length)
    have hcuts := cuts_of_no_separator hl hmarks hq hb hnone hafter {}
    rw [lex_eq_tokens, hcuts, Segmentation.tokens_drop]
    show [code].filter (!·.isEmpty) = [code]
    simp [hcode]
  · rintro ⟨i, hi, hat⟩
    obtain ⟨m, ms, hm, hcuts⟩ := cuts_of_separator hl hmarks hq hb hnone hi hat (.start code) rfl
      (Nat.zero_le q) (Scan.potential_start_lt _)
    rw [← cuts_eq _ {}] at hcuts
    have hplaced := Pattern.matchFirst_placed hm
    have hindex := hplaced.index_le
    have hstop := hplaced.stop_le
    have hfirst : (code.take m.index).length = m.index := List.length_take_of_le (by omega)
    refine ⟨code.take m.index, code.drop m.stop, ?_, fun j hj hbefore => ?_, ?_⟩
    · rw [← Pattern.literal_text hm, hplaced.text_eq, Text.slice_append_drop code hindex,
        List.take_append_drop]
    · rw [hfirst] at hj
      exact absurd hj (Nat.not_lt.mpr (Pattern.literal_leftmost hm (Nat.zero_le j) hbefore))
    · rw [lex_eq_cons rfl hcuts, TrimSet.trim_empty]
      cases htoken : (code.take m.index).isEmpty <;> simp [htoken]

theorem lex_malformed_in_group :
    [','] ≠ [] ∧ (∀ c ∈ [','], isPairing c = false ∧ c ≠ '\\') ∧
      FirstMalformed "(a,b)(c],d".toList 7 ∧
      (∀ i, i < 7 → ¬ SeparatorAt [','] "(a,b)(c],d".toList i) ∧
      ∃ first rest, "(a,b)(c],d".toList = first ++ ([','] ++ rest) ∧
        (∀ i, i < first.length → ¬ [','] <+: "(a,b)(c],d".toList.drop i) ∧
        lex (.literal [',']) {} "(a,b)(c],d".toList =
          (if first.isEmpty then [] else [first]) ++ lex (.literal [',']) {} rest := by
  have hq : FirstMalformed "(a,b)(c],d".toList 7 := ⟨by decide, by decide⟩
  have hnone : ∀ i, i < 7 → ¬ SeparatorAt [','] "(a,b)(c],d".toList i := by
    unfold SeparatorAt
    decide
  obtain ⟨b, hb, -, hcut⟩ := lex_malformed _ _ (by decide) comma_plain 7 hq hnone
  have hlt := hb.lt
  have hat : [','] <+: "(a,b)(c],d".toList.drop 8 := List.isPrefixOf_iff_prefix.mp (by decide)
  exact ⟨by decide, comma_plain, hq, hnone, hcut ⟨8, by omega, hat⟩⟩

end RegexText.Lexer
