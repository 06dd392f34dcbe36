import RegexText.Proofs.Lexer.OnePass

/-!
# Where one token ends and the next begins

After a cut the lexer works on what comes after the separator as on a text of its own. Followed in
the whole text, its scan starts anew behind the separator, and what comes before only shifts the
cuts that it makes from there (`Scan.cuts_append`). How many moves it still has does not matter, as
long as they are enough (`Scan.cuts_of_potential_lt`). So the later cuts of a text are those of the
rest after its first cut (`cuts_tail`), and the later tokens are the tokens of the rest
(`lex_eq_cons`), however the first token came to its end.

Texts in which a separator stands only inside brackets and quotes are therefore given back where
they are joined with it: the first cut is behind the first of them (`Greedy.eq_cons`).

The main statements are `lex_after_first_cut` and `lex_intercalate`.
-/

namespace RegexText

/-- A text cut from index `k` on, and what is left of it from there. -/
theorem Segmentation.pieces_shift (t : Text) (k i : Nat) (ms : List Match) :
    (ofMatches t (k + i) (ms.map (Match.shift k))).pieces = (ofMatches (t.drop k) i ms).pieces := by
  induction ms generalizing i with
  | nil =>
    show [t.drop (k + i)] = [(t.drop k).drop i]
    rw [List.drop_drop]
  | cons m ms ih =>
    show t.slice (k + i) (m.shift k).index :: (ofMatches t (m.shift k).stop _).pieces =
      Text.slice (t.drop k) i m.index :: (ofMatches (t.drop k) m.stop ms).pieces
    rw [Match.shift_index, Match.shift_stop, ih, Text.slice_drop]

namespace Lexer

open Nesting

variable {sep : Pattern} {o : Options} {code t : Text} {s : Scan} {m : Match} {ms : List Match}

/-! ## After a cut -/

namespace Scan

/-- Text in front shifts the cuts of a scan. -/
theorem cuts_append (sep : Pattern) (d t : Text) (steps : Nat) (s : Scan) :
    (s.shift d.length).cuts sep (d ++ t) steps =
      (s.cuts sep t steps).map (Match.shift d.length) := by
  induction steps generalizing s with
  | zero => rfl
  | succ steps ih =>
    unfold cuts
    rw [move?_append]
    cases s.move? sep t with
    | none => rfl
    | some move =>
      show (move.shift d.length).separator?.toList ++ ((s.shift d.length).after _).cuts _ _ _ = _
      rw [after_shift, ih, Move.separator?_shift, List.map_append]
      cases move.separator? <;> rfl

/-- A scan that has moves enough makes the same cuts however many it has. -/
theorem cuts_of_potential_lt (hs : s.Inside t.length) {steps more : Nat}
    (hsteps : s.potential t.length < steps) (hmore : s.potential t.length < more) :
    s.cuts sep t steps = s.cuts sep t more := by
  induction steps generalizing s more with
  | zero => cases hsteps
  | succ steps ih =>
    cases more with
    | zero => cases hmore
    | succ more =>
      unfold cuts
      cases hmove : s.move? sep t with
      | none => rfl
      | some move =>
        obtain ⟨hin, hlt⟩ := potential_after_lt hs hmove
        exact congrArg (_ ++ ·) (ih hin (by omega) (by omega))

/-- After its first cut a scan starts anew, with moves enough. -/
theorem cuts_eq_cons (hs : s.Inside t.length) {steps : Nat} (hsteps : s.potential t.length < steps)
    (h : s.cuts sep t steps = m :: ms) :
    ∃ n, (startAt m.stop).potential t.length < n ∧ ms = (startAt m.stop).cuts sep t n := by
  induction steps generalizing s with
  | zero => cases hsteps
  | succ steps ih =>
    unfold cuts at h
    cases hmove : s.move? sep t with
    | none => rw [hmove] at h; cases h
    | some move =>
      rw [hmove] at h
      obtain ⟨hin, hlt⟩ := potential_after_lt hs hmove
      cases move with
      | pass y => exact ih hin (by omega) h
      | resync y => exact ih hin (by omega) h
      | cut m' =>
        obtain ⟨rfl, rfl⟩ := List.cons.inj h
        exact ⟨steps, Nat.lt_of_lt_of_le hlt (Nat.le_of_lt_succ hsteps), rfl⟩

/-- Fewer moves are left in what remains of a text than where it is the end of another. -/
theorem potential_start_le {k n : Nat} (hk : k ≤ n) :
    ({} : Scan).potential (n - k) ≤ (startAt k).potential n := by
  have hmul : 2 * (n - k + 1) * (n - k) ≤ 2 * (n + 1) * (n - k) :=
    Nat.mul_le_mul_right _ (by omega)
  simp only [potential, startAt, Bool.false_eq_true, if_false, Nat.sub_zero]
  omega

end Scan

/-- The cuts after the first are those of the rest of the text behind it. -/
theorem cuts_tail (h : cuts sep o code = m :: ms) :
    ms = (cuts sep o (code.drop m.stop)).map (Match.shift m.stop) := by
  have hlaid := laid_cuts sep o code
  rw [h] at hlaid
  have hstop := hlaid.1.stop_le
  have hlen : (code.take m.stop).length = m.stop := List.length_take_of_le hstop
  rw [cuts_eq] at h
  obtain ⟨n, hn, hms⟩ := Scan.cuts_eq_cons (Scan.inside_start _) (Scan.potential_start_lt _) h
  have hshift := Scan.cuts_append sep (code.take m.stop) (code.drop m.stop) n {}
  rw [List.take_append_drop, hlen] at hshift
  have hle := Scan.potential_start_le hstop
  have hstable : ({} : Scan).cuts sep (code.drop m.stop) n = cuts sep o (code.drop m.stop) := by
    rw [cuts_eq]
    refine Scan.cuts_of_potential_lt (Scan.inside_start _) ?_ (Scan.potential_start_lt _)
    rw [List.length_drop]
    omega
  rw [hms, ← hstable]
  exact hshift

/-- Where separators are dropped, the tokens are the first one, trimmed, and those of what comes
after the first cut. -/
theorem lex_eq_cons (ho : o.policy = .drop) (h : cuts sep o code = m :: ms) :
    lex sep o code =
      [o.trim.trim (code.take m.index)].filter (!·.isEmpty) ++ lex sep o (code.drop m.stop) := by
  have htokens (g : Segmentation) : g.tokens o = g.pieces.map o.trim.trim := by
    rw [Segmentation.tokens, ho]
  have hrest := Segmentation.pieces_shift code m.stop 0 (cuts sep o (code.drop m.stop))
  rw [Nat.add_zero, ← cuts_tail h] at hrest
  have hpieces : (Segmentation.ofMatches code 0 (m :: ms)).pieces =
      code.take m.index :: (Segmentation.ofMatches code m.stop ms).pieces := rfl
  rw [lex_eq_tokens, lex_eq_tokens, htokens, htokens, h, hpieces, hrest, List.map_cons,
    ← List.filter_append]
  rfl

/-- Nothing of the first token bears on the tokens after it. If the first cut splits the text into
what comes before the separator, the separator and the rest, then the tokens are what comes before,
trimmed, unless that is empty, and the tokens of the rest. -/
theorem lex_after_first_cut (sep : Pattern) (o : Options) (ho : o.policy = .drop) (code : Text)
    (m : Match) (ms : List Match) (h : cuts sep o code = m :: ms) :
    ∃ first rest, code = first ++ (m.text ++ rest) ∧ first.length = m.index ∧
      (first ++ m.text).length = m.stop ∧
      lex sep o code =
        (if (o.trim.trim first).isEmpty then [] else [o.trim.trim first]) ++ lex sep o rest := by
  have hlaid := laid_cuts sep o code
  rw [h] at hlaid
  obtain ⟨hm, -⟩ := hlaid
  have hindex := hm.index_le
  have hstop := hm.stop_le
  have hfirst : (code.take m.index).length = m.index := List.length_take_of_le (by omega)
  refine ⟨code.take m.index, code.drop m.stop, ?_, hfirst, ?_, ?_⟩
  · rw [hm.text_eq, Text.slice_append_drop code hindex, List.take_append_drop]
  · rw [List.length_append, hfirst, hm.length_text]
    omega
  · rw [lex_eq_cons ho h]
    cases htoken : (o.trim.trim (code.take m.index)).isEmpty <;> simp [htoken]

theorem lex_after_first_cut_malformed :
    cuts (.literal [',']) {} "(a],\"b,c\",d".toList =
        [⟨[some [',']], 3, some 3⟩, ⟨[some [',']], 9, some 9⟩] ∧
      ∃ first rest, "(a],\"b,c\",d".toList = first ++ (([','] : Text) ++ rest) ∧ first.length = 3 ∧
        lex (.literal [',']) {} "(a],\"b,c\",d".toList =
          (if first.isEmpty then [] else [first]) ++ lex (.literal [',']) {} rest := by
  have h : cuts (.literal [',']) {} "(a],\"b,c\",d".toList =
      [⟨[some [',']], 3, some 3⟩, ⟨[some [',']], 9, some 9⟩] := by rfl
  obtain ⟨first, rest, hcode, hfirst, -, hlex⟩ := lex_after_first_cut _ {} rfl _ _ _ h
  rw [TrimSet.trim_empty] at hlex
  exact ⟨h, first, rest, hcode, hfirst, hlex⟩

/-! ## Joined tokens -/

variable {c : Char} {i j : Nat}

/-- `t` can be a token where the character `c` is the separator: its nesting is in order, and `c`
stands in it only where something is open. -/
structure Joinable (c : Char) (t : Text) : Prop where
  ne_nil : t ≠ []
  balanced : Balanced t
  inside : ∀ i, i < t.length → t[i]? = some c → (place t i).stack ≠ []

theorem place_append (h : i ≤ t.length) (u : Text) : place (t ++ u) i = place t i := by
  rw [place, place, List.take_append_of_le_length h]

/-- Behind a balanced text and a separator a text is read as from its start. -/
theorem after_balanced (h : Balanced t) (hc : isPairing c = false) (hs : c ≠ '\\') (u : Text) :
    ({} : Place).after (t ++ c :: u) = ({} : Place).after u := by
  obtain ⟨hstack, hsound⟩ := h
  rw [place, List.take_length] at hstack hsound
  rw [Place.after_append, Place.after_cons, Place.read_plain hc hs, hstack, hsound]

theorem balanced_intercalate (hc : isPairing c = false) (hs : c ≠ '\\') {ts : List Text}
    (h : ∀ t ∈ ts, Balanced t) : Balanced ([c].intercalate ts) := by
  induction ts with
  | nil => exact ⟨rfl, rfl⟩
  | cons t ts ih =>
    obtain ⟨ht, hts⟩ := List.forall_mem_cons.mp h
    cases ts with
    | nil => rwa [List.intercalate_singleton]
    | cons u ts =>
      have hlater := ih hts
      rw [Nesting.Balanced, place, List.take_length] at hlater ⊢
      rwa [List.intercalate_cons_cons, List.append_assoc, List.singleton_append,
        after_balanced ht hc hs]

/-- Inside a text that can be a token the separator stands nowhere outside brackets and quotes. -/
theorem Joinable.not_separatorAt (h : Joinable c t) (u : Text) (hi : i < t.length) :
    ¬ SeparatorAt [c] (t ++ u) i := by
  rintro ⟨hopen, hat⟩
  rw [place_append (Nat.le_of_lt hi)] at hopen
  rw [List.drop_append_of_le_length (Nat.le_of_lt hi), List.drop_eq_getElem_cons hi] at hat
  obtain ⟨rfl, -⟩ := List.cons_prefix_cons.mp hat
  exact h.inside i hi (List.getElem?_eq_getElem hi) hopen

/-- The first of the greedy places is where the separator first stands outside brackets and quotes.
-/
theorem Greedy.eq_cons {l : Text} {k : Nat} (h : Greedy l t i ms) (hk : i ≤ k)
    (hat : SeparatorAt l t k) (hbefore : ∀ j, i ≤ j → j < k → ¬ SeparatorAt l t j) :
    ∃ m later, ms = m :: later ∧ m.index = k ∧ m.stop = k + l.length := by
  cases h with
  | done hnone => exact absurd hat (hnone k hk)
  | @cut _ m later hle hfirst hm hstop _ =>
    have hindex : m.index = k := by
      rcases Nat.lt_trichotomy m.index k with hlt | heq | hgt
      · exact absurd hm (hbefore _ hle hlt)
      · exact heq
      · exact absurd hat (hfirst k hk hgt)
    exact ⟨m, later, rfl, hindex, hindex ▸ hstop⟩

theorem Greedy.eq_nil {l : Text} (h : Greedy l t i ms)
    (hnone : ∀ j, i ≤ j → ¬ SeparatorAt l t j) : ms = [] := by
  cases h with
  | done _ => rfl
  | cut hle _ hm _ _ => exact absurd hm (hnone _ hle)

/-- With a plain character as its separator the lexer cuts a balanced text at the greedy places. -/
theorem greedy_of_balanced (hc : isPairing c = false) (hs : c ≠ '\\') (h : Balanced code) :
    Greedy [c] code 0 (cuts (.literal [c]) {} code) := by
  have hmarks := literal_avoidsMarks (List.forall_mem_singleton.mpr ⟨hc, hs⟩) code
  rw [cuts_eq]
  exact greedy_cuts h hmarks (List.cons_ne_nil c []) (.start code) (Scan.inside_start _)
    (Nat.le_refl 0) (fun j _ hj => absurd hj (Nat.not_lt_zero j)) (Scan.potential_start_lt _)

/-- Texts that can be tokens are given back where they are joined with the separator. -/
theorem lex_intercalate (c : Char) (hc : isPairing c = false) (hs : c ≠ '\\') (tokens : List Text)
    (h : ∀ t ∈ tokens, Joinable c t) :
    lex (.literal [c]) {} ([c].intercalate tokens) = tokens := by
  induction tokens with
  | nil => rfl
  | cons t ts ih =>
    obtain ⟨ht, hts⟩ := List.forall_mem_cons.mp h
    have hgreedy := greedy_of_balanced hc hs
      (balanced_intercalate hc hs fun t' ht' => (h t' ht').balanced)
    have hkeep : [t].filter (!·.isEmpty) = [t] :=
      List.filter_eq_self.mpr (List.forall_mem_singleton.mpr (by simpa using ht.ne_nil))
    cases ts with
    | nil =>
      -- The text is the one token, and is not cut.
      rw [List.intercalate_singleton] at hgreedy ⊢
      have hnil := hgreedy.eq_nil fun j _ hat => by
        have hlt := hat.length_le (List.cons_ne_nil c [])
        rw [List.length_singleton] at hlt
        rw [← List.append_nil t] at hat
        exact ht.not_separatorAt [] hlt hat
      rw [lex_eq_tokens, hnil, Segmentation.tokens_drop]
      exact hkeep
    | cons u ts =>
      -- The first cut is behind the first token, and leaves the others joined.
      rw [List.intercalate_cons_cons, List.append_assoc, List.singleton_append] at hgreedy ⊢
      generalize hrest : [c].intercalate (u :: ts) = rest at hgreedy ih ⊢
      have hat : SeparatorAt [c] (t ++ c :: rest) t.length := by
        refine ⟨by rw [place_append (Nat.le_refl _), ht.balanced.1], ?_⟩
        rw [List.drop_left]
        exact ⟨rest, rfl⟩
      obtain ⟨m, later, hcuts, hindex, hstop⟩ :=
        hgreedy.eq_cons (Nat.zero_le _) hat fun j _ hj => ht.not_separatorAt _ hj
      have hlater : (t ++ c :: rest).drop m.stop = rest := by
        rw [hstop, List.length_singleton, List.append_cons, List.drop_left' (by simp)]
      rw [lex_eq_cons rfl hcuts, hindex, List.take_left, TrimSet.trim_empty, hkeep, hlater, ih hts]
      rfl

theorem lex_intercalate_comma :
    (∀ t ∈ ["f(a,[b])".toList, "\",(\"".toList, "x\\".toList, "a)".toList], Joinable ',' t) ∧
      lex (.literal [',']) {} ([','].intercalate
          ["f(a,[b])".toList, "\",(\"".toList, "x\\".toList, "a)".toList]) =
        ["f(a,[b])".toList, "\",(\"".toList, "x\\".toList, "a)".toList] := by
  have h : ∀ t ∈ ["f(a,[b])".toList, "\",(\"".toList, "x\\".toList, "a)".toList],
      Joinable ',' t := by
    simp only [List.forall_mem_cons]
    exact ⟨⟨by decide, by decide, by decide⟩, ⟨by decide, by decide, by decide⟩,
      ⟨by decide, by decide, by decide⟩, ⟨by decide, by decide, by decide⟩, nofun⟩
  exact ⟨h, lex_intercalate ',' (by decide) (by decide) _ h⟩

end Lexer

end RegexText
