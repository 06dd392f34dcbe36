import RegexText.Proofs.Lexer.Stopping
import RegexText.Proofs.Pattern.Segmentation

/-!
# One segmentation, kept in four ways

The policies differ in what they make of a separator, not in where they cut. Since what is put in
front of the text is never searched, every policy cuts where the scan of the whole text does
(`cuts_eq`), and its tokens are made of the pieces between these cuts and of what is kept of the
separators (`lex_eq_tokens`). Keeping the separators loses nothing, if nothing is trimmed off them
(`Lexer.flatten_tokens`).

The main statement is `lex_segmentation`.
-/

namespace RegexText

namespace Segmentation

/-- The tokens that the pieces and what is kept of the matches make. -/
def tokens (o : Lexer.Options) (g : Segmentation) : List Text :=
  match o.policy with
  | .drop => g.pieces.map o.trim.trim
  | .alone =>
    o.trim.trim g.head ::
      g.tail.flatMap fun (m, piece) => [o.trim.trim (o.display m), o.trim.trim piece]
  | .withNext =>
    o.trim.trim g.head :: g.tail.map fun (m, piece) => o.trim.trim (o.display m ++ piece)
  | .withPrevious =>
    List.zipWith (· ++ ·) (g.pieces.map o.trim.trim)
      (g.found.map (fun m => o.trim.trim (o.display m)) ++ [[]])

/-- Without options the tokens are the pieces. -/
theorem tokens_drop (g : Segmentation) : g.tokens {} = g.pieces := by
  have hid : ({} : TrimSet).trim = id := funext TrimSet.trim_empty
  show g.pieces.map ({} : TrimSet).trim = g.pieces
  rw [hid, List.map_id]

end Segmentation

namespace Lexer

variable {sep : Pattern} {o : Options} {code d : Text} {p : Nat} {s : State} {a : Scan}

/-! ## The cuts -/

/-- A match, counted from two places: `d` stands in one text in front of what is left of the other
from index `p` on. -/
theorem recount_shift {n : Nat} (hp : p ≤ n) (k : Nat) (m : Match) :
    (m.shift k).recount n (k + (n - p)) = m.shift p := by
  have h (i : Nat) : n + (k + i) - (k + (n - p)) = p + i := by omega
  simp only [Match.recount, Match.shift, h, Option.map_map, Function.comp_def]

/-- A state is cut where the scan that it tracks cuts. -/
theorem Tracks.cuts_eq (sep : Pattern) (o : Options) (h : Tracks code d p s a)
    (ha : a.Inside code.length) (steps : Nat) :
    s.cuts sep o code.length steps = a.cuts sep code steps := by
  induction steps generalizing d p s a with
  | zero => rfl
  | succ steps ih =>
    unfold State.cuts Scan.cuts
    cases h.next sep o ha with
    | ends hs hwhole => rw [hs, hwhole]
    | goes move hmove hs hwhole hnext =>
      have hlater := ih hnext (Scan.potential_after_lt ha hwhole).1
      simp only [hs, hwhole, Move.separator?_shift, hmove, Option.map_none, hlater]
    | cuts m hs hwhole hnext =>
      have hlater := ih hnext (Scan.potential_after_lt ha hwhole).1
      have hlen : s.text.length = d.length + (code.length - p) := by
        rw [h.text_eq, List.length_append, List.length_drop]
      simp only [hs, hwhole, hlen, Move.separator?, Option.map_some, recount_shift h.le, hlater]

/-- Whatever the options, the lexer cuts where the scan of the whole text does. -/
theorem cuts_eq (sep : Pattern) (o : Options) (code : Text) :
    cuts sep o code = ({} : Scan).cuts sep code (stepBound code.length) :=
  (Tracks.start code).cuts_eq sep o (Scan.inside_start _) _

/-- The floor lies at or after the start of what is left, so the cuts lie one after the other. -/
theorem Scan.laid_cuts (ha : a.Inside code.length) (hp : p ≤ a.floor) (steps : Nat) :
    Laid code p (a.cuts sep code steps) := by
  induction steps generalizing p a with
  | zero => trivial
  | succ steps ih =>
    unfold Scan.cuts
    cases hmove : a.move? sep code with
    | none => trivial
    | some move =>
      have hin := (potential_after_lt ha hmove).1
      cases move with
      | pass y => exact ih hin ((pass_floor a y).symm ▸ hp)
      | resync y => exact ih hin (Nat.le_trans hp (Nat.le_of_lt (floor_lt_of_resync hmove)))
      | cut m =>
        have hplaced := (nextSeparator?_placed (separator_of_cut hmove) ha.floor_le).1
        exact ⟨hplaced.mono (Nat.le_trans hp ha.floor_le), ih hin (Nat.le_refl _)⟩

theorem laid_cuts (sep : Pattern) (o : Options) (code : Text) : Laid code 0 (cuts sep o code) := by
  rw [cuts_eq]
  exact Scan.laid_cuts (Scan.inside_start _) (Nat.le_refl 0) _

/-- Every cut is at a match of the separator. -/
theorem Scan.found_cuts (a : Scan) (sep : Pattern) (code : Text) (steps : Nat) :
    ∀ m ∈ a.cuts sep code steps, ∃ i, sep.matchFirst code i = some m :=
  Scan.forall_cuts (fun _ => True) (fun _ _ _ _ => trivial)
    (fun _ _ _ h => nextSeparator?_found (separator_of_cut h)) trivial steps

/-! ## The tokens -/

/-- The tokens made where the text `t` ends at the separator `m`. -/
def Options.tokensAt (o : Options) (t : Text) (m : Match) : List Text :=
  match o.policy with
  | .drop | .withNext => [o.trim.trim t]
  | .alone => [o.trim.trim t, o.trim.trim (o.display m)]
  | .withPrevious => [o.trim.trim t ++ o.trim.trim (o.display m)]

/-- The tokens of the text `t` and of what comes after it, cut at matches. -/
def Options.tokensFrom (o : Options) : Text → List (Match × Text) → List Text
  | t, [] => [o.trim.trim t]
  | t, (m, piece) :: tail => o.tokensAt t m ++ o.tokensFrom (o.carried m ++ piece) tail

theorem State.tokens_cut (o : Options) (m : Match) (s : State) :
    (s.cut o m).tokens = (o.tokensAt (s.text.take m.index) m).reverse ++ s.tokens := by
  obtain ⟨policy, trim, template⟩ := o
  cases policy <;> rfl

theorem Options.tokensAt_shift (o : Options) (t : Text) (k : Nat) (m : Match) :
    o.tokensAt t (m.shift k) = o.tokensAt t m := by
  unfold tokensAt
  rw [display_shift]

/-- A move that cuts nothing off makes no token. -/
theorem State.tokens_apply {move : Move} (hmove : move.separator? = none) (k : Nat) (s : State) :
    (s.apply o (move.shift k)).tokens = s.tokens := by
  cases move with
  | pass y => rfl
  | resync y => rfl
  | cut m => cases hmove

/-- What a state that is cut no more makes of its text. -/
theorem State.finish_tokens (o : Options) (s : State) :
    (s.finish o).tokens.reverse.filter (!·.isEmpty) =
      (s.tokens.reverse ++ [o.trim.trim s.text]).filter (!·.isEmpty) := by
  unfold State.finish
  split
  · rename_i he
    have htrim : o.trim.trim s.text = [] := by rw [List.isEmpty_iff.mp he]; rfl
    rw [htrim, List.filter_append]
    exact (List.append_nil _).symm
  · rw [State.push, List.reverse_cons]

/-- The next token starts with what stands in front of the text that is left. -/
theorem Tracks.text_take (h : Tracks code d p s a) (m : Match) :
    s.text.take (m.shift d.length).index = d ++ code.slice p (m.shift p).index := by
  rw [h.text_eq, Match.shift_index, Match.shift_index, List.take_length_add_append, Text.slice,
    Nat.add_sub_cancel_left]

/-- The tokens that a state makes are those of the text cut where the scan that it tracks cuts, with
what the state has in front. -/
theorem Tracks.run_tokens (sep : Pattern) (o : Options) (h : Tracks code d p s a)
    (ha : a.Inside code.length) (steps : Nat) :
    ((State.run sep o steps s).finish o).tokens.reverse.filter (!·.isEmpty) =
      (s.tokens.reverse ++
        let g := Segmentation.ofMatches code p (a.cuts sep code steps)
        o.tokensFrom (d ++ g.head) g.tail).filter (!·.isEmpty) := by
  induction steps generalizing d p s a with
  | zero =>
    rw [State.run, State.finish_tokens, h.text_eq]
    rfl
  | succ steps ih =>
    unfold State.run State.step Scan.cuts
    cases h.next sep o ha with
    | ends hs hwhole =>
      rw [hs, hwhole, Option.map_none, State.finish_tokens, h.text_eq]
      rfl
    | goes move hmove hs hwhole hnext =>
      have hlater := ih hnext (Scan.potential_after_lt ha hwhole).1
      simp only [hs, hwhole, Option.map_some, Move.separator?_shift, hmove, Option.map_none]
      refine hlater.trans ?_
      rw [State.tokens_apply hmove]
      rfl
    | cuts m hs hwhole hnext =>
      have hlater := ih hnext (Scan.potential_after_lt ha hwhole).1
      have htokens : (s.apply o (.cut (m.shift d.length))).tokens = _ := State.tokens_cut o _ s
      rw [h.text_take, Options.tokensAt_shift] at htokens
      rw [htokens, List.reverse_append, List.reverse_reverse, List.append_assoc,
        ← Match.shift_stop] at hlater
      simp only [hs, hwhole, Option.map_some]
      refine hlater.trans ?_
      show _ = (s.tokens.reverse ++ (o.tokensAt _ (m.shift p) ++ o.tokensFrom _ _)).filter _
      rw [Options.tokensAt_shift, Options.carried_shift]
      rfl

/-- What each policy makes of a text and of what comes after it. -/
theorem tokensFrom_eq (o : Options) (t : Text) (tail : List (Match × Text)) :
    o.tokensFrom t tail = (Segmentation.mk t tail).tokens o := by
  obtain ⟨policy, trim, template⟩ := o
  induction tail generalizing t with
  | nil =>
    cases policy with
    | withPrevious => exact congrArg (· :: []) (List.append_nil _).symm
    | drop | alone | withNext => rfl
  | cons cut tail ih =>
    obtain ⟨m, piece⟩ := cut
    rw [Options.tokensFrom, ih]
    cases policy <;> rfl

/-- The tokens of a text are made, whatever the policy, of the pieces between the cuts and of what
is kept of the separators. -/
theorem lex_eq_tokens (sep : Pattern) (o : Options) (code : Text) :
    lex sep o code =
      ((Segmentation.ofMatches code 0 (cuts sep o code)).tokens o).filter (!·.isEmpty) := by
  have h := (Tracks.start code).run_tokens sep o (Scan.inside_start _) (stepBound code.length)
  simp only [tokensFrom_eq, ← cuts_eq sep o] at h
  exact h

/-! ## Nothing lost -/

/-- A policy other than to drop the separator keeps it in the tokens before it or in front of the
text after it. -/
theorem Options.flatten_tokensAt {policy : SeparatorPolicy} (hp : policy ≠ .drop) (t : Text)
    (m : Match) : (tokensAt { policy } t m).flatten ++ carried { policy } m = t ++ m.text := by
  cases policy with
  | drop => exact absurd rfl hp
  | alone | withNext | withPrevious =>
    simp [tokensAt, carried, display, TrimSet.trim_empty]

theorem flatten_tokens {policy : SeparatorPolicy} (hp : policy ≠ .drop)
    (g : Segmentation) : (g.tokens { policy }).flatten = g.text := by
  obtain ⟨t, tail⟩ := g
  rw [← tokensFrom_eq]
  induction tail generalizing t with
  | nil =>
    rw [Options.tokensFrom, TrimSet.trim_empty]
    rfl
  | cons cut tail ih =>
    obtain ⟨m, piece⟩ := cut
    rw [Options.tokensFrom, List.flatten_append, ih, Segmentation.text_cons, ← List.append_assoc t,
      ← Options.flatten_tokensAt hp, List.append_assoc]
    simp only [Segmentation.text, List.append_assoc]

/-- One segmentation of a text gives its tokens under all options: the text is cut at the same
matches of the separator, and each policy makes of the pieces and of what is kept of the separators
what `Segmentation.tokens` says, up to empty tokens. Where nothing is trimmed and separators are
kept as they are, the tokens put together are the text. -/
theorem lex_segmentation (sep : Pattern) (code : Text) :
    ∃ g : Segmentation, g.text = code ∧
      (∀ o, g = .ofMatches code 0 (cuts sep o code)) ∧
      (∀ m ∈ g.found, ∃ i, sep.matchFirst code i = some m) ∧
      (∀ o, lex sep o code = (g.tokens o).filter (!·.isEmpty)) ∧
      ∀ policy, policy ≠ .drop → (lex sep { policy } code).flatten = code := by
  have hlex (o : Options) := lex_eq_tokens sep o code
  simp only [cuts_eq] at hlex
  have hlaid : Laid code 0 (({} : Scan).cuts sep code _) :=
    Scan.laid_cuts (Scan.inside_start _) (Nat.le_refl 0) (stepBound code.length)
  have htext := Segmentation.text_ofMatches hlaid
  refine ⟨.ofMatches code 0 (({} : Scan).cuts sep code (stepBound code.length)), htext, fun o => ?_,
    ?_, hlex, fun policy hp => ?_⟩
  · rw [cuts_eq]
  · rw [Segmentation.found_ofMatches]
    exact Scan.found_cuts _ _ _ _
  · rw [hlex, List.flatten_filter_not_isEmpty, flatten_tokens hp, htext]
    rfl

end Lexer

end RegexText
