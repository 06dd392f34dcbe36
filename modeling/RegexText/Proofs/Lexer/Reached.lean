import RegexText.Proofs.Lexer.Stopping
import RegexText.Proofs.Nesting.Grammar

/-!
# What every state of the lexer keeps

The text of a state is what the last cut has put in front of it, followed by what that cut has left
of the whole text. `State.Reached` follows the lexer with both of them beside its state, through the
same states as a run (`State.exists_run_iff_reached`). Two things keep what is in front from being
searched or cut a second time: the floor never lies in it, and a separator ends after the floor.

Each kind of move keeps a state in order (`State.InOrder.pass`, `State.InOrder.resync`,
`State.InOrder.cut`), so every state that is reached is (`State.Reached.inOrder`). A cut in such a
state takes something off what is left of the whole text (`State.InOrder.exists_removed`).

The main statement is `reached_states`.
-/

namespace RegexText.Lexer

open Nesting

variable {sep : Pattern} {o : Options} {code d left : Text} {s : State} {m : Match}

/-- Going past a mark keeps the stack proper. -/
theorem Scan.pass_proper {a : Scan} (h : a.stack.Proper) (y : Symbol) :
    (a.pass y).stack.Proper := by
  cases hy : y.escaped with
  | true => rwa [Scan.pass_of_escaped hy]
  | false =>
    by_cases ho : (a.stack.observe y.char).1 = .malformed
    · rwa [Scan.pass_of_malformed hy ho]
    · rw [Scan.pass_of_ne_malformed hy ho]
      exact h.observe y.char

namespace State

/-- The states that the lexer comes to on `code`, where `d` has been put in front by the last cut,
and `left` is what that cut has left of `code`. -/
inductive Reached (sep : Pattern) (o : Options) (code : Text) : (d left : Text) → State → Prop where
  | start : Reached sep o code [] code { text := code }
  | pass {d left : Text} {s : State} {y : Symbol} (h : Reached sep o code d left s)
    (hmove : s.scan.move? sep s.text = some (.pass y)) :
    Reached sep o code d left (s.apply o (.pass y))
  | resync {d left : Text} {s : State} {y : Symbol} (h : Reached sep o code d left s)
    (hmove : s.scan.move? sep s.text = some (.resync y)) :
    Reached sep o code d left (s.apply o (.resync y))
  | cut {d left : Text} {s : State} {m : Match} (h : Reached sep o code d left s)
    (hmove : s.scan.move? sep s.text = some (.cut m)) :
    Reached sep o code (o.carried m) (s.text.drop m.stop) (s.apply o (.cut m))

theorem Reached.step (h : Reached sep o code d left s) {after : State}
    (hs : s.step sep o = some after) : ∃ d' left', Reached sep o code d' left' after := by
  obtain ⟨move, hmove, rfl⟩ := Option.map_eq_some_iff.mp hs
  cases move with
  | pass y => exact ⟨d, left, h.pass hmove⟩
  | resync y => exact ⟨d, left, h.resync hmove⟩
  | cut m => exact ⟨o.carried m, s.text.drop m.stop, h.cut hmove⟩

theorem Reached.run (h : Reached sep o code d left s) (steps : Nat) :
    ∃ d' left', Reached sep o code d' left' (State.run sep o steps s) := by
  induction steps generalizing d left s with
  | zero => exact ⟨d, left, h⟩
  | succ steps ih =>
    unfold State.run
    cases hs : s.step sep o with
    | none => exact ⟨d, left, h⟩
    | some after =>
      obtain ⟨d', left', hafter⟩ := h.step hs
      exact ih hafter

/-- One step more goes on to the next state. -/
theorem exists_run_apply (h : ∃ steps, State.run sep o steps { text := code } = s) {move : Move}
    (hmove : s.scan.move? sep s.text = some move) :
    ∃ steps, State.run sep o steps { text := code } = s.apply o move := by
  obtain ⟨steps, rfl⟩ := h
  refine ⟨steps + 1, ?_⟩
  rw [State.run_add, State.run, State.step, hmove]
  rfl

theorem Reached.exists_run (h : Reached sep o code d left s) :
    ∃ steps, State.run sep o steps { text := code } = s := by
  induction h with
  | start => exact ⟨0, rfl⟩
  | pass _ hmove ih => exact exists_run_apply ih hmove
  | resync _ hmove ih => exact exists_run_apply ih hmove
  | cut _ hmove ih => exact exists_run_apply ih hmove

/-- The states that are reached are those that a run of the lexer goes through. -/
theorem exists_run_iff_reached (sep : Pattern) (o : Options) (code : Text) (s : State) :
    (∃ steps, State.run sep o steps { text := code } = s) ↔
      ∃ d left, Reached sep o code d left s := by
  constructor
  · rintro ⟨steps, rfl⟩
    exact Reached.start.run steps
  · rintro ⟨d, left, h⟩
    exact h.exists_run

/-! ## The moves -/

/-- The state is in order: its text is made of `d` and what is left of `code`, its scan is at a
place of that text, and at its floor where nesting is disregarded, it goes back to no place in `d`,
and its stack is one that marks can lead to. -/
structure InOrder (code d left : Text) (s : State) : Prop where
  text_eq : s.text = d ++ left
  left_suffix : left <:+ code
  inside : s.scan.Inside s.text.length
  carried_le : d.length ≤ s.scan.floor
  offset_eq : s.scan.malformed = true → s.scan.offset = s.scan.floor
  proper : s.scan.stack.Proper

theorem inOrder_start (code : Text) : InOrder code [] code { text := code } where
  text_eq := rfl
  left_suffix := List.suffix_refl code
  inside := Scan.inside_start code.length
  carried_le := Nat.le_refl 0
  offset_eq := fun h => nomatch h
  proper := Stack.proper_nil

theorem InOrder.pass (h : InOrder code d left s) {y : Symbol}
    (hmove : s.scan.move? sep s.text = some (.pass y)) :
    InOrder code d left (s.apply o (.pass y)) where
  text_eq := h.text_eq
  left_suffix := h.left_suffix
  inside := (Scan.potential_after_lt h.inside hmove).1
  carried_le := (Scan.pass_floor s.scan y).symm ▸ h.carried_le
  offset_eq := by
    intro hb
    rcases Scan.pass_cases s.scan y with hpass | ⟨stack, hpass⟩
    · show (s.scan.pass y).offset = (s.scan.pass y).floor
      rw [hpass]
    · -- Nesting is disregarded after such a mark only if it was before.
      have hbefore : s.scan.malformed = true := by
        have hafter : (s.scan.pass y).malformed = true := hb
        rwa [hpass] at hafter
      rw [Scan.heeds_of_pass hmove] at hbefore
      cases hbefore
  proper := Scan.pass_proper h.proper y

theorem InOrder.resync (h : InOrder code d left s) {y : Symbol}
    (hmove : s.scan.move? sep s.text = some (.resync y)) :
    InOrder code d left (s.apply o (.resync y)) where
  text_eq := h.text_eq
  left_suffix := h.left_suffix
  inside := (Scan.potential_after_lt h.inside hmove).1
  carried_le := Nat.le_trans h.carried_le (Nat.le_of_lt (Scan.floor_lt_of_resync hmove))
  offset_eq := fun hb => nomatch hb
  proper := Stack.proper_nil

/-- A separator starts at or after the floor, and ends after it and after what stands in front. -/
theorem InOrder.separator_bounds (h : InOrder code d left s)
    (hmove : s.scan.move? sep s.text = some (.cut m)) :
    s.scan.floor ≤ m.index ∧ d.length < m.stop ∧ m.stop ≤ s.text.length := by
  obtain ⟨hplaced, hfloor⟩ :=
    Scan.nextSeparator?_placed (Scan.separator_of_cut hmove) h.inside.floor_le
  exact ⟨Nat.le_trans h.inside.floor_le hplaced.lo_le, Nat.lt_of_le_of_lt h.carried_le hfloor,
    hplaced.stop_le⟩

/-- A cut takes something off what is left of the whole text. -/
theorem InOrder.exists_removed (h : InOrder code d left s)
    (hmove : s.scan.move? sep s.text = some (.cut m)) :
    ∃ removed, removed ≠ [] ∧ left = removed ++ s.text.drop m.stop := by
  obtain ⟨-, hlt, hle⟩ := h.separator_bounds hmove
  rw [h.text_eq, List.length_append] at hle
  refine ⟨left.take (m.stop - d.length), List.ne_nil_of_length_pos ?_, ?_⟩
  · rw [List.length_take]
    omega
  · rw [h.text_eq, List.drop_append, List.drop_eq_nil_of_le (Nat.le_of_lt hlt), List.nil_append,
      List.take_append_drop]

theorem InOrder.cut (h : InOrder code d left s) (hmove : s.scan.move? sep s.text = some (.cut m)) :
    InOrder code (o.carried m) (s.text.drop m.stop) (s.apply o (.cut m)) where
  text_eq := rfl
  left_suffix := by
    obtain ⟨removed, -, heq⟩ := h.exists_removed hmove
    exact (heq ▸ List.suffix_append removed _).trans h.left_suffix
  inside := Scan.inside_startAt (List.length_append ▸ Nat.le_add_right _ _)
  carried_le := Nat.le_refl _
  offset_eq := fun hb => nomatch hb
  proper := Stack.proper_nil

/-- Every state that is reached is in order. -/
theorem Reached.inOrder (h : Reached sep o code d left s) : InOrder code d left s := by
  induction h with
  | start => exact inOrder_start code
  | pass _ hmove ih => exact ih.pass hmove
  | resync _ hmove ih => exact ih.resync hmove
  | cut _ hmove ih => exact ih.cut hmove

end State

/-- What a run of the lexer keeps, in every state that it goes through.

Let `d` be what the last cut has put in front, and `left` what that cut has left of the whole text.
Then the text is `d` followed by `left`. The floor is at or before the offset and the offset in the
text, `d` is at most as long as the floor, and where nesting is disregarded the offset is the floor.
The stack holds marks that close something, a quote mark only as the innermost, so no quote is
closed along with a bracket outside of it. A cut is made only where nothing is open or nesting is
disregarded, at a separator that starts at or after the floor and ends after `d`, and leaves less of
the whole text. -/
theorem reached_states (sep : Pattern) (o : Options) (code : Text) :
    (∀ s, (∃ steps, State.run sep o steps { text := code } = s) ↔
      ∃ d left, State.Reached sep o code d left s) ∧
    ∀ d left s, State.Reached sep o code d left s →
      s.text = d ++ left ∧ left <:+ code ∧
      s.scan.floor ≤ s.scan.offset ∧ s.scan.offset ≤ s.text.length ∧
      d.length ≤ s.scan.floor ∧
      (s.scan.malformed = true → s.scan.offset = s.scan.floor) ∧
      (∀ c ∈ s.scan.stack, c ∈ closingMarks) ∧
      (∀ c ∈ s.scan.stack.tail, isQuote c = false) ∧
      (∀ c after, s.scan.stack.observe c = (.truncated, after) →
        ∃ dropped, s.scan.stack = dropped ++ after ∧ ∀ q ∈ dropped, isQuote q = false) ∧
      ∀ m, s.scan.move? sep s.text = some (.cut m) →
        (s.scan.stack = [] ∨ s.scan.malformed = true) ∧
        s.scan.floor ≤ m.index ∧ d.length < m.stop ∧
        ∃ removed left', removed ≠ [] ∧ left = removed ++ left' ∧
          State.Reached sep o code (o.carried m) left' (s.apply o (.cut m)) := by
  refine ⟨State.exists_run_iff_reached sep o code, fun d left s h => ?_⟩
  have hs := h.inOrder
  refine ⟨hs.text_eq, hs.left_suffix, hs.inside.floor_le, hs.inside.offset_le, hs.carried_le,
    hs.offset_eq, hs.proper.closers, hs.proper.outer_brackets,
    fun c after => hs.proper.truncated_brackets, fun m hmove => ?_⟩
  obtain ⟨hindex, hstop, -⟩ := hs.separator_bounds hmove
  obtain ⟨removed, hne, hleft⟩ := hs.exists_removed hmove
  exact ⟨Scan.nil_or_malformed_of_cut hmove, hindex, hstop, removed, _, hne, hleft, h.cut hmove⟩

theorem reached_states_carried :
    ∃ s, State.Reached (.literal [',']) { policy := .withNext, template := some "((,".toList }
        "a,([\x7d,b".toList "((,".toList "([\x7d,b".toList s ∧
      s.scan.malformed = true ∧ s.scan.offset = s.scan.floor ∧
      s.scan.stack.observe ')' = (.truncated, []) ∧
      (∃ dropped, s.scan.stack = dropped ++ [] ∧ ∀ q ∈ dropped, isQuote q = false) ∧
      ∃ m, s.scan.move? (.literal [',']) s.text = some (.cut m) ∧
        s.scan.floor ≤ m.index ∧ "((,".toList.length < m.stop ∧
        ∃ removed left', removed ≠ [] ∧ "([\x7d,b".toList = removed ++ left' := by
  have hstart : State.Reached (.literal [','])
      { policy := .withNext, template := some "((,".toList } "a,([\x7d,b".toList [] _ _ := .start
  have hreached := (((hstart.cut rfl).pass rfl).pass rfl).pass rfl
  obtain ⟨-, -, -, -, -, hoffset, -, -, hdropped, hcut⟩ := (reached_states _ _ _).2 _ _ _ hreached
  obtain ⟨-, hindex, hstop, removed, left', hne, hleft, -⟩ := hcut _ rfl
  exact ⟨_, hreached, rfl, hoffset rfl, rfl, hdropped ')' [] rfl, _, rfl, hindex, hstop, removed,
    left', hne, hleft⟩

end RegexText.Lexer
