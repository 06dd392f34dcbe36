import RegexText.Proofs.Lexer.Whole

/-!
# The lexer stops

Followed in the whole text, a scan that goes back does so only after its floor has risen, or once
for a malformed mark: `Scan.potential` weighs how far the floor is from the end of the text above
all, then whether nesting is heeded, then how far the offset is from the end. Every move lowers it
(`Scan.potential_after_lt`), at a cut because a separator ends after the floor. What is put in front
of the text after a cut does not count, so the potential of the scan that a state tracks bounds the
steps of the state (`Tracks.run_step_eq_none`), however much its text grows. Both come to their end
together (`Tracks.run`).

The main statement is `run_stops`.
-/

namespace RegexText.Lexer

variable {sep : Pattern} {t : Text}

namespace Scan

/-- The scan is at a place of a text of `n` characters, at its floor or after it. -/
structure Inside (n : Nat) (s : Scan) : Prop where
  floor_le : s.floor ≤ s.offset
  offset_le : s.offset ≤ n

/-- A bound for the number of moves that the scan can still make in a text of `n` characters. -/
def potential (n : Nat) (s : Scan) : Nat :=
  2 * (n + 1) * (n - s.floor) + if s.malformed then 0 else n + 1 + (n - s.offset)

/-- A start behind the floor has a lower potential than any scan with that floor. -/
theorem potential_startAt_lt {n i : Nat} {s : Scan} (hi : s.floor < i) (hn : i ≤ n) :
    (startAt i).potential n < s.potential n := by
  have hfloor : 2 * (n + 1) * (n - i) + 2 * (n + 1) ≤ 2 * (n + 1) * (n - s.floor) :=
    Nat.mul_le_mul_left (2 * (n + 1)) (by omega : n - i + 1 ≤ n - s.floor)
  simp only [potential, startAt, Bool.false_eq_true, if_false]
  omega

theorem inside_startAt {n i : Nat} (h : i ≤ n) : (startAt i).Inside n :=
  ⟨Nat.le_refl i, h⟩

/-- Going past a mark lowers the potential. -/
theorem potential_pass_lt {s : Scan} {y : Nesting.Symbol} (hs : s.Inside t.length)
    (hb : s.malformed = false) (hy : Nesting.nextSymbol? t s.offset = some y) :
    (s.pass y).Inside t.length ∧ (s.pass y).potential t.length < s.potential t.length := by
  obtain ⟨h₁, h₂, h₃⟩ := Nesting.nextSymbol?_bounds hy
  have hf := hs.floor_le
  have ho := hs.offset_le
  rcases pass_cases s y with he | ⟨stack, he⟩ <;> rw [he]
  · refine ⟨⟨Nat.le_refl _, Nat.le_trans hf ho⟩, ?_⟩
    simp only [potential, hb, if_true, Bool.false_eq_true, if_false]
    omega
  · refine ⟨⟨by show s.floor ≤ y.stop; omega, h₃⟩, ?_⟩
    simp only [potential, hb, Bool.false_eq_true, if_false]
    omega

/-- Every move lowers the potential. -/
theorem potential_after_lt {s : Scan} {move : Move} (hs : s.Inside t.length)
    (h : s.move? sep t = some move) :
    (s.after move).Inside t.length ∧ (s.after move).potential t.length < s.potential t.length := by
  obtain ⟨hlt, ⟨hb, m, rfl, hm⟩ | ⟨hb, hmakes⟩⟩ := makes_of_move? h
  · obtain ⟨hp, hfloor⟩ := nextSeparator?_placed hm hs.floor_le
    exact ⟨inside_startAt hp.stop_le, potential_startAt_lt hfloor hp.stop_le⟩
  cases hmakes with
  | inside _ hy => exact potential_pass_lt hs hb hy
  | outside _ hy => exact potential_pass_lt hs hb hy
  | resync _ _ hy =>
    obtain ⟨h₁, h₂, h₃⟩ := Nesting.nextSymbol?_bounds hy
    exact ⟨inside_startAt h₃, potential_startAt_lt (Nat.lt_of_le_of_lt h₁ h₂) h₃⟩
  | cut _ hm =>
    obtain ⟨hp, hfloor⟩ := nextSeparator?_placed hm hs.floor_le
    exact ⟨inside_startAt hp.stop_le, potential_startAt_lt hfloor hp.stop_le⟩

/-- The scan of `t` after at most `steps` moves. -/
def run (sep : Pattern) (t : Text) : (steps : Nat) → Scan → Scan
  | 0, s => s
  | steps + 1, s =>
    match s.move? sep t with
    | none => s
    | some move => (s.after move).run sep t steps

/-- What every move keeps holds after a run of them. -/
theorem run_keeps (Inv : Scan → Prop)
    (hinv : ∀ s move, Inv s → s.move? sep t = some move → Inv (s.after move)) {s : Scan}
    (hs : Inv s) (steps : Nat) : Inv (s.run sep t steps) := by
  induction steps generalizing s with
  | zero => exact hs
  | succ steps ih =>
    unfold run
    cases hmove : s.move? sep t with
    | none => exact hs
    | some move => exact ih (hinv s move hs hmove)

/-- As many moves as the potential allows lead to where there is none. -/
theorem run_move?_eq_none {s : Scan} (hs : s.Inside t.length) {steps : Nat}
    (hsteps : s.potential t.length < steps) : (s.run sep t steps).move? sep t = none := by
  induction steps generalizing s with
  | zero => cases hsteps
  | succ steps ih =>
    unfold run
    cases hmove : s.move? sep t with
    | none => exact hmove
    | some move =>
      obtain ⟨hin, hlt⟩ := potential_after_lt hs hmove
      exact ih hin (by omega)

theorem inside_start (n : Nat) : ({} : Scan).Inside n := ⟨Nat.le_refl 0, Nat.zero_le n⟩

theorem potential_start_lt (n : Nat) : ({} : Scan).potential n < stepBound n := by
  have h : 2 * (n + 1) * (n + 1) ≤ 2 * (n + 1) * (n + 1) * (n + 1) :=
    Nat.le_mul_of_pos_right _ (Nat.succ_pos n)
  have hadd : 2 * (n + 1) * (n + 1) = 2 * (n + 1) * n + 2 * (n + 1) := Nat.mul_succ ..
  have hbound : stepBound n = 2 * (n + 1) * (n + 1) * (n + 1) := by
    simp only [stepBound, Nat.mul_assoc]
  simp only [potential, Bool.false_eq_true, if_false, Nat.sub_zero]
  omega

theorem run_start_move?_eq_none (sep : Pattern) (t : Text) :
    (({} : Scan).run sep t (stepBound t.length)).move? sep t = none :=
  run_move?_eq_none (inside_start _) (potential_start_lt _)

end Scan

theorem stepBound_mono {m n : Nat} (h : m ≤ n) : stepBound m ≤ stepBound n := by
  have hsucc := Nat.succ_le_succ h
  exact Nat.mul_le_mul_left 2 (Nat.mul_le_mul (Nat.mul_le_mul hsucc hsucc) hsucc)

variable {o : Options} {code d : Text} {p : Nat} {s : State} {a : Scan}

/-- What a state and the scan that it tracks do next, which is the same but for the place it is
counted from: nothing, a move that cuts nothing off, or a cut. -/
inductive Tracks.Next (sep : Pattern) (o : Options) (code d : Text) (p : Nat) (s : State)
    (a : Scan) : Prop where
  | ends (hs : s.scan.move? sep s.text = none) (ha : a.move? sep code = none)
  | goes (move : Move) (hmove : move.separator? = none)
    (hs : s.scan.move? sep s.text = some (move.shift d.length))
    (ha : a.move? sep code = some (move.shift p))
    (h : Tracks code d p (s.apply o (move.shift d.length)) (a.after (move.shift p)))
  | cuts (m : Match) (hs : s.scan.move? sep s.text = some (.cut (m.shift d.length)))
    (ha : a.move? sep code = some (.cut (m.shift p)))
    (h : Tracks code (o.carried m) (p + m.stop) (s.apply o (.cut (m.shift d.length)))
      (a.after (.cut (m.shift p))))

theorem Tracks.next (sep : Pattern) (o : Options) (h : Tracks code d p s a)
    (ha : a.Inside code.length) : Next sep o code d p s a := by
  obtain ⟨next, hs, hwhole⟩ := h.move?_eq sep
  cases next with
  | none => exact .ends hs hwhole
  | some move =>
    cases hmove : move.separator? with
    | none => exact .goes move hmove hs hwhole (h.after_of_not_cut move hmove)
    | some m =>
      cases move with
      | pass y => cases hmove
      | resync y => cases hmove
      | cut m =>
        have hle : (m.shift p).stop ≤ code.length := (Scan.potential_after_lt ha hwhole).1.offset_le
        rw [Match.shift_stop] at hle
        exact .cuts m hs hwhole (h.after_cut m hle)

/-- A step of the lexer is a move of the scan in the whole text, and lowers its potential. -/
theorem Tracks.step (h : Tracks code d p s a) (ha : a.Inside code.length) {after : State}
    (hs : s.step sep o = some after) :
    ∃ d' p' a', Tracks code d' p' after a' ∧ a'.Inside code.length ∧
      a'.potential code.length < a.potential code.length := by
  cases h.next sep o ha with
  | ends hnone =>
    rw [State.step, hnone] at hs
    cases hs
  | goes move hmove hmoves hwhole hnext =>
    rw [State.step, hmoves] at hs
    cases hs
    exact ⟨d, p, _, hnext, Scan.potential_after_lt ha hwhole⟩
  | cuts m hmoves hwhole hnext =>
    rw [State.step, hmoves] at hs
    cases hs
    exact ⟨_, _, _, hnext, Scan.potential_after_lt ha hwhole⟩

/-- As many steps as the potential of the scan allows lead to a state without a next one. -/
theorem Tracks.run_step_eq_none (h : Tracks code d p s a) (ha : a.Inside code.length) {steps : Nat}
    (hsteps : a.potential code.length < steps) : (State.run sep o steps s).step sep o = none := by
  induction steps generalizing d p s a with
  | zero => cases hsteps
  | succ steps ih =>
    unfold State.run
    cases hs : s.step sep o with
    | none => exact hs
    | some after =>
      obtain ⟨d', p', a', h', ha', hlt⟩ := h.step ha hs
      exact ih h' ha' (by omega)

/-- Steps of a state and moves of the scan that it tracks keep the two together. -/
theorem Tracks.run (sep : Pattern) (o : Options) (h : Tracks code d p s a)
    (ha : a.Inside code.length) (steps : Nat) :
    ∃ d' p', Tracks code d' p' (State.run sep o steps s) (a.run sep code steps) := by
  induction steps generalizing d p s a with
  | zero => exact ⟨d, p, h⟩
  | succ steps ih =>
    unfold State.run State.step Scan.run
    cases h.next sep o ha with
    | ends hs hwhole =>
      rw [hs, hwhole]
      exact ⟨d, p, h⟩
    | goes move _ hs hwhole hnext =>
      rw [hs, hwhole]
      exact ih hnext (Scan.potential_after_lt ha hwhole).1
    | cuts m hs hwhole hnext =>
      rw [hs, hwhole]
      exact ih hnext (Scan.potential_after_lt ha hwhole).1

/-- No run of steps goes on for ever. -/
theorem Tracks.acc (h : Tracks code d p s a) (ha : a.Inside code.length) :
    Acc (fun after before => before.step sep o = some after) s := by
  induction hn : a.potential code.length using Nat.strongRecOn generalizing d p s a with
  | _ n ih =>
    refine ⟨_, fun after hs => ?_⟩
    obtain ⟨d', p', a', h', ha', hlt⟩ := h.step ha hs
    exact ih _ (hn ▸ hlt) h' ha' rfl

theorem State.run_of_step_eq_none (hs : s.step sep o = none) (steps : Nat) :
    State.run sep o steps s = s := by
  cases steps with
  | zero => rfl
  | succ steps => rw [State.run, hs]

theorem State.run_add (steps more : Nat) (s : State) :
    State.run sep o (steps + more) s = State.run sep o more (State.run sep o steps s) := by
  induction steps generalizing s with
  | zero => rw [Nat.zero_add]; rfl
  | succ steps ih =>
    rw [Nat.add_right_comm, State.run, State.run]
    cases hs : s.step sep o with
    | none => exact (State.run_of_step_eq_none hs more).symm
    | some after => exact ih after

/-- The lexer stops on every text: its steps do not go on for ever, and after `stepBound` of them it
is in a state without a next one, which more steps do not change. -/
theorem run_stops (sep : Pattern) (o : Options) (code : Text) :
    Acc (fun after before : State => before.step sep o = some after) { text := code } ∧
      ∃ last : State, last.step sep o = none ∧
        ∀ steps, stepBound code.length ≤ steps → State.run sep o steps { text := code } = last := by
  have hstart := Tracks.start code
  have hin := Scan.inside_start code.length
  have hlast : (State.run sep o (stepBound code.length) { text := code }).step sep o = none :=
    hstart.run_step_eq_none hin (Scan.potential_start_lt _)
  refine ⟨hstart.acc hin, _, hlast, fun steps hsteps => ?_⟩
  rw [← Nat.add_sub_cancel' hsteps, State.run_add]
  exact State.run_of_step_eq_none hlast _

end RegexText.Lexer
