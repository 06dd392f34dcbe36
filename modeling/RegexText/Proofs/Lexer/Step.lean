import RegexText.Lexer.Scan
import RegexText.Proofs.Nesting.Mark
import RegexText.Proofs.Pattern.Found

/-!
# The moves of a scan

What a move says of the text that it is made in (`Scan.Makes`), read off `Scan.move?` once
(`makes_of_move?`), and when there is none (`ends_of_move?`). A separator that a scan finds starts
at or after its offset and ends after its floor (`nextSeparator?_placed`): an empty one at the floor
is passed over.

A scan looks at nothing before its floor, so text put in front only shifts its moves
(`move?_append`), and a run of moves can be followed in one text of which nothing is cut off
(`Scan.after`).
-/

namespace RegexText.Lexer

variable {sep : Pattern} {t : Text} {s : Scan} {m : Match}

namespace Scan

theorem nextSeparator?_eq (h : s.nextSeparator? sep t = some m) :
    sep.matchFirst t s.offset = some m ∧ (m.index ≠ s.floor ∨ m.lastIndex.isNone = false) ∨
      sep.matchFirst t (s.floor + 1) = some m ∧
        ∃ m₀, sep.matchFirst t s.offset = some m₀ ∧ m₀.index = s.floor := by
  unfold nextSeparator? at h
  split at h
  · cases h
  · rename_i m₀ hm₀
    split at h
    · rename_i he
      simp only [Bool.and_eq_true, beq_iff_eq] at he
      exact .inr ⟨h, m₀, hm₀, he.1⟩
    · rename_i he
      cases h
      rw [Bool.and_eq_true, Decidable.not_and_iff_not_or_not, beq_iff_eq, Bool.not_eq_true] at he
      exact .inl ⟨hm₀, he⟩

/-- A separator lies at or after the offset and ends after the floor. -/
theorem nextSeparator?_placed (h : s.nextSeparator? sep t = some m) (hf : s.floor ≤ s.offset) :
    m.Placed t s.offset ∧ s.floor < m.stop := by
  rcases nextSeparator?_eq h with ⟨hm, hne⟩ | ⟨hm, m₀, hm₀, hi⟩
  · have hp := Pattern.matchFirst_placed hm
    refine ⟨hp, ?_⟩
    have h₁ := hp.lo_le
    have h₂ := hp.index_le
    rcases hne with hne | hne
    · omega
    · have : m.stop ≠ m.index := fun he => by simp [hp.isNone_iff.mpr he] at hne
      omega
  · have hp := Pattern.matchFirst_placed hm
    have h₀ := (Pattern.matchFirst_placed hm₀).lo_le
    have h₁ := hp.lo_le
    have h₂ := hp.index_le
    exact ⟨hp.mono (by omega), by omega⟩

/-- A separator of the scan is one that is found in the text. -/
theorem nextSeparator?_found (h : s.nextSeparator? sep t = some m) :
    ∃ i, sep.matchFirst t i = some m := by
  rcases nextSeparator?_eq h with ⟨hm, -⟩ | ⟨hm, -⟩
  · exact ⟨_, hm⟩
  · exact ⟨_, hm⟩

/-- Past the end of a text no separator is found. -/
theorem nextSeparator?_of_length_le (h : t.length ≤ s.offset) : s.nextSeparator? sep t = none := by
  unfold nextSeparator?
  rw [Pattern.matchFirst_of_length_le h]

/-- What holds where the scan makes a move. -/
inductive Makes (sep : Pattern) (t : Text) (s : Scan) : Move → Prop where
  | inside {y : Nesting.Symbol} (hne : s.stack ≠ []) (h : Nesting.nextSymbol? t s.offset = some y) :
    Makes sep t s (.pass y)
  | outside {y : Nesting.Symbol} {m : Match} (hnil : s.stack = [])
    (h : Nesting.nextSymbol? t s.offset = some y) (hm : s.nextSeparator? sep t = some m)
    (hlt : y.start < m.index) : Makes sep t s (.pass y)
  | resync {y : Nesting.Symbol} (hne : s.stack ≠ []) (hnone : Nesting.nextSymbol? t s.offset = none)
    (h : Nesting.nextSymbol? t s.floor = some y) : Makes sep t s (.resync y)
  | cut {m : Match} (hnil : s.stack = []) (hm : s.nextSeparator? sep t = some m)
    (h : ∀ y, Nesting.nextSymbol? t s.offset = some y → m.index ≤ y.start) : Makes sep t s (.cut m)

variable {move : Move}

theorem makes_of_moveInside? (hne : s.stack ≠ []) (h : s.moveInside? t = some move) :
    s.Makes sep t move := by
  unfold moveInside? at h
  split at h
  · rename_i y hy
    cases h
    exact .inside hne hy
  · rename_i hnone
    obtain ⟨y, hy, rfl⟩ := Option.map_eq_some_iff.mp h
    exact .resync hne hnone hy

theorem makes_of_moveOutside? (hnil : s.stack = []) (h : s.moveOutside? sep t = some move) :
    s.Makes sep t move := by
  unfold moveOutside? at h
  split at h
  · cases h
  rename_i m hm
  split at h
  · rename_i y hy
    split at h
    · rename_i hlt
      cases h
      exact .outside hnil hy hm hlt
    · rename_i hle
      cases h
      refine .cut hnil hm fun y' hy' => ?_
      rw [hy, Option.some.injEq] at hy'
      exact hy' ▸ Nat.le_of_not_lt hle
  · rename_i hnone
    cases h
    exact .cut hnil hm fun y hy => by rw [hnone] at hy; cases hy

/-- Every move that a scan makes: at the next separator if nesting is disregarded, and else as
`Makes` says. -/
theorem makes_of_move? (h : s.move? sep t = some move) :
    s.offset < t.length ∧
      ((s.malformed = true ∧ ∃ m, move = .cut m ∧ s.nextSeparator? sep t = some m) ∨
        (s.malformed = false ∧ s.Makes sep t move)) := by
  unfold move? at h
  split at h
  · cases h
  rename_i hlt
  refine ⟨Nat.lt_of_not_le hlt, ?_⟩
  split at h
  · rename_i hb
    obtain ⟨m, hm, rfl⟩ := Option.map_eq_some_iff.mp h
    exact .inl ⟨hb, m, rfl, hm⟩
  · rename_i hb
    refine .inr ⟨Bool.not_eq_true _ ▸ hb, ?_⟩
    split at h
    · rename_i he
      exact makes_of_moveOutside? (List.isEmpty_iff.mp he) h
    · rename_i he
      exact makes_of_moveInside? (fun hn => he (List.isEmpty_iff.mpr hn)) h

/-- A cut is at the next separator. -/
theorem separator_of_cut (h : s.move? sep t = some (.cut m)) : s.nextSeparator? sep t = some m := by
  rcases (makes_of_move? h).2 with ⟨-, m', hcut, hm⟩ | ⟨-, hmakes⟩
  · cases hcut
    exact hm
  · cases hmakes with
    | cut _ hm => exact hm

/-- A cut is made where nothing is open or nesting is disregarded. -/
theorem nil_or_malformed_of_cut (h : s.move? sep t = some (.cut m)) :
    s.stack = [] ∨ s.malformed = true := by
  rcases (makes_of_move? h).2 with ⟨hb, -⟩ | ⟨-, hmakes⟩
  · exact .inr hb
  · cases hmakes with
    | cut hnil _ _ => exact .inl hnil

/-- A scan goes past marks only while it heeds nesting. -/
theorem heeds_of_pass {y : Nesting.Symbol} (h : s.move? sep t = some (.pass y)) :
    s.malformed = false := by
  rcases (makes_of_move? h).2 with ⟨-, m, hcut, -⟩ | ⟨hb, -⟩
  · cases hcut
  · exact hb

/-- A scan goes on after a mark at or after its floor. -/
theorem floor_lt_of_resync {y : Nesting.Symbol} (h : s.move? sep t = some (.resync y)) :
    s.floor < y.stop := by
  rcases (makes_of_move? h).2 with ⟨-, m', hcut, -⟩ | ⟨-, hmakes⟩
  · cases hcut
  · cases hmakes with
    | resync _ _ hy =>
      obtain ⟨h₁, h₂, -⟩ := Nesting.nextSymbol?_bounds hy
      exact Nat.lt_of_le_of_lt h₁ h₂

/-- Where a scan that heeds nesting makes no move, the text ends, or nothing is open and no
separator is left, or something is open and the text holds no mark from the floor on. -/
theorem ends_of_move? (hb : s.malformed = false) (h : s.move? sep t = none) :
    t.length ≤ s.offset ∨ (s.stack = [] ∧ s.nextSeparator? sep t = none) ∨
      (s.stack ≠ [] ∧ Nesting.nextSymbol? t s.offset = none ∧
        Nesting.nextSymbol? t s.floor = none) := by
  unfold move? at h
  split at h
  · exact .inl ‹_›
  refine .inr ?_
  rw [hb, if_neg Bool.false_ne_true] at h
  split at h
  · rename_i he
    refine .inl ⟨List.isEmpty_iff.mp he, ?_⟩
    unfold moveOutside? at h
    split at h
    · assumption
    · split at h
      · split at h <;> cases h
      · cases h
  · rename_i he
    refine .inr ⟨fun hn => he (List.isEmpty_iff.mpr hn), ?_⟩
    unfold moveInside? at h
    split at h
    · cases h
    · exact ⟨‹_›, Option.map_eq_none_iff.mp h⟩

end Scan

/-! ## Past a mark -/

namespace Scan

variable {y : Nesting.Symbol}

theorem pass_of_escaped (h : y.escaped = true) : s.pass y = { s with offset := y.stop } := by
  simp [pass, h]

theorem pass_of_malformed (h : y.escaped = false) (ho : (s.stack.observe y.char).1 = .malformed) :
    s.pass y = { s with offset := s.floor, malformed := true } := by
  rcases hobs : s.stack.observe y.char with ⟨reaction, stack⟩
  rw [hobs] at ho
  obtain rfl : reaction = .malformed := ho
  simp [pass, h, hobs]

theorem pass_of_ne_malformed (h : y.escaped = false)
    (ho : (s.stack.observe y.char).1 ≠ .malformed) :
    s.pass y = { s with offset := y.stop, stack := (s.stack.observe y.char).2 } := by
  rcases hobs : s.stack.observe y.char with ⟨reaction, stack⟩
  rw [hobs] at ho
  cases reaction with
  | malformed => exact absurd rfl ho
  | opened | closed | truncated | ignored => simp [pass, h, hobs]

/-- A mark moves the scan ahead, or back to its floor where nesting is then disregarded. -/
theorem pass_cases (s : Scan) (y : Nesting.Symbol) :
    s.pass y = { s with offset := s.floor, malformed := true } ∨
      ∃ stack, s.pass y = { s with offset := y.stop, stack } := by
  cases h : y.escaped with
  | true => exact .inr ⟨s.stack, pass_of_escaped h⟩
  | false =>
    by_cases ho : (s.stack.observe y.char).1 = .malformed
    · exact .inl (pass_of_malformed h ho)
    · exact .inr ⟨_, pass_of_ne_malformed h ho⟩

theorem pass_floor (s : Scan) (y : Nesting.Symbol) : (s.pass y).floor = s.floor := by
  rcases pass_cases s y with h | ⟨stack, h⟩ <;> rw [h]

end Scan

/-! ## Text in front of a scan -/

/-- The move as it is counted from a place `k` characters further to the left. -/
def Move.shift (k : Nat) : Move → Move
  | pass y => pass (y.shift k)
  | resync y => resync (y.shift k)
  | cut m => cut (m.shift k)

namespace Scan

/-- The scan as it is counted from a place `k` characters further to the left. -/
def shift (k : Nat) (s : Scan) : Scan :=
  { s with offset := k + s.offset, floor := k + s.floor }

theorem nextSeparator?_append (d t : Text) (s : Scan) :
    (s.shift d.length).nextSeparator? sep (d ++ t) =
      (s.nextSeparator? sep t).map (Match.shift d.length) := by
  simp only [nextSeparator?, shift, Nat.add_assoc, Pattern.matchFirst_append]
  cases sep.matchFirst t s.offset with
  | none => rfl
  | some m =>
    have he : ((d.length + m.index == d.length + s.floor) && (m.shift d.length).lastIndex.isNone) =
        (m.index == s.floor && m.lastIndex.isNone) := by
      rw [Match.shift_lastIndex, Option.isNone_map]
      congr 1
      rw [Bool.eq_iff_iff, beq_iff_eq, beq_iff_eq, Nat.add_left_cancel_iff]
    simp only [Option.map_some, Match.shift_index, he]
    split <;> rfl

theorem moveInside?_append (d t : Text) (s : Scan) :
    (s.shift d.length).moveInside? (d ++ t) = (s.moveInside? t).map (Move.shift d.length) := by
  simp only [moveInside?, shift, Nesting.nextSymbol?_append]
  cases Nesting.nextSymbol? t s.offset with
  | some y => rfl
  | none => cases Nesting.nextSymbol? t s.floor <;> rfl

theorem moveOutside?_append (d t : Text) (s : Scan) :
    (s.shift d.length).moveOutside? sep (d ++ t) =
      (s.moveOutside? sep t).map (Move.shift d.length) := by
  simp only [moveOutside?, nextSeparator?_append]
  simp only [shift, Nesting.nextSymbol?_append]
  cases s.nextSeparator? sep t with
  | none => rfl
  | some m =>
    cases Nesting.nextSymbol? t s.offset with
    | none => rfl
    | some y =>
      simp only [Option.map_some, Nesting.Symbol.shift, Match.shift_index, Nat.add_lt_add_iff_left]
      split <;> rfl

/-- Text in front shifts what a scan does next. -/
theorem move?_append (sep : Pattern) (d t : Text) (s : Scan) :
    (s.shift d.length).move? sep (d ++ t) = (s.move? sep t).map (Move.shift d.length) := by
  have hlen : (d ++ t).length ≤ (s.shift d.length).offset ↔ t.length ≤ s.offset := by
    rw [List.length_append]
    exact Nat.add_le_add_iff_left
  unfold move?
  rw [nextSeparator?_append, moveInside?_append, moveOutside?_append]
  simp only [hlen]
  split
  · rfl
  show (if s.malformed then _ else if s.stack.isEmpty then _ else _) = _
  split
  · cases s.nextSeparator? sep t <;> rfl
  · split <;> rfl

/-- The scan after a move, in a text of which nothing is cut off: after a cut it starts anew behind
the separator. -/
def after (s : Scan) : Move → Scan
  | .pass y => s.pass y
  | .resync y => startAt y.stop
  | .cut m => startAt m.stop

theorem pass_shift (k : Nat) (s : Scan) (y : Nesting.Symbol) :
    (s.shift k).pass (y.shift k) = (s.pass y).shift k := by
  cases h : y.escaped with
  | true => rw [pass_of_escaped (s := s) h]; exact pass_of_escaped h
  | false =>
    by_cases ho : (s.stack.observe y.char).1 = .malformed
    · rw [pass_of_malformed (s := s) h ho]; exact pass_of_malformed h ho
    · rw [pass_of_ne_malformed (s := s) h ho]; exact pass_of_ne_malformed h ho

theorem after_shift (k : Nat) (s : Scan) (move : Move) :
    (s.shift k).after (move.shift k) = (s.after move).shift k := by
  cases move with
  | pass y => exact pass_shift k s y
  | resync y => rfl
  | cut m => exact congrArg startAt (Match.shift_stop k m)

end Scan

end RegexText.Lexer
