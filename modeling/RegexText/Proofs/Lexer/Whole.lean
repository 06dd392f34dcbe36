import RegexText.Lexer.Tokens
import RegexText.Proofs.Lexer.Step

/-!
# Following the lexer in the whole text

A state holds what is left of the text, with the separator that the next token starts with in front
of it, and its scan counts from the start of that. `Tracks` ties such a state to a scan of the whole
text, of which nothing is cut off: the two make the same moves, counted from different places
(`Tracks.move?_eq`), whatever is put in front of what is left. So the lexer stops and cuts where the
scan does.
-/

namespace RegexText.Lexer

/-- The separator at which a move cuts, if it does. -/
def Move.separator? : Move → Option Match
  | pass _ | resync _ => none
  | cut m => some m

/-- The separators at which a scan of `t` cuts in its next `steps` moves. -/
def Scan.cuts (sep : Pattern) (t : Text) : (steps : Nat) → Scan → List Match
  | 0, _ => []
  | steps + 1, s =>
    match s.move? sep t with
    | none => []
    | some move => move.separator?.toList ++ (s.after move).cuts sep t steps

theorem Move.separator?_shift (k : Nat) (move : Move) :
    (move.shift k).separator? = move.separator?.map (Match.shift k) := by
  cases move <;> rfl

theorem Options.display_shift (o : Options) (k : Nat) (m : Match) :
    o.display (m.shift k) = o.display m := by
  unfold display
  cases o.template <;> rfl

theorem Options.carried_shift (o : Options) (k : Nat) (m : Match) :
    o.carried (m.shift k) = o.carried m := by
  unfold carried
  rw [display_shift]

/-- What holds of every separator at which a scan that the moves keep in order can cut. -/
theorem Scan.forall_cuts {sep : Pattern} {t : Text} (Inv : Scan → Prop) {Good : Match → Prop}
    (hinv : ∀ s move, Inv s → s.move? sep t = some move → Inv (s.after move))
    (hgood : ∀ s m, Inv s → s.move? sep t = some (.cut m) → Good m) {s : Scan} (hs : Inv s)
    (steps : Nat) : ∀ m ∈ s.cuts sep t steps, Good m := by
  induction steps generalizing s with
  | zero => exact fun m hm => nomatch hm
  | succ steps ih =>
    unfold cuts
    cases hmove : s.move? sep t with
    | none => exact fun m hm => nomatch hm
    | some move =>
      intro m hm
      rcases List.mem_append.mp hm with hm | hm
      · cases move with
        | pass y => cases hm
        | resync y => cases hm
        | cut m' =>
          obtain rfl : m = m' := List.mem_singleton.mp hm
          exact hgood s m hs hmove
      · exact ih (hinv s move hs hmove) m hm

/-- The separators at which a state is cut in its next `steps` moves, counted in a text of `n`
characters that has the end of its text. -/
def State.cuts (sep : Pattern) (o : Options) (n : Nat) : (steps : Nat) → State → List Match
  | 0, _ => []
  | steps + 1, s =>
    match s.scan.move? sep s.text with
    | none => []
    | some move =>
      (move.separator?.map (·.recount n s.text.length)).toList ++
        (s.apply o move).cuts sep o n steps

/-- The separators at which the lexer cuts `code`, counted in `code`. -/
def cuts (sep : Pattern) (o : Options) (code : Text) : List Match :=
  State.cuts sep o code.length (stepBound code.length) { text := code }

/-- The state has the text `d` in front of what is left of `code` from index `p` on, and its scan is
`a`, which counts in `code`. -/
structure Tracks (code d : Text) (p : Nat) (s : State) (a : Scan) : Prop where
  text_eq : s.text = d ++ code.drop p
  le : p ≤ code.length
  scan_eq : ∃ s₀ : Scan, s.scan = s₀.shift d.length ∧ a = s₀.shift p

namespace Tracks

variable {sep : Pattern} {o : Options} {code d : Text} {p : Nat} {s : State} {a : Scan}

theorem start (code : Text) : Tracks code [] 0 { text := code } {} :=
  ⟨rfl, Nat.zero_le _, {}, rfl, rfl⟩

/-- The next move, counted in the text of the state, in `code` and in what lies between. -/
theorem move?_eq (sep : Pattern) (h : Tracks code d p s a) :
    ∃ next : Option Move, s.scan.move? sep s.text = next.map (Move.shift d.length) ∧
      a.move? sep code = next.map (Move.shift p) := by
  obtain ⟨s₀, hs, ha⟩ := h.scan_eq
  refine ⟨s₀.move? sep (code.drop p), ?_, ?_⟩
  · rw [hs, h.text_eq, Scan.move?_append]
  · have hp : (code.take p).length = p := List.length_take_of_le h.le
    have := Scan.move?_append sep (code.take p) (code.drop p) s₀
    rwa [List.take_append_drop, hp, ← ha] at this

/-- After a cut, what is carried stands in front of what comes after the separator. -/
theorem after_cut (h : Tracks code d p s a) (m : Match) (hm : p + m.stop ≤ code.length) :
    Tracks code (o.carried m) (p + m.stop) (s.apply o (.cut (m.shift d.length)))
      (a.after (.cut (m.shift p))) := by
  rw [← o.carried_shift d.length]
  refine ⟨?_, hm, .startAt 0, rfl, ?_⟩
  · show o.carried (m.shift d.length) ++ s.text.drop (m.shift d.length).stop = _
    rw [h.text_eq, Match.shift_stop, List.drop_length_add_append, List.drop_drop]
  · exact congrArg Scan.startAt (Match.shift_stop p m)

theorem after_of_not_cut (h : Tracks code d p s a) (move : Move) (hm : move.separator? = none) :
    Tracks code d p (s.apply o (move.shift d.length)) (a.after (move.shift p)) := by
  obtain ⟨s₀, hs, ha⟩ := h.scan_eq
  cases move with
  | pass y =>
    refine ⟨h.text_eq, h.le, s₀.after (.pass y), ?_, ?_⟩
    · rw [← Scan.after_shift, ← hs]; rfl
    · rw [← Scan.after_shift, ← ha]
  | resync y => exact ⟨h.text_eq, h.le, .startAt y.stop, rfl, rfl⟩
  | cut m => cases hm

end Tracks

end RegexText.Lexer
