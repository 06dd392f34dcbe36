import RegexText.Proofs.Lexer.Segments
import RegexText.Proofs.Nesting.Place

/-!
# Cuts outside brackets and quotes

A scan that starts where nothing is open keeps up with the reading of the text from its start
(`Scan.Synced`), as long as it meets no malformed mark and does not give up what is open. Neither
happens before a `Horizon`, a place where nothing is open and past which no mark is examined that
comes before the next separator. Up to the horizon, then, every cut lies outside all brackets and
quotes (`Horizon.cut`), and after the horizon the scan does not come back to it (`Horizon.after`),
whatever follows.
-/

namespace RegexText

/-- No match of the separator in `t` has a bracket, a quote mark or a backslash. -/
def Pattern.AvoidsMarks (sep : Pattern) (t : Text) : Prop :=
  ∀ i m, sep.matchFirst t i = some m → ∀ c ∈ m.text, Nesting.isPairing c = false ∧ c ≠ '\\'

namespace Lexer

open Nesting

variable {sep : Pattern} {t : Text} {s : Scan} {m : Match} {y : Nesting.Symbol} {k : Nat}

/-! ## Separators without marks -/

theorem mem_slice {i j q : Nat} {c : Char} (hi : i ≤ q) (hj : q < j) (hq : t[q]? = some c) :
    c ∈ t.slice i j := by
  refine List.mem_of_getElem? (i := q - i) ?_
  rw [Text.slice, List.getElem?_take_of_lt (by omega), List.getElem?_drop, Nat.add_sub_cancel' hi,
    hq]

/-- A separator without marks and a mark with its backslashes share no character. -/
theorem apart_of_avoidsMarks (hsep : sep.AvoidsMarks t) (hm : s.nextSeparator? sep t = some m)
    (hf : s.floor ≤ s.offset) {i q : Nat} (hy : nextSymbol? t i = some y) (hq : m.index ≤ q)
    (hq' : q < m.stop) : q < y.start ∨ y.stop ≤ q := by
  by_cases hin : y.start ≤ q ∧ q < y.stop
  · obtain ⟨c, hc, hmark⟩ := char_of_nextSymbol? hy hin.1 hin.2
    obtain ⟨j, hj⟩ := Scan.nextSeparator?_found hm
    have hmem := mem_slice hq hq' hc
    rw [← (Scan.nextSeparator?_placed hm hf).1.text_eq] at hmem
    obtain ⟨h₁, h₂⟩ := hsep j m hj c hmem
    rcases hmark with hmark | hmark
    · rw [h₁] at hmark; cases hmark
    · exact absurd hmark h₂
  · omega

/-- A separator that does not start after a mark ends before it. -/
theorem stop_le_start (hsep : sep.AvoidsMarks t) (hm : s.nextSeparator? sep t = some m)
    (hf : s.floor ≤ s.offset) {i : Nat} (hy : nextSymbol? t i = some y) (hle : m.index ≤ y.start) :
    m.stop ≤ y.start := by
  refine Nat.le_of_not_lt fun hlt => ?_
  have := (nextSymbol?_bounds hy).2.1
  rcases apart_of_avoidsMarks hsep hm hf hy hle hlt with h | h <;> omega

/-- A separator that starts after a mark does so after the whole of it, unless it is empty. -/
theorem stop_le_index (hsep : sep.AvoidsMarks t) (hm : s.nextSeparator? sep t = some m)
    (hf : s.floor ≤ s.offset) {i : Nat} (hy : nextSymbol? t i = some y) (hlt : y.start < m.index)
    (hne : m.index < m.stop) : y.stop ≤ m.index := by
  rcases apart_of_avoidsMarks hsep hm hf hy (Nat.le_refl _) hne with h | h
  · exact absurd (Nat.lt_trans h hlt) (Nat.lt_irrefl _)
  · exact h

/-! ## Keeping up with the reading -/

/-- The scan has read what the text is read as from its start. -/
structure Scan.Synced (t : Text) (s : Scan) : Prop where
  heeds : s.malformed = false
  stack_eq : (place t s.offset).stack = s.stack
  sound : (place t s.offset).malformed = false
  settled : (place t s.offset).Settled (t.drop s.offset)

/-- The match lies where nothing is open, and a place is settled behind it. -/
structure Outside (t : Text) (m : Match) : Prop where
  stack_eq : ∀ i, m.index ≤ i → i ≤ m.stop → (place t i).stack = []
  sound : (place t m.stop).malformed = false
  settled : (place t m.stop).Settled (t.drop m.stop)

namespace Scan.Synced

theorem start (t : Text) : ({} : Scan).Synced t :=
  ⟨rfl, congrArg Place.stack (place_zero t), congrArg Place.malformed (place_zero t),
    .inl (congrArg Place.slashes (place_zero t))⟩

/-- The scan keeps up with the reading past a mark that is not malformed. -/
theorem pass (h : s.Synced t) (hy : nextSymbol? t s.offset = some y)
    (hsound : (place t y.stop).malformed = false) :
    (s.pass y).Synced t ∧ (s.pass y).offset = y.stop := by
  have hplace := place_pass h.settled hy
  rw [h.stack_eq, h.sound] at hplace
  cases he : y.escaped with
  | true =>
    rw [he, if_pos rfl] at hplace
    rw [pass_of_escaped he]
    refine ⟨⟨h.heeds, ?_, hsound, .inl ?_⟩, rfl⟩ <;> rw [hplace]
    exact h.stack_eq
  | false =>
    rw [he, if_neg Bool.false_ne_true] at hplace
    have ho : (s.stack.observe y.char).1 ≠ .malformed := by
      intro ho
      rw [hplace, ho] at hsound
      cases hsound
    rw [pass_of_ne_malformed he ho]
    refine ⟨⟨h.heeds, ?_, hsound, .inl ?_⟩, rfl⟩ <;> rw [hplace]

/-- A separator without marks that comes before the next mark lies outside brackets and quotes. -/
theorem outside (h : s.Synced t) (hf : s.floor ≤ s.offset) (hsep : sep.AvoidsMarks t)
    (hnil : s.stack = []) (hm : s.nextSeparator? sep t = some m)
    (hfirst : ∀ y, nextSymbol? t s.offset = some y → m.index ≤ y.start) : Outside t m := by
  obtain ⟨hplaced, -⟩ := nextSeparator?_placed hm hf
  have hlo := hplaced.lo_le
  have hle := hplaced.index_le
  have hsame : ∀ i, s.offset ≤ i → i ≤ m.stop →
      (place t i).stack = [] ∧ (place t i).malformed = false ∧ (place t i).Settled (t.drop i) := by
    intro i hi hstop
    cases hy : nextSymbol? t s.offset with
    | none =>
      obtain ⟨h₁, h₂⟩ := place_none hy hi
      exact ⟨by rw [h₁, h.stack_eq, hnil], by rw [h₂, h.sound], settled_of_none hy hi⟩
    | some y =>
      have hstart := stop_le_start hsep hm hf hy (hfirst y hy)
      have hlt := (nextSymbol?_bounds hy).2.1
      obtain ⟨h₁, h₂⟩ := place_before hy hi (by omega : i < y.stop)
      exact ⟨by rw [h₁, h.stack_eq, hnil], by rw [h₂, h.sound],
        settled_before h.settled hy hi (by omega)⟩
  obtain ⟨-, hsound, hsettled⟩ := hsame m.stop (by omega) (Nat.le_refl _)
  exact ⟨fun i hi hstop => (hsame i (by omega) hstop).1, hsound, hsettled⟩

end Scan.Synced

theorem Outside.synced (h : Outside t m) (hle : m.index ≤ m.stop) :
    (Scan.startAt m.stop).Synced t :=
  ⟨rfl, h.stack_eq m.stop hle (Nat.le_refl _), h.sound, h.settled⟩

/-! ## Up to a horizon -/

/-- A place where nothing is open and no malformed mark has been met, and past which a scan that has
not come past it examines no mark before a separator. -/
structure Horizon (sep : Pattern) (t : Text) (k : Nat) : Prop where
  stack_eq : (place t k).stack = []
  sound : (place t k).malformed = false
  bars : ∀ (s : Scan) m y, s.floor ≤ s.offset → s.offset ≤ k → s.nextSeparator? sep t = some m →
    nextSymbol? t s.offset = some y → y.start < m.index → y.stop ≤ k

/-- The scan is past the horizon and does not go back to it, or it has not come past it and keeps up
with the reading. -/
structure Scan.Safe (t : Text) (k : Nat) (s : Scan) : Prop where
  inside : s.Inside t.length
  before_or_past : (s.offset ≤ k ∧ s.Synced t) ∨ k ≤ s.floor

/-- A scan never goes back before its floor. -/
theorem Scan.floor_le_after {move : Move} (hs : s.Inside t.length) (h : s.move? sep t = some move) :
    s.floor ≤ (s.after move).floor := by
  cases move with
  | pass y => exact Nat.le_of_eq (pass_floor s y).symm
  | resync y => exact Nat.le_of_lt (floor_lt_of_resync h)
  | cut m => exact Nat.le_of_lt (nextSeparator?_placed (separator_of_cut h) hs.floor_le).2

namespace Horizon

/-- A mark that is met where something is open ends before the horizon, and there is one. -/
theorem inside (hk : Horizon sep t k) (h : s.Synced t) (hle : s.offset ≤ k) (hne : s.stack ≠ []) :
    ∃ y, nextSymbol? t s.offset = some y ∧ y.stop ≤ k := by
  cases hy : nextSymbol? t s.offset with
  | none =>
    have hstack := (place_none hy hle).1
    rw [hk.stack_eq, h.stack_eq] at hstack
    exact absurd hstack.symm hne
  | some y =>
    refine ⟨y, rfl, Nat.le_of_not_lt fun hlt => ?_⟩
    have hstack := (place_before hy hle hlt).1
    rw [hk.stack_eq, h.stack_eq] at hstack
    exact absurd hstack.symm hne

/-- What a scan that keeps up with the reading does before the horizon: it goes past a mark, which
is before the next separator if nothing is open, and not past the horizon, or it cuts outside
brackets and quotes. -/
theorem move (hk : Horizon sep t k) (hsep : sep.AvoidsMarks t) (hf : s.floor ≤ s.offset)
    (h : s.Synced t) (hle : s.offset ≤ k) {move : Move} (hmove : s.move? sep t = some move) :
    (∃ y, move = .pass y ∧ nextSymbol? t s.offset = some y ∧ y.stop ≤ k ∧
        (s.stack = [] → ∃ m, s.nextSeparator? sep t = some m ∧ y.start < m.index)) ∨
      ∃ m, move = .cut m ∧ Outside t m := by
  rcases (Scan.makes_of_move? hmove).2 with ⟨hb, -⟩ | ⟨-, hmakes⟩
  · rw [h.heeds] at hb
    cases hb
  cases hmakes with
  | inside hne hy =>
    obtain ⟨y', hy', hstop⟩ := hk.inside h hle hne
    rw [hy, Option.some.injEq] at hy'
    exact .inl ⟨_, rfl, hy, hy' ▸ hstop, fun hnil => absurd hnil hne⟩
  | outside hnil hy hm hlt =>
    exact .inl ⟨_, rfl, hy, hk.bars s _ _ hf hle hm hy hlt, fun _ => ⟨_, hm, hlt⟩⟩
  | resync hne hnone =>
    obtain ⟨y', hy', -⟩ := hk.inside h hle hne
    rw [hnone] at hy'
    cases hy'
  | cut hnil hm hfirst => exact .inr ⟨_, rfl, h.outside hf hsep hnil hm hfirst⟩

/-- A move keeps a scan safe. -/
theorem after (hk : Horizon sep t k) (hsep : sep.AvoidsMarks t) (h : s.Safe t k) {move : Move}
    (hmove : s.move? sep t = some move) : (s.after move).Safe t k := by
  refine ⟨(Scan.potential_after_lt h.inside hmove).1, ?_⟩
  rcases h.before_or_past with ⟨hle, hs⟩ | hpast
  · rcases hk.move hsep h.inside.floor_le hs hle hmove with ⟨y, rfl, hy, hstop, -⟩ | ⟨m, rfl, hm⟩
    · obtain ⟨hsync, hoffset⟩ := hs.pass hy (malformed_place_of_le hstop hk.sound)
      exact .inl ⟨hoffset ▸ hstop, hsync⟩
    · have hplaced := (Scan.nextSeparator?_placed (Scan.separator_of_cut hmove) h.inside.floor_le).1
      rcases Nat.le_total m.stop k with hstop | hstop
      · exact .inl ⟨hstop, hm.synced hplaced.index_le⟩
      · exact .inr hstop
  · exact .inr (Nat.le_trans hpast (Scan.floor_le_after h.inside hmove))

/-- A safe scan cuts outside brackets and quotes, or past the horizon. -/
theorem cut (hk : Horizon sep t k) (hsep : sep.AvoidsMarks t) (h : s.Safe t k)
    (hmove : s.move? sep t = some (.cut m)) : Outside t m ∨ k ≤ m.index := by
  rcases h.before_or_past with ⟨hle, hs⟩ | hpast
  · rcases hk.move hsep h.inside.floor_le hs hle hmove with ⟨y, hcut, -⟩ | ⟨m', hcut, hm⟩
    · cases hcut
    · cases hcut
      exact .inl hm
  · have hplaced := (Scan.nextSeparator?_placed (Scan.separator_of_cut hmove) h.inside.floor_le).1
    have hlo := hplaced.lo_le
    have hfloor := h.inside.floor_le
    exact .inr (by omega)

/-- Every cut of the lexer lies outside brackets and quotes, or past the horizon. -/
theorem cuts (hk : Horizon sep t k) (hsep : sep.AvoidsMarks t) (o : Options) :
    ∀ m ∈ cuts sep o t, Outside t m ∨ k ≤ m.index := by
  rw [cuts_eq]
  refine Scan.forall_cuts (Scan.Safe t k) (fun s move hs hmove => hk.after hsep hs hmove)
    (fun s m hs hmove => hk.cut hsep hs hmove) ?_ _
  exact ⟨Scan.inside_start _, .inl ⟨Nat.zero_le k, .start t⟩⟩

end Horizon

/-! ## Balanced texts -/

/-- The end of a balanced text is a horizon. -/
theorem horizon_of_balanced (h : Balanced t) (sep : Pattern) : Horizon sep t t.length where
  stack_eq := h.1
  sound := h.2
  bars _ _ _ _ _ _ hy _ := (nextSymbol?_bounds hy).2.2

/-- In a balanced text every cut lies outside brackets and quotes. -/
theorem outside_of_balanced (hsep : sep.AvoidsMarks t) (h : Balanced t) (o : Options) :
    ∀ m ∈ cuts sep o t, Outside t m := by
  intro m hm
  rcases (horizon_of_balanced h sep).cuts hsep o m hm with hout | hpast
  · exact hout
  · rw [cuts_eq] at hm
    obtain ⟨i, hi⟩ := Scan.found_cuts _ _ _ _ m hm
    have hplaced := Pattern.matchFirst_placed hi
    have hle := hplaced.index_le
    have hstop : m.stop = t.length := Nat.le_antisymm hplaced.stop_le (Nat.le_trans hpast hle)
    refine ⟨fun j hj hjstop => ?_, hstop ▸ h.2, .inr fun n c u hu => ?_⟩
    · obtain rfl : j = t.length := by omega
      exact h.1
    · rw [hstop, List.drop_length] at hu
      exact absurd hu.symm (by simp)

/-- Cut outside brackets and quotes, a balanced text comes in balanced pieces. -/
theorem balanced_pieces (h : Balanced t) {i : Nat} {ms : List Match} (hlaid : Laid t i ms)
    (hms : ∀ m ∈ ms, Outside t m) (hopen : (place t i).stack = []) (hi : i ≤ t.length)
    (hs : (place t i).Settled (t.drop i)) :
    ∀ piece ∈ (Segmentation.ofMatches t i ms).pieces, Balanced piece := by
  induction ms generalizing i with
  | nil =>
    intro piece hpiece
    obtain rfl : piece = t.drop i := List.mem_singleton.mp hpiece
    have := balanced_slice hi hs hopen h.1 h.2
    rwa [Text.slice, List.take_of_length_le (Nat.le_of_eq List.length_drop)] at this
  | cons m ms ih =>
    obtain ⟨hm, hlater⟩ := hlaid
    obtain ⟨hout, houts⟩ := List.forall_mem_cons.mp hms
    have hstart := hout.stack_eq m.index (Nat.le_refl _) hm.index_le
    have hsound := malformed_place_of_le hm.index_le hout.sound
    have hrest := ih hlater houts (hout.stack_eq m.stop hm.index_le (Nat.le_refl _)) hm.stop_le
      hout.settled
    intro piece hpiece
    rcases List.mem_cons.mp hpiece with rfl | hpiece
    · exact balanced_slice hm.lo_le hs hopen hstart hsound
    · exact hrest piece hpiece

end Lexer

end RegexText
