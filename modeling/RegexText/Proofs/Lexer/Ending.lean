import RegexText.Proofs.Lexer.OnePass

/-!
# What a text ends on

Text at the end of another is `Inert` if it has no marks and leaves the separators where they are. A
scan that has not come to the end makes the same move with it as without it
(`Scan.move?_append_inert`), so the longer text is cut where the shorter one is, and then perhaps
further on (`Scan.cuts_append_inert`).

It is cut further on only if the lexer stops with something open. What is open is given up where no
mark is left, but only before the end of a text. So a text that ends on a mark can leave it open,
and then it matters whether something inert comes (`not_forall_pieces_append_inert`). A text that
ends on anything else leaves nothing open (`getLast?_of_lastScan_open`).

The main statement is `pieces_append_inert`.
-/

namespace RegexText.Lexer

open Nesting

variable {sep : Pattern} {o : Options} {code d t w : Text} {p : Nat} {s a : Scan} {st : State}

/-- The text `w` has no marks, and where it comes after `t` the separator is found where it was. -/
structure Inert (sep : Pattern) (t w : Text) : Prop where
  plain : ∀ c ∈ w, isPairing c = false
  matchFirst_eq : ∀ i, sep.matchFirst (t ++ w) i = sep.matchFirst t i

theorem inert_literal {l : Text} (hl : l ≠ []) (hw : ∀ c ∈ w, isPairing c = false ∧ c ∉ l)
    (t : Text) : Inert (.literal l) t w :=
  ⟨fun c hc => (hw c hc).1, Pattern.matchFirst_literal_append hl (fun c hc => (hw c hc).2) t⟩

namespace Scan

/-- Something is open, and the scan heeds that. -/
structure Open (s : Scan) : Prop where
  heeds : s.malformed = false
  stack_ne : s.stack ≠ []

/-- With and without inert text at the end a scan makes the same move, unless it is at the end of
the shorter text with something open. -/
theorem move?_append_inert (h : Inert sep t w) (hs : s.offset < t.length ∨ ¬ s.Open) :
    s.move? sep (t ++ w) = s.move? sep t := by
  have hsep : s.nextSeparator? sep (t ++ w) = s.nextSeparator? sep t := by
    simp only [nextSeparator?, h.matchFirst_eq]
  have hmark (i : Nat) := nextSymbol?_append_plain h.plain t i
  have hinside : s.moveInside? (t ++ w) = s.moveInside? t := by simp only [moveInside?, hmark]
  have houtside : s.moveOutside? sep (t ++ w) = s.moveOutside? sep t := by
    simp only [moveOutside?, hsep, hmark]
  unfold move?
  rw [hsep, hinside, houtside, List.length_append]
  rcases Nat.lt_or_ge s.offset t.length with hlt | hge
  · rw [if_neg (Nat.not_le.mpr hlt), if_neg (by omega)]
  · have hopen : ¬ s.Open := hs.resolve_left (Nat.not_lt.mpr hge)
    have hnone : s.nextSeparator? sep t = none := nextSeparator?_of_length_le hge
    rw [if_pos hge]
    split
    · rfl
    split
    · rw [hnone]
      rfl
    · rename_i hb
      have hnil : s.stack = [] := Decidable.byContradiction fun hne =>
        hopen ⟨Bool.not_eq_true _ ▸ hb, hne⟩
      rw [hnil, moveOutside?, hnone]
      rfl

theorem cuts_of_move?_eq_none (h : s.move? sep t = none) (steps : Nat) :
    s.cuts sep t steps = [] := by
  cases steps with
  | zero => rfl
  | succ steps => rw [cuts, h]

/-- With inert text at the end a scan cuts where it does without, and then goes on from where it
comes to without. -/
theorem cuts_append_inert (h : Inert sep t w) {steps more : Nat} (hle : steps ≤ more) (s : Scan) :
    ∃ n, s.cuts sep (t ++ w) more =
      s.cuts sep t steps ++ (s.run sep t steps).cuts sep (t ++ w) n := by
  induction steps generalizing s more with
  | zero => exact ⟨more, rfl⟩
  | succ steps ih =>
    unfold run
    rw [cuts]
    cases hmove : s.move? sep t with
    | none => exact ⟨more, rfl⟩
    | some move =>
      cases more with
      | zero => cases hle
      | succ more =>
        have hlt := (makes_of_move? hmove).1
        obtain ⟨n, hn⟩ := ih (Nat.le_of_succ_le_succ hle) (s.after move)
        refine ⟨n, ?_⟩
        rw [cuts, move?_append_inert h (.inl hlt), hmove, List.append_assoc, ← hn]

/-- Where something is open, the scan is just behind a mark that comes after its floor. -/
def BehindMark (t : Text) (s : Scan) : Prop :=
  s.Open → s.floor < s.offset ∧ ∃ c, t[s.offset - 1]? = some c ∧ isPairing c = true

theorem behindMark_pass {y : Nesting.Symbol} (hf : s.floor ≤ s.offset)
    (hy : nextSymbol? t s.offset = some y) : (s.pass y).BehindMark t := by
  obtain ⟨hstart, hstop, -⟩ := nextSymbol?_bounds hy
  intro hopen
  rcases pass_cases s y with he | ⟨stack, he⟩
  · have hb := hopen.heeds
    rw [he] at hb
    cases hb
  · rw [he]
    exact ⟨by show s.floor < y.stop; omega, y.char, getElem?_of_nextSymbol? hy⟩

theorem behindMark_startAt (i : Nat) : (startAt i).BehindMark t :=
  fun hopen => absurd rfl hopen.stack_ne

/-- Every move leads behind a mark, or to where nothing is open or nesting is disregarded. -/
theorem behindMark_after {move : Move} (hs : s.Inside t.length) (h : s.move? sep t = some move) :
    (s.after move).BehindMark t := by
  rcases (makes_of_move? h).2 with ⟨-, m, rfl, -⟩ | ⟨-, hmakes⟩
  · exact behindMark_startAt m.stop
  cases hmakes with
  | inside _ hy => exact behindMark_pass hs.floor_le hy
  | outside _ hy => exact behindMark_pass hs.floor_le hy
  | resync _ _ _ => exact behindMark_startAt _
  | cut _ _ _ => exact behindMark_startAt _

/-- A scan that makes no more move with something open is at the end of the text, behind a mark. -/
theorem getLast?_of_open (hs : s.Inside t.length) (hmark : s.BehindMark t) (hopen : s.Open)
    (hend : s.move? sep t = none) : ∃ c, t.getLast? = some c ∧ isPairing c = true := by
  obtain ⟨hfloor, c, hc, hpair⟩ := hmark hopen
  refine ⟨c, ?_, hpair⟩
  rcases ends_of_move? hopen.heeds hend with hle | ⟨hnil, -⟩ | ⟨-, -, hnone⟩
  · have hlast : s.offset = t.length := Nat.le_antisymm hs.offset_le hle
    rw [List.getLast?_eq_getElem?, ← hlast, hc]
  · exact absurd hnil hopen.stack_ne
  · -- What is open was opened after the floor, so a mark is left there.
    have hmem : c ∈ t.drop s.floor := by
      refine List.mem_of_getElem? (i := s.offset - 1 - s.floor) ?_
      rw [List.getElem?_drop, Nat.add_sub_cancel' (by omega), hc]
    have hplain := nextSymbol?_none hnone c hmem
    rw [hpair] at hplain
    cases hplain

end Scan

/-! ## Where the lexer stops -/

/-- The scan at which the lexer stops. -/
def lastScan (sep : Pattern) (o : Options) (code : Text) : Scan :=
  (State.run sep o (stepBound code.length) { text := code }).scan

/-- The pieces of `code` between the separators at which the lexer cuts, empty ones too. -/
def pieces (sep : Pattern) (o : Options) (code : Text) : List Text :=
  (Segmentation.ofMatches code 0 (cuts sep o code)).pieces

theorem Tracks.open_iff (h : Tracks code d p st a) : st.scan.Open ↔ a.Open := by
  obtain ⟨s₀, hs, ha⟩ := h.scan_eq
  rw [hs, ha]
  exact ⟨fun hopen => ⟨hopen.heeds, hopen.stack_ne⟩, fun hopen => ⟨hopen.heeds, hopen.stack_ne⟩⟩

theorem lastScan_open_iff (sep : Pattern) (o : Options) (code : Text) :
    (lastScan sep o code).Open ↔ (({} : Scan).run sep code (stepBound code.length)).Open := by
  obtain ⟨d, p, h⟩ := (Tracks.start code).run sep o (Scan.inside_start _) (stepBound code.length)
  exact h.open_iff

/-- A lexer that stops with something open has come to a mark at the end of the text. -/
theorem getLast?_of_lastScan_open (h : (lastScan sep o code).Open) :
    ∃ c, code.getLast? = some c ∧ isPairing c = true := by
  have hlast : (({} : Scan).run sep code (stepBound code.length)).Inside code.length ∧
      (({} : Scan).run sep code (stepBound code.length)).BehindMark code :=
    Scan.run_keeps (fun s => s.Inside code.length ∧ s.BehindMark code)
      (fun s move hs hmove =>
        ⟨(Scan.potential_after_lt hs.1 hmove).1, Scan.behindMark_after hs.1 hmove⟩)
      ⟨Scan.inside_start _, Scan.behindMark_startAt 0⟩ _
  exact Scan.getLast?_of_open hlast.1 hlast.2 ((lastScan_open_iff sep o code).mp h)
    (Scan.run_start_move?_eq_none sep code)

/-- Inert text at the end of `code` leaves the cuts of `code` as they are, and adds none unless the
lexer of `code` stops with something open. -/
theorem cuts_append_inert (h : Inert sep code w) (o : Options) :
    cuts sep o code <+: cuts sep o (code ++ w) ∧
      (¬ (lastScan sep o code).Open → cuts sep o (code ++ w) = cuts sep o code) := by
  have hbound : stepBound code.length ≤ stepBound (code ++ w).length :=
    stepBound_mono (by rw [List.length_append]; omega)
  obtain ⟨n, hn⟩ := Scan.cuts_append_inert h hbound {}
  rw [cuts_eq, cuts_eq, hn]
  refine ⟨List.prefix_append _ _, fun hopen => ?_⟩
  rw [lastScan_open_iff] at hopen
  have hend := Scan.run_start_move?_eq_none sep code
  have hmore := (Scan.move?_append_inert h (.inr hopen)).trans hend
  rw [Scan.cuts_of_move?_eq_none hmore, List.append_nil]

/-- Text that has no marks and no character of the separator leaves the cuts of the text that it
comes after as they are. It only lengthens the last piece, unless the lexer stops with something
open, which it does only behind a mark at the end. -/
theorem pieces_append_inert {l : Text} (hl : l ≠ []) (hw : ∀ c ∈ w, isPairing c = false ∧ c ∉ l)
    (o : Options) (code : Text) :
    cuts (.literal l) o code <+: cuts (.literal l) o (code ++ w) ∧
      (¬ (lastScan (.literal l) o code).Open →
        cuts (.literal l) o (code ++ w) = cuts (.literal l) o code ∧
          pieces (.literal l) o (code ++ w) =
            (pieces (.literal l) o code).modifyLast (· ++ w)) ∧
      ((∀ c, code.getLast? = some c → isPairing c = false) →
        ¬ (lastScan (.literal l) o code).Open) := by
  obtain ⟨hkeeps, hsame⟩ := cuts_append_inert (inert_literal hl hw code) o
  refine ⟨hkeeps, fun hopen => ⟨hsame hopen, ?_⟩, fun hlast hopen => ?_⟩
  · rw [pieces, hsame hopen]
    exact Segmentation.pieces_append (laid_cuts _ o code) (Nat.zero_le _) w
  · obtain ⟨c, hc, hpair⟩ := getLast?_of_lastScan_open hopen
    rw [hlast c hc] at hpair
    cases hpair

theorem pieces_append_inert_unclosed :
    [','] ≠ [] ∧ (∀ c ∈ ['x'], isPairing c = false ∧ c ∉ [',']) ∧
      (∀ c, "a,(b,(c".toList.getLast? = some c → isPairing c = false) ∧
      pieces (.literal [',']) {} "a,(b,(cx".toList =
        (pieces (.literal [',']) {} "a,(b,(c".toList).modifyLast (· ++ ['x']) := by
  have hw : ∀ c ∈ ['x'], isPairing c = false ∧ c ∉ [','] :=
    List.forall_mem_singleton.mpr (by decide)
  obtain ⟨-, hsame, hclosed⟩ := pieces_append_inert (by decide) hw {} "a,(b,(c".toList
  have hlast : ∀ c, "a,(b,(c".toList.getLast? = some c → isPairing c = false := by
    intro c hc
    obtain rfl : 'c' = c := Option.some.inj hc
    decide
  exact ⟨by decide, hw, hlast, (hsame (hclosed hlast)).2⟩

/-- Behind a mark at the end of a text it matters whether something comes: what is open is given up
only before the end. -/
theorem not_forall_pieces_append_inert :
    ¬ ∀ (l w code : Text), l ≠ [] → (∀ c ∈ l, isPairing c = false ∧ c ≠ '\\') → w ≠ [] →
      (∀ c ∈ w, isPairing c = false ∧ c ≠ '\\' ∧ c ∉ l) →
        pieces (.literal l) {} (code ++ w) = (pieces (.literal l) {} code).modifyLast (· ++ w) := by
  intro h
  have hw : ∀ c ∈ ['x'], isPairing c = false ∧ c ≠ '\\' ∧ c ∉ [','] :=
    List.forall_mem_singleton.mpr (by decide)
  have heq := h [','] ['x'] "a,(b,(".toList (by decide) comma_plain (by decide) hw
  exact absurd heq (by decide +kernel)

end RegexText.Lexer
