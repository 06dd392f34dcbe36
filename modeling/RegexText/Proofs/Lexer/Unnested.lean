import Mathlib.Data.List.Chain
import Mathlib.Data.List.TakeDrop
import RegexText.Proofs.Lexer.OnePass
import RegexText.Proofs.Pattern.Occurrences

/-!
# Texts without marks

In a text without brackets and quotes nothing is ever open, so the lexer goes from one separator to
the next (`Scan.cuts_of_some`). Where the separator is a text that is not empty, its cuts are the
matches of a walk along that text (`Scan.yields_cuts`), at which `Pattern.explode` cuts too. At the
empty separator the lexer cuts between any two characters only (`Scan.cuts_literal_nil`), and
`explode` also at both ends of the text, where nothing is cut off but empty tokens.

Cut at the same matches, a text has the same tokens under every policy but one: the separator that
ends the token before it. For `explode` that is the latest token, even if no text stands between two
separators, and for the lexer the latest piece (`Segmentation.filter_exploded_withPrevious`).

The main statement is `literal_splitters_agree`.
-/

namespace RegexText

variable {t : Text} {i : Nat} {ms : List Match} {policy : SeparatorPolicy} {trim : TrimSet}

/-! ## What the policies have in common -/

/-- No match begins where the one before it ends. -/
def NoneAdjacent (ms : List Match) : Prop :=
  ms.IsChain fun m next => m.stop ≠ next.index

instance (ms : List Match) : Decidable (NoneAdjacent ms) :=
  inferInstanceAs (Decidable (List.IsChain _ ms))

theorem noneAdjacent_emptyAt (k n : Nat) : NoneAdjacent ((List.range' k n).map .emptyAt) := by
  rw [NoneAdjacent, List.isChain_map]
  refine (List.isChain_range' k n 1).imp fun i j (hnext : j = i + 1) => ?_
  show i ≠ j
  omega

namespace Segmentation

/-- Where text stands between any two separators, each of them ends the token of the piece before
it. -/
theorem filter_exploded_withPrevious (h : Laid t i ms) (hms : NoneAdjacent ms) :
    ((ofMatches t i ms).exploded .withPrevious trim).filter (!·.isEmpty) =
      ((ofMatches t i ms).tokens { policy := .withPrevious, trim }).filter (!·.isEmpty) := by
  induction ms generalizing i with
  | nil =>
    show [runToken trim (t.drop i, [])].filter _ = [trim.trim (t.drop i) ++ []].filter _
    rw [runToken_nil, List.append_nil]
  | cons m ms ih =>
    obtain ⟨hm, hlater⟩ := h
    have hruns : (ofMatches t i (m :: ms)).exploded .withPrevious trim =
        (runsAfter (t.slice i m.index) [m] (ofMatches t m.stop ms)).map (runToken trim) := rfl
    have htoken : trim.trim (t.slice i m.index) ++ trim.trim m.text =
        runToken trim (t.slice i m.index, [m]) := by
      rw [← List.nil_append [m], runToken_concat, runToken_nil]
    have htokens : (ofMatches t i (m :: ms)).tokens { policy := .withPrevious, trim } =
        (trim.trim (t.slice i m.index) ++ trim.trim m.text) ::
          (ofMatches t m.stop ms).tokens { policy := .withPrevious, trim } := rfl
    rw [hruns, htokens, htoken]
    by_cases hgap : (ofMatches t m.stop ms).head = []
    · cases ms with
      | nil =>
        -- The text ends with the separator.
        have hend : t.drop m.stop = [] := hgap
        rw [runsAfter_of_nil hgap]
        show [runToken trim _].filter _ =
          ([runToken trim _] ++ [trim.trim (t.drop m.stop) ++ []]).filter _
        rw [hend, List.filter_append]
        exact (List.append_nil _).symm
      | cons next ms =>
        -- Another separator follows, and there is text before it.
        have hlt := Nat.lt_of_le_of_ne hlater.1.lo_le (List.isChain_cons_cons.mp hms).1
        have hle := Nat.le_trans hlater.1.index_le hlater.1.stop_le
        exact absurd hgap (Cutting.slice_ne_nil hlt hle)
    · have hrest := ih hlater hms.tail
      rw [exploded] at hrest
      rw [runsAfter_of_ne_nil hgap, List.map_cons, List.filter_cons, List.filter_cons, hrest]

end Segmentation

namespace Lexer.Options

variable {m : Match}

theorem carried_of_text_nil (hm : m.text = []) : carried { policy, trim } m = [] := by
  cases policy with
  | withNext => exact hm
  | drop | alone | withPrevious => rfl

/-- An empty separator makes no token and adds nothing to one. -/
theorem filter_tokensAt_of_text_nil (hm : m.text = []) (u : Text) :
    (tokensAt { policy, trim } u m).filter (!·.isEmpty) = [trim.trim u].filter (!·.isEmpty) := by
  have hkept : trim.trim (display { policy, trim } m) = [] := by
    rw [display, hm, TrimSet.trim_nil]
  cases policy with
  | drop | withNext => rfl
  | alone =>
    show ([trim.trim u] ++ [trim.trim (display { policy := .alone, trim } m)]).filter _ = _
    rw [hkept, List.filter_append]
    exact List.append_nil _
  | withPrevious =>
    show [trim.trim u ++ trim.trim (display { policy := .withPrevious, trim } m)].filter _ = _
    rw [hkept, List.append_nil]

end Lexer.Options

namespace Segmentation

/-- What is kept of empty separators does not show. -/
theorem filter_tokens_of_text_nil (g : Segmentation) (h : ∀ m ∈ g.found, m.text = []) :
    (g.tokens { policy, trim }).filter (!·.isEmpty) = Text.trimmedNonempty trim g.pieces := by
  obtain ⟨u, tail⟩ := g
  rw [← Lexer.tokensFrom_eq]
  induction tail generalizing u with
  | nil => rfl
  | cons cut tail ih =>
    obtain ⟨m, piece⟩ := cut
    obtain ⟨hm, hlater⟩ : m.text = [] ∧ ∀ m ∈ (mk piece tail).found, m.text = [] :=
      List.forall_mem_cons.mp h
    rw [Lexer.Options.tokensFrom, List.filter_append, Lexer.Options.carried_of_text_nil hm,
      List.nil_append, ih piece hlater, Lexer.Options.filter_tokensAt_of_text_nil hm]
    exact (List.filter_append [trim.trim u] _).symm

end Segmentation

namespace Pattern

/-- The tokens of `explode` are those that the lexer would make at its matches. -/
theorem explode_eq_tokens (p : Pattern) (offset : Nat)
    (h : policy = .withPrevious → NoneAdjacent (p.matchesFrom t offset)) :
    p.explode policy trim t offset =
      ((Segmentation.ofMatches t 0 (p.matchesFrom t offset)).tokens { policy, trim }).filter
        (!·.isEmpty) := by
  rw [explode_eq_exploded]
  cases policy with
  | drop | alone | withNext => rfl
  | withPrevious =>
    have hlaid := (p.laid_matchesFrom t offset).mono (Nat.zero_le _)
    exact Segmentation.filter_exploded_withPrevious hlaid (h rfl)

end Pattern

namespace Lexer

open Nesting

variable {sep : Pattern} {l : Text} {m : Match}

/-! ## The cuts -/

namespace Scan

theorem move?_of_plain (h : ∀ c ∈ t, isPairing c = false) (sep : Pattern) (i : Nat) :
    (startAt i).move? sep t = ((startAt i).nextSeparator? sep t).map .cut := by
  have hnone : nextSymbol? t (startAt i).offset = none :=
    Symbol.scan_of_plain (fun c hc => h c (List.mem_of_mem_drop hc)) i 0
  unfold move?
  split
  · rename_i hend
    rw [nextSeparator?_of_length_le hend]
    rfl
  · show (startAt i).moveOutside? sep t = _
    simp only [moveOutside?, hnone]
    cases (startAt i).nextSeparator? sep t <;> rfl

/-- Without marks a scan ends where there is no separator. -/
theorem cuts_of_none (h : ∀ c ∈ t, isPairing c = false)
    (hm : (startAt i).nextSeparator? sep t = none) (steps : Nat) :
    (startAt i).cuts sep t steps = [] := by
  cases steps with
  | zero => rfl
  | succ steps => rw [cuts, move?_of_plain h, hm]; rfl

/-- Without marks a scan cuts at the next separator and starts anew behind it. -/
theorem cuts_of_some (h : ∀ c ∈ t, isPairing c = false)
    (hm : (startAt i).nextSeparator? sep t = some m) (steps : Nat) :
    (startAt i).cuts sep t (steps + 1) = m :: (startAt m.stop).cuts sep t steps := by
  rw [cuts, move?_of_plain h, hm]
  rfl

/-- The cuts at a text that is not empty are the matches of a walk along it. -/
theorem yields_cuts (h : ∀ c ∈ t, isPairing c = false) (hl : l ≠ []) (hi : i ≤ t.length)
    {steps : Nat} (hsteps : (startAt i).potential t.length < steps) :
    Walk.Yields t ⟨.literal l, i⟩ ((startAt i).cuts (.literal l) t steps) := by
  induction steps generalizing i with
  | zero => cases hsteps
  | succ steps ih =>
    have hnext := nextSeparator?_literal hl (startAt i) t
    cases hm : (Pattern.literal l).matchFirst t i with
    | none =>
      rw [cuts_of_none h (hnext.trans hm)]
      exact .done (Walk.next_of_none hm)
    | some m =>
      have hplaced := nextSeparator?_placed (hnext.trans hm) (Nat.le_refl i)
      have hlt := potential_startAt_lt hplaced.2 hplaced.1.stop_le
      have hlater : Walk.Yields t ⟨.literal l, m.resume⟩
          ((startAt m.stop).cuts (.literal l) t steps) := by
        rw [Pattern.literal_resume hl hm]
        exact ih hplaced.1.stop_le (by omega)
      rw [cuts_of_some h (hnext.trans hm)]
      exact .more (Walk.next_of_some hm) hlater

/-- An empty separator is found behind the next character, if there is another one behind it. -/
theorem nextSeparator?_literal_nil (t : Text) (i : Nat) :
    (startAt i).nextSeparator? (.literal []) t =
      if i + 1 < t.length then some (.emptyAt (i + 1)) else none := by
  have hlater : (Pattern.literal []).matchFirst t (i + 1) =
      if i + 1 < t.length then some (.emptyAt (i + 1)) else none := by
    split
    · rename_i hlt
      exact Pattern.matchFirst_literal_nil hlt
    · rename_i hend
      exact Pattern.matchFirst_of_length_le (Nat.le_of_not_lt hend)
  -- The empty match at the floor is passed over.
  have hskip : (Match.emptyAt i).index == (startAt i).floor &&
      (Match.emptyAt i).lastIndex.isNone := by
    simp [Match.emptyAt, startAt]
  unfold nextSeparator?
  rcases Nat.lt_or_ge i t.length with hlt | hge
  · have hfirst : (Pattern.literal []).matchFirst t (startAt i).offset = some (.emptyAt i) :=
      Pattern.matchFirst_literal_nil hlt
    simp only [hfirst, hskip, if_true]
    exact hlater
  · have hfirst : (Pattern.literal []).matchFirst t (startAt i).offset = none :=
      Pattern.matchFirst_of_length_le hge
    rw [hfirst, if_neg (by omega)]

/-- The cuts at the empty text are those behind each character but the last. -/
theorem cuts_literal_nil (h : ∀ c ∈ t, isPairing c = false) (hi : i ≤ t.length) {steps : Nat}
    (hsteps : (startAt i).potential t.length < steps) :
    (startAt i).cuts (.literal []) t steps =
      (List.range' (i + 1) (t.length - (i + 1))).map .emptyAt := by
  induction steps generalizing i with
  | zero => cases hsteps
  | succ steps ih =>
    have hnext := nextSeparator?_literal_nil t i
    split at hnext
    · rename_i hlt
      have hleft : t.length - (i + 1) = t.length - (i + 1 + 1) + 1 := by omega
      have hless : (startAt (i + 1)).potential t.length < (startAt i).potential t.length :=
        potential_startAt_lt (Nat.lt_succ_self i) (Nat.le_of_lt hlt)
      rw [cuts_of_some h hnext, hleft, List.range'_succ, List.map_cons]
      exact congrArg (_ :: ·) (ih (Nat.le_of_lt hlt) (Nat.lt_of_lt_of_le hless (by omega)))
    · rename_i hend
      rw [cuts_of_none h hnext, Nat.sub_eq_zero_of_le (by omega)]
      rfl

end Scan

/-- Between the cuts at the empty text stand the characters. -/
theorem pieces_cuts_literal_nil (h : ∀ c ∈ t, isPairing c = false) (hne : t ≠ []) (o : Options) :
    (Segmentation.ofMatches t 0 (cuts (.literal []) o t)).pieces = t.map fun c => [c] := by
  have hpos := List.length_pos_iff.mpr hne
  have hcuts : cuts (.literal []) o t = (List.range' 1 (t.length - 1)).map .emptyAt := by
    rw [cuts_eq]
    exact Scan.cuts_literal_nil h (Nat.zero_le _) (Scan.potential_start_lt _)
  have hlast : t.drop (t.length - 1) = [t.getLast hne] := List.drop_length_sub_one hne
  have hinit := Text.slice_append_drop t (Nat.zero_le (t.length - 1))
  rw [List.drop_zero] at hinit
  calc (Segmentation.ofMatches t 0 (cuts (.literal []) o t)).pieces
      = (t.slice 0 (t.length - 1)).map (fun c => [c]) ++ [t.drop (t.length - 1)] := by
        rw [hcuts]
        exact Pattern.pieces_emptyAt (Nat.zero_add _) (Nat.sub_le _ _)
    _ = (t.slice 0 (t.length - 1) ++ t.drop (t.length - 1)).map fun c => [c] := by
        rw [hlast, List.map_append]
        rfl
    _ = t.map fun c => [c] := by rw [hinit]

theorem cuts_literal (h : ∀ c ∈ t, isPairing c = false) (hl : l ≠ []) (o : Options) :
    cuts (.literal l) o t = (Pattern.literal l).matchesFrom t 0 := by
  have hcuts := Scan.yields_cuts h hl (Nat.zero_le t.length) (Scan.potential_start_lt _)
  have hfound := Pattern.yields_matchesFrom (p := .literal l) (Regex.neverEmpty_literal hl)
    (Regex.suffixStable_literal l) t 0
  rw [cuts_eq]
  exact hcuts.unique hfound

/-- At the empty separator the lexer leaves the characters, each trimmed. -/
theorem lex_literal_nil (h : ∀ c ∈ t, isPairing c = false) :
    lex (.literal []) { policy, trim } t =
      Text.trimmedNonempty trim (t.map fun c => [c]) := by
  have hcuts : ∀ m ∈ cuts (.literal []) { policy, trim } t, m.text = [] := by
    rw [cuts_eq]
    intro m hm
    obtain ⟨i, hi⟩ := Scan.found_cuts _ _ _ _ m hm
    exact Pattern.literal_text hi
  rw [lex_eq_tokens, Segmentation.filter_tokens_of_text_nil _ (by
    rwa [Segmentation.found_ofMatches])]
  by_cases hne : t = []
  · rw [hne]
    rfl
  · rw [pieces_cuts_literal_nil h hne]

theorem explode_literal_nil :
    (Pattern.literal []).explode policy trim t 0 =
      Text.trimmedNonempty trim (t.map fun c => [c]) := by
  have hfound := Pattern.matchesFrom_literal_nil t
  have hnone : NoneAdjacent ((Pattern.literal []).matchesFrom t 0) :=
    hfound ▸ noneAdjacent_emptyAt 0 _
  have hempty : ∀ m ∈ (Pattern.literal []).matchesFrom t 0, m.text = [] := by
    rw [hfound, List.forall_mem_map]
    exact fun _ _ => rfl
  rw [Pattern.explode_eq_tokens _ _ fun _ => hnone, Segmentation.filter_tokens_of_text_nil _ (by
    rwa [Segmentation.found_ofMatches]), Pattern.pieces_matchesFrom_literal]
  show (([[]] ++ t.map (fun c => [c]) ++ [[]]).map trim.trim).filter _ = _
  rw [List.map_append, List.map_append, List.filter_append, List.filter_append]
  exact List.append_nil _

/-- In a text without marks, literal separators give the same tokens in both ways. Only if they are
to end the token before them there has to be text between any two that are found. -/
theorem lex_eq_explode (h : ∀ c ∈ t, isPairing c = false) (l : Text)
    (hp : policy = .withPrevious → NoneAdjacent ((Pattern.literal l).matchesFrom t 0)) :
    lex (.literal l) { policy, trim } t = (Pattern.literal l).explode policy trim t 0 := by
  by_cases hl : l = []
  · rw [hl, lex_literal_nil h, explode_literal_nil]
  · rw [lex_eq_tokens, cuts_literal h hl, Pattern.explode_eq_tokens _ _ hp]

/-- The ways to split at a literal separator, the empty one among them, agree. The parts between its
occurrences are what splitting at its pattern gives and, in a text without marks, what the lexer
gives. There the lexer and `explode` also keep separators in the same way. If these are to end the
token before them, none that is found may begin where the one before ends; the empty one never does.
Where the separator is not empty, the parts are those of cutting once, again and again behind the
first occurrence. -/
theorem literal_splitters_agree (l t : Text) (trim : TrimSet) :
    Text.components l trim t = (Pattern.literal l).split trim t 0 ∧
      ((∀ c ∈ t, isPairing c = false) →
        lex (.literal l) { trim } t = Text.components l trim t ∧
          ∀ policy,
            (policy = .withPrevious → NoneAdjacent ((Pattern.literal l).matchesFrom t 0)) →
            lex (.literal l) { policy, trim } t = (Pattern.literal l).explode policy trim t 0) ∧
      (l ≠ [] → ∃ parts, Text.CutUp l t parts ∧
        Text.components l trim t = Text.trimmedNonempty trim parts) := by
  refine ⟨(Pattern.split_literal l t trim).symm, fun h => ⟨?_, fun policy => ?_⟩, fun hl => ?_⟩
  · rw [← Pattern.split_literal]
    exact lex_eq_explode h l nofun
  · exact lex_eq_explode h l
  · exact ⟨_, Text.cutUp_splitAll hl t, rfl⟩

theorem literal_splitters_agree_comma :
    (∀ c ∈ " a ,b, c".toList, isPairing c = false) ∧
      NoneAdjacent ((Pattern.literal [',']).matchesFrom " a ,b, c".toList 0) ∧
      lex (.literal [',']) { trim := ⟨[.whiteSpace], []⟩ } " a ,b, c".toList =
        Text.components [','] ⟨[.whiteSpace], []⟩ " a ,b, c".toList ∧
      lex (.literal [',']) { policy := .withPrevious, trim := ⟨[.whiteSpace], []⟩ }
          " a ,b, c".toList =
        (Pattern.literal [',']).explode .withPrevious ⟨[.whiteSpace], []⟩ " a ,b, c".toList 0 ∧
      ∃ parts, Text.CutUp [','] " a ,b, c".toList parts ∧
        Text.components [','] ⟨[.whiteSpace], []⟩ " a ,b, c".toList =
          Text.trimmedNonempty ⟨[.whiteSpace], []⟩ parts := by
  have hplain : ∀ c ∈ " a ,b, c".toList, isPairing c = false := by
    simpa only [List.all_eq_true, Bool.not_eq_true'] using
      (by decide : " a ,b, c".toList.all (!isPairing ·) = true)
  have hgaps : NoneAdjacent ((Pattern.literal [',']).matchesFrom " a ,b, c".toList 0) := by decide
  obtain ⟨-, hlex, hparts⟩ :=
    literal_splitters_agree [','] " a ,b, c".toList ⟨[.whiteSpace], []⟩
  obtain ⟨hdrop, hkeep⟩ := hlex hplain
  exact ⟨hplain, hgaps, hdrop, hkeep .withPrevious fun _ => hgaps,
    hparts (List.cons_ne_nil _ _)⟩

/-! Where no text stands between two separators that are to end tokens, the second is a token of its
own for the lexer, and ends the same token as the first for `explode`. -/

example : lex (.literal [',']) { policy := .withPrevious } "a,,b".toList =
    ["a,".toList, ",".toList, "b".toList] := by decide

example : (Pattern.literal [',']).explode .withPrevious {} "a,,b".toList 0 =
    ["a,,".toList, "b".toList] := by decide

end Lexer

end RegexText
