import RegexText.Pattern.Split
import RegexText.Proofs.Pattern.Segmentation

/-!
# Successive matches

One search through a text finds its successive matches (`Regex.findAll`). Each is looked for from
the end of the one before, so they lie one after the other (`findAll_inOrder`), and counted in the
whole text they cut it into pieces (`Pattern.laid_matchesFrom`).
-/

namespace RegexText

namespace Regex

variable {re : Regex} {t : Text} {i : Nat} {c : Captures}

/-- The matches lie one after the other from index `lo` up to index `hi`. -/
def InOrder (hi : Nat) : (lo : Nat) → List Captures → Prop
  | _, [] => True
  | lo, c :: cs => c.Within lo hi ∧ InOrder hi c.whole.stop cs

theorem findNext?_within (h : re.findNext? t i = some c) : c.Within i t.length := by
  unfold findNext? at h
  split at h
  · cases h
  · rename_i c₀ hc₀
    split at h
    · exact (find?_within h).mono (Nat.le_succ i)
    · cases h
      exact find?_within hc₀

theorem findMore_inOrder (re : Regex) (t : Text) (steps i : Nat) :
    InOrder t.length i (re.findMore t steps i) := by
  induction steps generalizing i with
  | zero => trivial
  | succ steps ih =>
    unfold findMore
    split
    · trivial
    · rename_i c hc
      exact ⟨findNext?_within hc, ih c.whole.stop⟩

theorem findAll_inOrder (re : Regex) (t : Text) : InOrder t.length 0 (re.findAll t) := by
  unfold findAll
  split
  · trivial
  · rename_i c hc
    exact ⟨find?_within hc, findMore_inOrder re t _ _⟩

theorem InOrder.within {lo hi : Nat} {cs : List Captures} (h : InOrder hi lo cs) :
    ∀ c ∈ cs, c.Within lo hi := by
  induction cs generalizing lo with
  | nil => exact fun c hc => nomatch hc
  | cons c₀ cs ih =>
    obtain ⟨hw, hlater⟩ := h
    intro c hc
    rcases List.mem_cons.mp hc with rfl | hc
    · exact hw
    · exact (ih hlater c hc).mono (Nat.le_trans hw.lo_le hw.start_le)

end Regex

/-- The stretch that the match takes up. -/
def Match.span (m : Match) : Span := ⟨m.index, m.stop⟩

theorem Match.Placed.span_text {t : Text} {lo : Nat} {m : Match} (h : m.Placed t lo) :
    m.span.text t = m.text :=
  h.text_eq.symm

/-- What is found one after the other in the rest of `t` from index `k` on lies one after the other
in `t`. -/
theorem laid_ofCaptures {t : Text} {k lo : Nat} {cs : List Regex.Captures} (hk : k ≤ t.length)
    (h : Regex.InOrder (t.drop k).length lo cs) :
    Laid t (k + lo) (cs.map (Match.ofCaptures (t.drop k) k)) := by
  induction cs generalizing lo with
  | nil => trivial
  | cons c cs ih =>
    obtain ⟨hw, hlater⟩ := h
    refine ⟨Match.placed_ofCaptures hk hw, ?_⟩
    rw [Match.stop_ofCaptures _ k hw]
    exact ih hlater

namespace Pattern

/-- The successive matches in `t` from `offset` on, or from the end of `t` if it comes before. -/
def matchesFrom (p : Pattern) (t : Text) (offset : Nat) : List Match :=
  let start := min offset t.length
  (p.regex.findAll (t.drop start)).map (Match.ofCaptures (t.drop start) start)

theorem laid_matchesFrom (p : Pattern) (t : Text) (offset : Nat) :
    Laid t (min offset t.length) (p.matchesFrom t offset) :=
  laid_ofCaptures (Nat.min_le_right _ _) (Regex.findAll_inOrder _ _)

theorem drop_min_length (t : Text) (offset : Nat) :
    t.drop (min offset t.length) = t.drop offset := by
  rcases Nat.le_total offset t.length with h | h
  · rw [Nat.min_eq_left h]
  · rw [Nat.min_eq_right h, List.drop_length, List.drop_eq_nil_of_le h]

theorem spansFrom_eq (p : Pattern) (t : Text) (offset : Nat) :
    p.spansFrom t offset = (p.matchesFrom t offset).map Match.span := by
  rw [spansFrom, matchesFrom, drop_min_length, List.map_map]
  refine List.map_congr_left fun c hc => ?_
  have hw := (Regex.findAll_inOrder p.regex (t.drop offset)).within c hc
  rw [Function.comp_apply, Match.span, Match.stop_ofCaptures _ _ hw]
  rfl

end Pattern

end RegexText
