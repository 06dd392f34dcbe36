import RegexText.Proofs.Lexer.OnePass

/-!
# Groups that are not split

A bracket or quote that opens where nothing is open and is closed again encloses a `Group`. A scan
that goes back to its floor reads the groups of its token a second time, without heeding them or out
of step with them, and can then cut inside of one (`not_forall_group_whole`). It goes back only for
what follows in the same token. If that token ends before anything malformed and before anything
that stays open, at a separator or because no separator is left, its groups are whole, whatever
comes after it (`group_whole`).
-/

namespace RegexText.Lexer

open Nesting

variable {l t : Text} {i j k : Nat}

/-- What opens at index `i` of `t`, where nothing is open, is closed by its own closing mark at
index `j`, and no malformed mark has been met by then. -/
structure Group (t : Text) (i j : Nat) : Prop where
  lt : i < j
  outside : (place t i).stack = []
  opened : ∃ closer, (place t (i + 1)).stack = [closer] ∧ t[j]? = some closer
  inside : ∀ n, n ≤ j → i < n → (place t n).stack ≠ []
  closed : (place t (j + 1)).stack = []
  sound : (place t (j + 1)).malformed = false

/-- Where the separator stands outside brackets and quotes, or from where on it stands nowhere, is a
horizon. -/
theorem horizon_of_literal (hl : l ≠ []) (hsep : (Pattern.literal l).AvoidsMarks t)
    (hopen : (place t k).stack = []) (hsound : (place t k).malformed = false)
    (hend : l <+: t.drop k ∨ ∀ q, k ≤ q → ¬ l <+: t.drop q) : Horizon (.literal l) t k := by
  refine ⟨hopen, hsound, fun s m y hf hle hm hy hlt => ?_⟩
  have hstop := stop_le_index hsep hm hf hy hlt (index_lt_stop_of_literal hl hm)
  rw [nextSeparator?_literal hl] at hm
  refine Nat.le_trans hstop ?_
  rcases hend with hat | hnone
  · exact Pattern.literal_leftmost hm hle hat
  · exact Nat.le_of_not_le fun hge => hnone m.index hge (Pattern.literal_occurs hm)

/-- A match outside brackets and quotes lies before a group or after it. -/
theorem Group.apart {m : Match} (h : Group t i j) (hm : Outside t m) (hle : m.index ≤ m.stop) :
    m.stop ≤ i ∨ j < m.index := by
  by_cases hin : i < m.stop ∧ m.index ≤ j
  · -- The two have a place in common, the later of their first ones.
    have hlt := h.lt
    have hopen := hm.stack_eq (max (i + 1) m.index) (by omega) (by omega)
    exact absurd hopen (h.inside _ (by omega) (by omega))
  · omega

/-- A group is not split if the reading goes on from it, past nothing malformed, to a place where
nothing is open and at which the separator stands, or from which on it stands nowhere. -/
theorem group_whole (o : Options) (hl : l ≠ []) (hmarks : ∀ c ∈ l, isPairing c = false ∧ c ≠ '\\')
    (h : Group t i j) (hk : j < k) (hopen : (place t k).stack = [])
    (hsound : (place t k).malformed = false)
    (hend : l <+: t.drop k ∨ ∀ q, k ≤ q → ¬ l <+: t.drop q) :
    ∀ m ∈ cuts (.literal l) o t, m.stop ≤ i ∨ j < m.index := by
  intro m hm
  have hsep := literal_avoidsMarks hmarks t
  have hcut := (horizon_of_literal hl hsep hopen hsound hend).cuts hsep o m hm
  rw [cuts_eq] at hm
  obtain ⟨q, hq⟩ := Scan.found_cuts _ _ _ _ m hm
  rcases hcut with hout | hpast
  · exact h.apart hout (Pattern.matchFirst_placed hq).index_le
  · exact .inr (Nat.lt_of_lt_of_le hk hpast)

theorem group_whole_before_malformed :
    Group "(a,b),(c],d".toList 0 4 ∧
      ∀ m ∈ cuts (.literal [',']) {} "(a,b),(c],d".toList, m.stop ≤ 0 ∨ 4 < m.index := by
  have h : Group "(a,b),(c],d".toList 0 4 :=
    ⟨by decide, by decide, ⟨')', by decide, by decide⟩, by decide, by decide, by decide⟩
  refine ⟨h, group_whole {} (by decide) comma_plain h (k := 5) (by decide) (by decide) (by decide)
    (.inl ?_)⟩
  exact List.isPrefixOf_iff_prefix.mp (by decide)

/-- The condition on what follows in the token is needed. -/
theorem not_forall_group_whole :
    ¬ ∀ (l t : Text) (i j : Nat), l ≠ [] → (∀ c ∈ l, isPairing c = false ∧ c ≠ '\\') →
      Group t i j → ∀ m ∈ cuts (.literal l) {} t, ¬ (i < m.index ∧ m.stop ≤ j) := by
  intro h
  have hgroup : Group "(a,b)(c],d".toList 0 4 :=
    ⟨by decide, by decide, ⟨')', by decide, by decide⟩, by decide, by decide, by decide⟩
  have hcut : ∃ m ∈ cuts (.literal [',']) {} "(a,b)(c],d".toList, 0 < m.index ∧ m.stop ≤ 4 := by
    decide +kernel
  obtain ⟨m, hm, hin⟩ := hcut
  exact h [','] _ 0 4 (by decide) comma_plain hgroup m hm hin

end RegexText.Lexer
