import RegexText.Proofs.Regex.Layout
import RegexText.Proofs.Trim.Erase

/-!
# The run at the start of a text

A run of an expression `e` is one `e` after the other, as many as there are. What `^(e)+` finds is
the run at the start of a text (`Program.HeadRun`). Once it has been taken off, what is left has no
run at its start, and no text has one that what is left begins with (`HeadRun.erase_of_prefix`), if
`e` has no assertions.

The greedy loop would rather have gone on where it stops. So there is no further `e` with a
character in it there, unless it prefers an empty one. But then it prefers that everywhere: threads
that stand in front of the exit at the start of a text do so wherever a run comes to the exit
(`HeadRun.exists_front_as_at_start`).
-/

namespace RegexText.Regex

open Sweep (Reaches Steps Explored)

namespace Program

/-- The program of `^(e)+`, whose loop ends at `m`. -/
structure HeadRun (p : Program) (e : Expr) (m : Nat) : Prop where
  start : p[0]? = some (.assert .textStart)
  body : p.Body e 1 m
  exit : p[m + 1]? = some .accept
  size : p.size = m + 2

end Program

theorem Expr.exists_headRun {e : Expr} (he : e.hasAssertion = false) :
    ∃ m, (ofExpr (seq (assert .textStart) (plus true e))).program.HeadRun e m := by
  have h := (seq (assert .textStart) (plus true e)).lays_program
  have hloop : (seq (assert .textStart) (plus true e)).program.Lays 1 ((plus true e).code 1) :=
    h.left.right
  have hlength : 0 + ((seq (assert .textStart) (plus true e)).code 0).length =
      1 + (e.code 1).length + 1 := by
    simp only [code, List.length_append, List.length_singleton, Nat.zero_add]
    omega
  refine ⟨_, h.left.left.head, hloop.body he, hlength ▸ h.right.head, ?_⟩
  rw [ofExpr, program, List.size_toArray, List.length_append, List.length_singleton]
  omega

namespace Program.HeadRun

variable {p : Program} {e : Expr} {k m d pos : Nat} {sides sides' : Sides}
  {before before' : Option Char} {word after after' : Text} {starts : List Thread}

theorem one_le (h : p.HeadRun e m) : 1 ≤ m := h.body.block.le

theorem next_loop (h : p.HeadRun e m) (sides : Sides) : p.next sides m = [1, m + 1] :=
  next_split h.body.loop

theorem next_exit (h : p.HeadRun e m) (sides : Sides) : p.next sides (m + 1) = [] :=
  next_accept h.exit

theorem next_start (h : p.HeadRun e m) (sides : Sides) :
    p.next sides 0 = if sides.before.isNone then [1] else [] :=
  next_assert h.start

theorem eq_none_of_lt (h : p.HeadRun e m) (hk : m + 1 < k) : p[k]? = none :=
  Array.getElem?_eq_none (by rw [h.size]; omega)

/-- An instruction is the start, or stands in the body, or is the loop or the exit, or there is
none. -/
theorem place_cases (h : p.HeadRun e m) (k : Nat) :
    k = 0 ∨ 1 ≤ k ∧ k < m ∨ k = m ∨ k = m + 1 ∨ p[k]? = none := by
  have hm := h.one_le
  rcases Nat.lt_or_ge (m + 1) k with hlt | hge
  · exact .inr (.inr (.inr (.inr (h.eq_none_of_lt hlt))))
  · omega

/-- Behind the assertion at its start the program has none. -/
theorem not_assert (h : p.HeadRun e m) (hk : k ≠ 0) (a : Assertion) : p[k]? ≠ some (.assert a) := by
  intro ha
  rcases h.place_cases k with rfl | ⟨hlo, hhi⟩ | rfl | rfl | hnone
  · exact hk rfl
  · exact h.body.not_assert k hlo hhi a ha
  · cases h.body.loop.symm.trans ha
  · cases h.exit.symm.trans ha
  · cases hnone.symm.trans ha

theorem accept_iff (h : p.HeadRun e m) : p[k]? = some .accept ↔ k = m + 1 := by
  refine ⟨fun ha => ?_, fun he => he ▸ h.exit⟩
  rcases h.place_cases k with rfl | ⟨hlo, hhi⟩ | rfl | hexit | hnone
  · cases h.start.symm.trans ha
  · exact absurd ha (h.body.not_accept k hlo hhi)
  · cases h.body.loop.symm.trans ha
  · exact hexit
  · cases hnone.symm.trans ha

/-- A character is read in the body only. -/
theorem chars_bounds (h : p.HeadRun e m) {s : CharClass} (hs : p[k]? = some (.chars s)) :
    1 ≤ k ∧ k < m := by
  rcases h.place_cases k with rfl | hbody | rfl | rfl | hnone
  · cases h.start.symm.trans hs
  · exact hbody
  · cases h.body.loop.symm.trans hs
  · cases h.exit.symm.trans hs
  · cases hnone.symm.trans hs

/-- The start is not come back to, and the exit is reached from the loop only. -/
theorem next_bounds (h : p.HeadRun e m) (hd : d ∈ p.next sides k) :
    1 ≤ d ∧ d ≤ m + 1 ∧ (d = m + 1 → k = m) := by
  have hm := h.one_le
  rcases h.place_cases k with rfl | ⟨hlo, hhi⟩ | rfl | rfl | hnone
  · rw [h.next_start] at hd
    split at hd
    · rw [List.mem_singleton] at hd
      omega
    · cases hd
  · have := h.body.block.next_mem k hlo hhi d hd
    omega
  · rw [h.next_loop, List.mem_pair] at hd
    omega
  · rw [h.next_exit] at hd
    cases hd
  · rw [next_none hnone] at hd
    cases hd

theorem reaches_cases (h : p.HeadRun e m) (hd : Reaches (p.next sides) k d) :
    d = k ∨ 1 ≤ d ∧ d ≤ m + 1 := by
  rcases hd.cases_tail with rfl | ⟨c, -, hstep⟩
  · exact .inl rfl
  · have := h.next_bounds hstep
    omega

/-- Behind the start a way does not see what is around it. -/
theorem leads_elsewhere (h : p.HeadRun e m) (hleads : p.Leads k before word after) (hk : k ≠ 0)
    (before' : Option Char) (after' : Text) : p.Leads k before' word after' := by
  induction hleads generalizing before' with
  | accept hacc => exact .accept hacc
  | read hs hc _ ih => exact .read hs hc (ih (Nat.succ_ne_zero _) _)
  | step hd _ ih =>
    have := h.next_bounds hd
    rw [next_congr (h.not_assert hk)] at hd
    exact .step hd (ih (by omega) before')

/-- A sweep that comes to the exit has visited the loop, and before it the body's start. -/
theorem one_mem_visited (h : p.HeadRun e m) {roots ks u : List Nat}
    (hu : Steps (p.next sides) ⟨roots, []⟩ ⟨(m + 1) :: ks, u⟩) (hroots : ∀ r ∈ roots, r ≤ m) :
    1 ∈ u := by
  have hm := h.one_le
  rcases hu.pending_from (m + 1) List.mem_cons_self with hroot | ⟨x, hx, hexit⟩
  · have := hroots _ hroot
    omega
  · obtain rfl : x = m := (h.next_bounds hexit).2.2 rfl
    exact hu.explored.first hx (h.next_loop sides) (by omega)

/-- What has been explored at any place has been explored as at the start of a text. -/
theorem explored_at_start (h : p.HeadRun e m) {u : List Nat}
    (hu : Explored (p.next sides) (m + 1) u) (hzero : 0 ∈ u → sides.before = none)
    (after : Option Char) : Explored (p.next ⟨none, after⟩) (m + 1) u := by
  intro x hx earlier d later hnext
  have hsame : p.next sides x = p.next ⟨none, after⟩ x := by
    rcases Nat.eq_zero_or_pos x with rfl | hpos
    · rw [h.next_start, h.next_start, hzero hx]
    · exact next_congr (h.not_assert (by omega)) ..
  rcases hu x hx earlier d later (hsame ▸ hnext) with hmem | he | ⟨a, ha, haround⟩
  · exact .inl hmem
  · exact .inr (.inl he)
  · refine .inr (.inr ⟨a, ha, ?_⟩)
    refine Relation.ReflTransGen.mono (fun c d hstep => ⟨hstep.1, ?_⟩) _ _ haround
    have hd := hstep.2
    rcases Nat.eq_zero_or_pos c with rfl | hpos
    · rw [h.next_start] at hd ⊢
      split at hd
      · exact hd
      · cases hd
    · rwa [next_congr (h.not_assert (by omega)) ⟨none, after⟩ sides]

/-- At the start of a text a thread in front of the exit stands where all those have been that came
to the exit by the body's start. -/
theorem mem_of_front (h : p.HeadRun e m) (he : e.hasAssertion = false) {u : List Nat}
    {after : Option Char} (hu : Explored (p.next ⟨none, after⟩) (m + 1) u) (hone : 1 ∈ u)
    {t : Thread}
    (ht : t ∈ (p.threadsFrom ⟨none, after⟩ pos [⟨0, []⟩]).takeWhile (!p.accepts ·)) :
    t.place ∈ u := by
  have hstart : p.next ⟨none, after⟩ 0 = [1] := h.next_start _
  have hne : t.place ≠ 0 := by
    intro hzero
    have hstands := stands_of_mem_threadsFrom ((List.takeWhile_sublist _).subset ht)
    rw [hzero, stands, h.start] at hstands
    cases hstands
  obtain ⟨v, hv, hplaces⟩ := p.exists_sweep_threadsFrom ⟨none, after⟩ pos [⟨0, []⟩]
  cases hnull : e.nullable with
  | false =>
    -- the exit is not reached, and the sweep goes through all that is
    have hnot : ¬ Reaches (p.next ⟨none, after⟩) 1 (m + 1) := fun hreaches => by
      have := h.body.block.reaches_lt hnull hreaches
      omega
    obtain ⟨-, r, hr, hreaches⟩ := mem_threadsFrom.mp
      (List.mem_map_of_mem (f := (·.place)) ((List.takeWhile_sublist _).subset ht))
    cases List.mem_singleton.mp hr
    rcases hreaches.cases_head with hzero | ⟨c, hc, hreaches⟩
    · exact absurd hzero.symm hne
    · rw [hstart, List.mem_singleton] at hc
      exact hu.of_reaches hone hnot (hc ▸ hreaches)
  | true =>
    obtain ⟨hm, hpass⟩ := h.body.block.passes hnull he hu (Nat.lt_succ_self m) hone
    have hfresh : ∀ i ∈ [0], ¬ (1 ≤ i ∧ i < m + 1) := by simp
    obtain ⟨more, v', hsteps, hvisited, -⟩ :=
      hpass.loop h.one_le hm (h.next_loop _) [] [0] hfresh
    have hnot : m + 1 ∉ v' := fun hmem => by
      have := hvisited _ hmem
      simp at this
    have hexit : Steps (p.next ⟨none, after⟩) ⟨[0], []⟩ ⟨_, (m + 1) :: v'⟩ :=
      ((Steps.visit List.not_mem_nil hstart).trans hsteps).tail (.visit hnot)
    obtain ⟨later, rfl⟩ := (Steps.to_end hexit hv).visited_suffix
    have hv' : t.place ∈ v' := mem_visited_of_front hplaces h.exit ht
    rcases hvisited _ hv' with hzero | ⟨hu, -⟩
    · exact absurd (List.mem_singleton.mp hzero) hne
    · exact hu

/-- Wherever a run comes to the exit, threads stand in front of it at all places where they do at
the start of a text. -/
theorem exists_front_as_at_start (h : p.HeadRun e m) (he : e.hasAssertion = false)
    (hstarts : ∀ t ∈ starts, t.place ≤ m ∧ (t.place = 0 → sides.before = none))
    (hacc : ∃ a ∈ p.threadsFrom sides pos starts, p[a.place]? = some .accept) {pos' : Nat}
    {after : Option Char} {t : Thread}
    (ht : t ∈ (p.threadsFrom ⟨none, after⟩ pos' [⟨0, []⟩]).takeWhile (!p.accepts ·)) :
    ∃ t' ∈ (p.threadsFrom sides pos starts).takeWhile (!p.accepts ·), t'.place = t.place := by
  obtain ⟨v, hv, hplaces⟩ := p.exists_sweep_threadsFrom sides pos starts
  obtain ⟨a, ha, hacc⟩ := hacc
  have hexit : m + 1 ∈ v := by
    have hmem : a.place ∈ v.reverse.filter p.stands := hplaces ▸ List.mem_map_of_mem ha
    rw [← h.accept_iff.mp hacc]
    exact List.mem_reverse.mp (List.mem_filter.mp hmem).1
  obtain ⟨ks, u, later, hu, hnot, rfl⟩ := hv.exists_visit hexit
  have hroots : ∀ r ∈ starts.map (·.place), r ≤ m := by
    intro r hr
    obtain ⟨t, ht, rfl⟩ := List.mem_map.mp hr
    exact (hstarts t ht).1
  have hzero (h₀ : 0 ∈ u) : sides.before = none := by
    rcases hu.reaches.1 0 h₀ with hnil | ⟨r, hr, hreaches⟩
    · cases hnil
    · obtain ⟨t, ht, rfl⟩ := List.mem_map.mp hr
      rcases h.reaches_cases hreaches with hzero | hpos
      · exact (hstarts t ht).2 hzero.symm
      · omega
  have hmem := h.mem_of_front he (h.explored_at_start hu.explored hzero after)
    (h.one_mem_visited hu hroots) ht
  have hstands := stands_of_mem_threadsFrom ((List.takeWhile_sublist _).subset ht)
  refine exists_front hplaces (fun d hd hacc => ?_) hmem hstands
  exact hnot (h.accept_iff.mp hacc ▸ hd)

end Program.HeadRun

variable {re : Regex} {e : Expr} {m : Nat} {t v w : Text} {c c' : Captures}

namespace Program.HeadRun

theorem atStart (h : re.program.HeadRun e m) : re.AtStart := by
  intro before pos rest
  cases hc : re.matchAt? (some before) pos rest with
  | none => rfl
  | some c =>
    obtain ⟨word, after, -, -, hleads⟩ := leads_of_matchAt? hc
    cases hleads with
    | accept hacc => cases h.start.symm.trans hacc
    | read hs => cases h.start.symm.trans hs
    | step hd =>
      rw [h.next_start] at hd
      cases hd

/-- Where a text has no run at its start, no text does that it begins with. -/
theorem matchAt?_of_prefix (h : re.program.HeadRun e m) (hc : re.matchAt? none 0 (v ++ w) = none) :
    re.matchAt? none 0 v = none := by
  cases hc' : re.matchAt? none 0 v with
  | none => rfl
  | some c' =>
    obtain ⟨word, after, rfl, -, hleads⟩ := leads_of_matchAt? hc'
    have hlonger : re.program.Leads 0 none word (after ++ w) := by
      cases hleads with
      | accept hacc => cases h.start.symm.trans hacc
      | read hs => cases h.start.symm.trans hs
      | step hd hleads =>
        have := h.next_bounds hd
        rw [h.next_start] at hd
        refine .step ?_ (h.leads_elsewhere hleads (by omega) none (after ++ w))
        rwa [h.next_start]
    have hsome := isSome_matchAt? hlonger 0
    rw [← List.append_assoc, hc] at hsome
    cases hsome

/-- Behind a run at the start of a text there is no further one, nor in a text that what is left
begins with. -/
theorem stop_eq_zero (h : re.program.HeadRun e m) (he : e.hasAssertion = false)
    (hc : re.matchAt? none 0 t = some c) (hv : t.drop c.whole.stop = v ++ w)
    (hc' : re.matchAt? none 0 v = some c') : c'.whole.stop = 0 := by
  obtain ⟨⟨stop, marks⟩, hrun, rfl⟩ := Option.map_eq_some_iff.mp hc
  obtain ⟨⟨stop', marks'⟩, hrun', rfl⟩ := Option.map_eq_some_iff.mp hc'
  obtain ⟨thread, hthread, word, after, rfl, hstop', hleads, hfront⟩ := leads_of_run none hrun'
  cases word with
  | nil => exact hstop'
  | cons a word =>
    have hstands := stands_of_mem_threadsFrom hthread
    have hne : thread.place ≠ 0 := fun hzero => by
      rw [hzero, stands, h.start] at hstands
      cases hstands
    obtain ⟨read, rest, last, rfl, rfl, hlast, hacc, hfrom⟩ := exists_last hrun
    have hrest : rest = a :: word ++ (after ++ w) := by
      rw [← List.append_assoc, ← hv]
      show rest = (read ++ rest).drop (0 + read.length)
      rw [Nat.zero_add, List.drop_left]
    have hhere : ∃ t' ∈ last.takeWhile (!re.program.accepts ·), t'.place = thread.place := by
      rcases hfrom with ⟨rfl, rfl⟩ | ⟨b, starts, rfl, hstarts⟩
      · exact h.exists_front_as_at_start he (by simp) hacc (hfront (by simp))
      · refine h.exists_front_as_at_start he (fun t ht => ?_) hacc (hfront (by simp))
        obtain ⟨k, s, hs, hplace⟩ := hstarts t ht
        have := h.chars_bounds hs
        omega
    -- the run would have gone on
    obtain ⟨t', ht', hplace⟩ := hhere
    obtain ⟨further, _, hfurther, hlt⟩ := exists_run_of_leads ht' (hplace ▸ hstands)
      (hplace ▸ h.leads_elsewhere hleads hne none (after ++ w)) (0 + read.length)
    rw [← hrest, hlast] at hfurther
    cases hfurther
    omega

/-- What is left of a text without the run at its start has no run there, nor has a text that it
begins with. -/
theorem erase_of_prefix (h : re.program.HeadRun e m) (he : e.hasAssertion = false)
    (hv : v <+: re.erase t) : re.erase v = v := by
  obtain ⟨w, hv⟩ := hv
  cases hc' : re.matchAt? none 0 v with
  | none => exact h.atStart.erase_of_none hc'
  | some c' =>
    rw [h.atStart.erase_of_some hc']
    cases hc : re.matchAt? none 0 t with
    | none =>
      rw [h.atStart.erase_of_none hc] at hv
      rw [h.matchAt?_of_prefix (hv ▸ hc)] at hc'
      cases hc'
    | some c =>
      rw [h.atStart.erase_of_some hc] at hv
      rw [h.stop_eq_zero he hc hv.symm hc', List.drop_zero]

end Program.HeadRun

end RegexText.Regex
