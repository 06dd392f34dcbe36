import RegexText.Proofs.Regex.Stable

/-!
# A pattern inside a group

A pattern that has been read to its end can stand in a group: with one more group open around it,
each step reads the same (`Reader.step_inside`), and so does a run of steps, up to the end of that
group (`Reader.exists_run_inside`). Two things are asked of the pattern and of what comes after the
group. In the pattern no group may begin with a question mark, so that no mode comes into force. And
after the group no colon may stand, which could close the name of a class that the pattern has left
open.
-/

namespace RegexText.Regex

variable {more t rest : Text}

namespace Reader

/-- The reader with one more group open around all that it reads. -/
def inside (level : Level) (r : Reader) : Reader := { r with outer := r.outer ++ [level] }

/-- No mode is in force, here or around any open group. -/
structure Plain (r : Reader) : Prop where
  modes : r.modes = {}
  outer : ∀ level ∈ r.outer, level.modes = {}

variable {r r' : Reader} {c : Char} {cs : Text}

theorem openGroup?_eq (hmodes : r.modes = {}) (hquestion : cs.head? ≠ some '?') :
    r.openGroup? cs =
      .ok ({ r.openGroup (some r.nextGroup) r.modes with nextGroup := r.nextGroup + 1 }, cs) := by
  unfold openGroup?
  rw [hmodes, skipBlanks_eq]
  split
  any_goals exact absurd rfl hquestion
  rfl

theorem openGroup?_inside (hr : r.Plain) (hquestion : cs.head? ≠ some '?')
    (h : r.openGroup? cs = .ok (r', rest)) (level : Level) (more : Text) :
    r'.Plain ∧ rest <:+ cs ∧ (r.inside level).openGroup? (cs ++ ')' :: more) =
      .ok (r'.inside level, rest ++ ')' :: more) := by
  rw [openGroup?_eq hr.modes hquestion] at h
  cases h
  refine ⟨⟨hr.modes, ?_⟩, List.suffix_rfl, ?_⟩
  · intro level hlevel
    rcases List.mem_cons.mp hlevel with rfl | hlevel
    · exact hr.modes
    · exact hr.outer level hlevel
  · have hclose : (rest ++ ')' :: more).head? ≠ some '?' := by
      cases rest with
      | nil => exact fun he => absurd (Option.some.inj he) (by decide)
      | cons d ds => exact hquestion
    rw [openGroup?_eq (r := r.inside level) hr.modes hclose]
    rfl

theorem closeGroup?_inside (hr : r.Plain) (h : r.closeGroup? = .ok r') (level : Level) :
    r'.Plain ∧ (r.inside level).closeGroup? = .ok (r'.inside level) := by
  unfold closeGroup? at h ⊢
  split at h
  · cases h
  · rename_i l outer houter
    cases h
    have hinside : (r.inside level).outer = l :: (outer ++ [level]) := by
      rw [inside, houter]
      rfl
    refine ⟨⟨hr.outer l (houter ▸ List.mem_cons_self), fun l' hl' => ?_⟩, ?_⟩
    · exact hr.outer l' (houter ▸ List.mem_cons_of_mem l hl')
    · rw [hinside]
      rfl

theorem repeated_inside (hr : r.Plain) {n : Expr.Count}
    (h : step.repeated r n cs = .ok (r', rest)) (level : Level) (more : Text) :
    r'.Plain ∧ rest <:+ cs ∧ step.repeated (r.inside level) n (cs ++ ')' :: more) =
      .ok (r'.inside level, rest ++ ')' :: more) := by
  have hsuffix : (lazyMark cs).2 <:+ cs := by
    unfold lazyMark
    split
    · exact List.suffix_cons _ _
    · exact List.suffix_rfl
  have hmark : lazyMark (cs ++ ')' :: more) =
      ((lazyMark cs).1, (lazyMark cs).2 ++ ')' :: more) := by
    cases cs with
    | nil => rfl
    | cons c cs =>
      by_cases hc : c = '?'
      · subst hc
        rfl
      · simp [lazyMark, hc]
  unfold step.repeated at h ⊢
  rw [hmark]
  obtain ⟨r₁, hr₁, he⟩ := map_eq_ok.mp h
  cases he
  unfold repeatLast? at hr₁
  split at hr₁
  · rename_i e parts hparts
    cases hr₁
    have hinside : (r.inside level).parts = .expr e :: parts := hparts
    refine ⟨⟨hr.modes, hr.outer⟩, hsuffix, map_eq_ok.mpr ⟨_, ?_, rfl⟩⟩
    rw [repeatLast?, hinside]
    rfl
  · cases hr₁

/-- One step reads the same with one more group open around it, and leaves a suffix of what it looks
at. -/
theorem step_inside (hr : r.Plain) (hmore : ':' ∉ more) (hquestion : c = '(' → cs.head? ≠ some '?')
    (h : r.step c cs = .ok (r', rest)) (level : Level) :
    r'.Plain ∧ rest <:+ cs ∧ (r.inside level).step c (cs ++ ')' :: more) =
      .ok (r'.inside level, rest ++ ')' :: more) := by
  have hmodes : (r.inside level).modes = {} := hr.modes
  have hpush (e : Expr) : (r.push e).Plain := ⟨hr.modes, hr.outer⟩
  unfold step at h ⊢
  rw [hr.modes] at h
  rw [hmodes]
  split at h
  · exact openGroup?_inside hr (hquestion rfl) h level more
  · obtain ⟨r₁, hr₁, he⟩ := map_eq_ok.mp h
    cases he
    obtain ⟨hplain, hclose⟩ := closeGroup?_inside hr hr₁ level
    exact ⟨hplain, List.suffix_rfl, map_eq_ok.mpr ⟨_, hclose, rfl⟩⟩
  · cases h
    exact ⟨⟨hr.modes, hr.outer⟩, List.suffix_rfl, rfl⟩
  · obtain ⟨⟨s, rest₁⟩, hs, he⟩ := map_eq_ok.mp h
    cases he
    obtain ⟨hsuffix, happend⟩ := stable_readBracket hmore cs s rest hs
    exact ⟨hpush _, hsuffix, map_eq_ok.mpr ⟨_, happend, rfl⟩⟩
  · exact repeated_inside hr h level more
  · exact repeated_inside hr h level more
  · exact repeated_inside hr h level more
  · obtain ⟨⟨n, rest₁⟩, hn, h⟩ := bind_eq_ok.mp h
    obtain ⟨hplain, hsuffix, hrepeated⟩ := repeated_inside hr h level more
    obtain ⟨hsuffix₁, happend⟩ := stable_readCount more cs n rest₁ hn
    exact ⟨hplain, hsuffix.trans hsuffix₁, bind_eq_ok.mpr ⟨_, happend, hrepeated⟩⟩
  · obtain ⟨⟨a, rest₁⟩, ha, he⟩ := map_eq_ok.mp h
    cases he
    obtain ⟨hsuffix, happend⟩ := stable_ofEscape more cs a rest ha
    exact ⟨hpush _, hsuffix, map_eq_ok.mpr ⟨_, happend, rfl⟩⟩
  · cases h
    exact ⟨hpush _, List.suffix_rfl, rfl⟩
  · cases h
    exact ⟨hpush _, List.suffix_rfl, rfl⟩
  · cases h
    exact ⟨hpush _, List.suffix_rfl, rfl⟩
  · cases h
    exact ⟨hpush _, List.suffix_rfl, rfl⟩

/-- Neither a change of modes nor a group without a number begins in the text. -/
def NoQuestion (t : Text) : Prop := ¬ ['(', '?'] <:+: t

theorem NoQuestion.of_suffix (ht : NoQuestion t) (h : rest <:+ t) : NoQuestion rest :=
  fun hinside => ht (hinside.trans h.isInfix)

theorem noQuestion_cons_iff {c : Char} {t : Text} :
    NoQuestion (c :: t) ↔ NoQuestion t ∧ (c = '(' → t.head? ≠ some '?') := by
  have hfront : ['(', '?'] <+: c :: t ↔ c = '(' ∧ t.head? = some '?' := by
    rw [List.cons_prefix_cons, eq_comm]
    cases t <;> simp [eq_comm]
  rw [NoQuestion, NoQuestion, List.infix_cons_iff, hfront]
  tauto

theorem run_nil (hmodes : r.modes = {}) (steps : Nat) :
    run r (steps + 1) [] = if r.outer.isEmpty then .ok r.expr else .error .unclosedGroup := by
  rw [run, hmodes]
  rfl

theorem run_cons (hmodes : r.modes = {}) (steps : Nat) (c : Char) (cs : Text) :
    run r (steps + 1) (c :: cs) = r.step c cs >>= fun next => run next.1 steps next.2 := by
  rw [run, hmodes]
  rfl

/-- A pattern that is read to its end is read in the same way in a group, up to the end of the
group. -/
theorem exists_run_inside {steps : Nat} {e : Expr} (hr : r.Plain) (hmore : ':' ∉ more)
    (ht : NoQuestion t) (h : run r steps t = .ok e) (level : Level) (extra : Nat) :
    ∃ (r' : Reader) (left : Nat), r'.outer = [] ∧ r'.modes = {} ∧ r'.expr = e ∧
      run (r.inside level) (steps + extra) (t ++ ')' :: more) =
        run (r'.inside level) (left + extra + 1) (')' :: more) := by
  induction steps generalizing r t with
  | zero => cases h
  | succ steps ih =>
    cases t with
    | nil =>
      rw [run_nil hr.modes] at h
      split at h
      · rename_i houter
        cases h
        refine ⟨r, steps, List.isEmpty_iff.mp houter, hr.modes, rfl, ?_⟩
        rw [Nat.add_right_comm]
        rfl
      · cases h
    | cons c cs =>
      rw [run_cons hr.modes] at h
      obtain ⟨⟨r₁, rest⟩, hstep, hrun⟩ := bind_eq_ok.mp h
      have hquestion := (noQuestion_cons_iff.mp ht).2
      obtain ⟨hplain, hsuffix, hinside⟩ := step_inside hr hmore hquestion hstep level
      have hrest := ht.of_suffix (hsuffix.trans (List.suffix_cons c cs))
      obtain ⟨r', left, houter, hmodes, he, hreads⟩ := ih hplain hrest hrun
      refine ⟨r', left, houter, hmodes, he, ?_⟩
      have hlevel : (r.inside level).modes = {} := hr.modes
      rw [← hreads, Nat.add_right_comm, List.cons_append, run_cons hlevel, hinside]
      rfl

theorem run_close (hmodes : r.modes = {}) (houter : r.outer = []) (branches : List Expr)
    (parts : List Part) (steps : Nat) (cs : Text) :
    run (r.inside ⟨none, {}, branches, parts⟩) (steps + 1) (')' :: cs) =
      run ⟨{}, branches, .expr r.expr :: parts, [], r.nextGroup, r.names⟩ steps cs := by
  obtain ⟨modes, branches', parts', outer, nextGroup, names⟩ := r
  cases hmodes
  cases houter
  rfl

/-- A pattern that can be read by itself is read as the same expression in a group without a
number. -/
theorem exists_run_group {e : Expr} (hmore : ':' ∉ more) (ht : NoQuestion t)
    (h : parse {} t = .ok e) (branches : List Expr) (parts : List Part) (extra : Nat) :
    ∃ left nextGroup names,
      run { modes := {}, outer := [⟨none, {}, branches, parts⟩] } (t.length + 1 + extra)
          (t ++ ')' :: more) =
        run ⟨{}, branches, .expr e :: parts, [], nextGroup, names⟩ (left + extra) more := by
  have hplain : ({ modes := {} } : Reader).Plain := ⟨rfl, fun _ hlevel => nomatch hlevel⟩
  obtain ⟨r, left, houter, hmodes, rfl, hrun⟩ :=
    exists_run_inside hplain hmore ht h ⟨none, {}, branches, parts⟩ extra
  exact ⟨left, r.nextGroup, r.names, hrun.trans (run_close hmodes houter ..)⟩

end Reader

end RegexText.Regex
