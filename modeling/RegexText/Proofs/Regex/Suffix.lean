import RegexText.Regex.Search

/-!
# Searching a suffix

Only assertions see what comes before the place where a search starts. A search without them finds
in a text from index `k` on what it finds in the rest of the text from there (`SuffixStable`,
`suffixStable_of_assertionFree`).

The proof follows the machine. A program without assertions does the same at a position that is `d`
further on, with all positions that it records `d` further on too: one lemma for each stage of a run
(`follow_shift`, `threadsFrom_shift`, `advance_shift`, `run_shift`), whatever stands on the two
sides of a position.
-/

namespace RegexText

/-- The stretch that lies `d` characters further on. -/
def Span.shift (d : Nat) (s : Span) : Span := ⟨d + s.start, d + s.stop⟩

namespace Regex

/-- The bounds with all positions `d` further on. -/
def Marks.shift (d : Nat) (marks : Marks) : Marks := marks.map fun b => (b.1, d + b.2)

/-- The thread with all positions that it recorded `d` further on. -/
def Thread.shift (d : Nat) (t : Thread) : Thread := { t with marks := t.marks.shift d }

/-- The frontier with all positions that its threads recorded `d` further on. -/
def Frontier.shift (d : Nat) (f : Frontier) : Frontier :=
  { f with threads := f.threads.map (Thread.shift d) }

/-- The match that lies `d` characters further on. -/
def Captures.shift (d : Nat) (c : Captures) : Captures :=
  ⟨c.whole.shift d, c.groups.map (·.map (Span.shift d))⟩

theorem lookup_shift (d slot : Nat) (marks : Marks) :
    (marks.shift d).lookup slot = (marks.lookup slot).map (d + ·) := by
  induction marks with
  | nil => rfl
  | cons b marks ih =>
    obtain ⟨s, pos⟩ := b
    show List.lookup slot ((s, d + pos) :: Marks.shift d marks) = _
    rw [List.lookup_cons, List.lookup_cons, ih]
    split <;> rfl

theorem groupSpan?_shift (d : Nat) (marks : Marks) (i : Nat) :
    groupSpan? (marks.shift d) i = (groupSpan? marks i).map (Span.shift d) := by
  unfold groupSpan?
  rw [lookup_shift, lookup_shift]
  cases marks.lookup (startSlot i) with
  | none => rfl
  | some start => cases marks.lookup (stopSlot i) <;> rfl

/-! ## Programs without assertions -/

/-- No instruction of the program is an assertion. -/
def Program.AssertionFree (p : Program) : Prop :=
  ∀ (k : Nat) (a : Assertion), p[k]? ≠ some (.assert a)

/-- Whether an assertion stands in the expression: an anchor or a word boundary. -/
def Expr.hasAssertion : Expr → Bool
  | empty | chars _ => false
  | assert _ => true
  | seq a b | alt a b => a.hasAssertion || b.hasAssertion
  | plus _ a | group _ a => a.hasAssertion

theorem Expr.not_assert_mem_code {e : Expr} (h : e.hasAssertion = false) (k : Nat) (a : Assertion) :
    Instr.assert a ∉ e.code k := by
  induction e generalizing k with
  | empty => simp [code]
  | chars s => simp [code]
  | assert b => cases h
  | seq e₁ e₂ ih₁ ih₂ =>
    obtain ⟨h₁, h₂⟩ := Bool.or_eq_false_iff.mp h
    simp [code, ih₁ h₁, ih₂ h₂]
  | alt e₁ e₂ ih₁ ih₂ =>
    obtain ⟨h₁, h₂⟩ := Bool.or_eq_false_iff.mp h
    simp [code, ih₁ h₁, ih₂ h₂]
  | plus greedy e ih => cases greedy <;> simp [code, ih h]
  | group i e ih => simp [code, ih h]

theorem Expr.assertionFree_program {e : Expr} (h : e.hasAssertion = false) :
    e.program.AssertionFree := by
  intro k a hk
  rw [program, List.getElem?_toArray] at hk
  rcases List.mem_append.mp (List.mem_of_getElem? hk) with hmem | hmem
  · exact not_assert_mem_code h 0 a hmem
  · cases List.mem_singleton.mp hmem

namespace Program

variable {p : Program}

/-- Without assertions the sides of a position do not count. -/
theorem follow_shift (hp : p.AssertionFree) (sides sides' : Sides) (d pos depth k : Nat)
    (marks : Marks) (f : Frontier) :
    p.follow sides (d + pos) depth k (marks.shift d) (f.shift d) =
      (p.follow sides' pos depth k marks f).shift d := by
  induction depth generalizing k marks f with
  | zero => rfl
  | succ depth ih =>
    have hseen : (f.shift d).hasSeen k = f.hasSeen k := rfl
    have hvisit : (f.shift d).visit k = (f.visit k).shift d := rfl
    simp only [follow, hseen, hvisit]
    split
    · rfl
    · cases hk : p[k]? with
      | none => rfl
      | some instr =>
        cases instr with
        | chars s => rfl
        | accept => rfl
        | assert a => exact absurd hk (hp k a)
        | mark slot => exact ih (k + 1) ((slot, pos) :: marks) (f.visit k)
        | jump target => exact ih target marks (f.visit k)
        | split first second =>
          simp only [ih first marks (f.visit k), ih second marks]

theorem threadsFrom_shift (hp : p.AssertionFree) (sides sides' : Sides) (d pos : Nat)
    (starts : List Thread) :
    p.threadsFrom sides (d + pos) (starts.map (Thread.shift d)) =
      (p.threadsFrom sides' pos starts).map (Thread.shift d) := by
  have hfold (starts : List Thread) (f : Frontier) :
      (starts.map (Thread.shift d)).foldl
          (fun f t => p.follow sides (d + pos) (p.size + 1) t.place t.marks f) (f.shift d) =
        (starts.foldl
          (fun f t => p.follow sides' pos (p.size + 1) t.place t.marks f) f).shift d := by
    induction starts generalizing f with
    | nil => rfl
    | cons t starts ih =>
      rw [List.map_cons, List.foldl_cons, List.foldl_cons, ← ih]
      exact congrArg (List.foldl _ · _) (follow_shift hp ..)
  have hthreads := congrArg Frontier.threads (hfold starts {})
  exact (congrArg List.reverse hthreads).trans List.map_reverse.symm

theorem advance_shift (d : Nat) (c : Char) (threads : List Thread) :
    p.advance c (threads.map (Thread.shift d)) = (p.advance c threads).map (Thread.shift d) := by
  rw [advance, advance, List.filterMap_map, List.map_filterMap]
  congr 1
  funext t
  simp only [Function.comp_apply, Thread.shift]
  cases p[t.place]? with
  | none => rfl
  | some instr =>
    cases instr with
    | chars s => cases hc : s.contains c <;> simp [hc, Thread.shift]
    | accept | assert | mark | jump | split => rfl

theorem accepts_shift (d : Nat) : p.accepts ∘ Thread.shift d = p.accepts := rfl

/-- What a run ends with, `d` further on. -/
theorem run_shift (hp : p.AssertionFree) (d pos : Nat) (threads : List Thread) (rest : Text) :
    p.run (d + pos) (threads.map (Thread.shift d)) rest =
      (p.run pos threads rest).map fun r => (d + r.1, r.2.shift d) := by
  have haccepted (pos : Nat) (threads : List Thread) :
      (((threads.map (Thread.shift d)).find? p.accepts).map fun t => (d + pos, t.marks)) =
        ((threads.find? p.accepts).map fun t => (pos, t.marks)).map
          fun r => (d + r.1, Marks.shift d r.2) := by
    rw [List.find?_map, accepts_shift, Option.map_map, Option.map_map]
    rfl
  induction rest generalizing pos threads with
  | nil => exact haccepted pos threads
  | cons c cs ih =>
    have hwait : (threads.map (Thread.shift d)).takeWhile (!p.accepts ·) =
        (threads.takeWhile (!p.accepts ·)).map (Thread.shift d) := List.takeWhile_map
    simp only [run, hwait, advance_shift, haccepted]
    cases p.advance c (threads.takeWhile (!p.accepts ·)) with
    | nil => rfl
    | cons t ts =>
      have hnext := threadsFrom_shift hp ⟨some c, cs.head?⟩ ⟨some c, cs.head?⟩ d (pos + 1) (t :: ts)
      rw [List.map_cons] at hnext ⊢
      simp only [Nat.add_assoc, hnext, ih, Option.map_or]

end Program

/-! ## Searches -/

variable {re : Regex}

theorem matchAt?_shift (hp : re.program.AssertionFree) (before before' : Option Char) (d pos : Nat)
    (rest : Text) :
    re.matchAt? before (d + pos) rest = (re.matchAt? before' pos rest).map (Captures.shift d) := by
  have hstart := Program.threadsFrom_shift hp ⟨before, rest.head?⟩ ⟨before', rest.head?⟩ d pos
    [⟨0, []⟩]
  simp only [matchAt?]
  refine (congrArg (fun threads => Option.map _ (re.program.run (d + pos) threads rest))
    hstart).trans ?_
  rw [Program.run_shift hp, Option.map_map, Option.map_map]
  congr 1
  funext r
  simp only [Function.comp_apply, Captures.shift, List.map_map, Span.shift]
  congr 2
  funext i
  exact groupSpan?_shift d r.2 i

theorem scan_shift (hp : re.program.AssertionFree) (before before' : Option Char) (d pos : Nat)
    (rest : Text) :
    re.scan before (d + pos) rest = (re.scan before' pos rest).map (Captures.shift d) := by
  induction rest generalizing before before' pos with
  | nil =>
    rw [scan, scan, matchAt?_shift hp before before']
    cases re.matchAt? before' pos [] <;> rfl
  | cons c cs ih =>
    rw [scan, scan, matchAt?_shift hp before before']
    cases re.matchAt? before' pos (c :: cs) with
    | some m => rfl
    | none => exact ih (some c) (some c) (pos + 1)

/-- From every index on, the search finds what it finds in the rest of the text from there. -/
def SuffixStable (re : Regex) : Prop :=
  ∀ (t : Text) (k : Nat), k ≤ t.length →
    re.find? t k = (re.find? (t.drop k) 0).map (Captures.shift k)

theorem suffixStable_of_assertionFree (hp : re.program.AssertionFree) : re.SuffixStable := by
  intro t k hk
  rw [find?, find?, if_pos hk, if_pos (Nat.zero_le _)]
  exact scan_shift hp _ _ k 0 (t.drop k)

end Regex

end RegexText
