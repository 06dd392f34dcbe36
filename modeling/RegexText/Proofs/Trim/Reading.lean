import RegexText.Pattern.Trim
import RegexText.Proofs.Regex.Inside

/-!
# Reading a trim pattern

What the two expressions for the runs of a trim pattern are, once the pattern has its operators
escaped. Every character that is neither a backslash nor a vertical bar is then read as itself
(`Reader.run_escaped`).

* A pattern that can be read by itself is repeated as the expression that it writes
  (`EdgeRuns.compile_eq_around`).
* A pattern without backslashes writes its alternatives, each as the text that it is
  (`EdgeRuns.parse_escapeOperators`).
* In a pattern with backslashes a backslash and what belongs to it are one item, and every operator
  that is not escaped by one stands for itself (`Reader.exists_run_items`). A backslash at the end
  leaves the group open that the pattern is put into, so such a pattern cannot be read.
-/

namespace RegexText

/-- A character of a trim pattern with the backslash that takes its meaning as an operator away. -/
def escaped (c : Char) : Text := if isTrimOperator c then ['\\', c] else [c]

theorem escaped_eq_self {c : Char} (h : isTrimOperator c = false) : escaped c = [c] :=
  if_neg (ne_true_of_eq_false h)

theorem escapeOperators_eq {p : Text} (h : p ≠ ['|']) : escapeOperators p = p.flatMap escaped :=
  if_neg fun hp => h (beq_iff_eq.mp hp)

theorem length_le_flatMap_escaped (p : Text) : p.length ≤ (p.flatMap escaped).length := by
  induction p with
  | nil => exact Nat.le_refl 0
  | cons c p ih =>
    have hc : 1 ≤ (escaped c).length := by
      unfold escaped
      split <;> simp
    rw [List.flatMap_cons, List.length_append, List.length_cons]
    omega

/-- Whether an operator has a backslash before it, where backslashes are read from the left: one
that follows another is itself escaped. -/
def escapesOperator : Text → Bool
  | '\\' :: c :: p => isTrimOperator c || escapesOperator p
  | _ :: p => escapesOperator p
  | [] => false

theorem escapesOperator_cons {c : Char} {p : Text} (hc : c ≠ '\\') :
    escapesOperator (c :: p) = escapesOperator p := by
  rw [escapesOperator]
  rintro _ _ rfl
  exact absurd rfl hc

theorem escapesOperator_append {v w : Text} (hv : '\\' ∉ v) :
    escapesOperator (v ++ w) = escapesOperator w := by
  induction v with
  | nil => rfl
  | cons c v ih =>
    rw [List.cons_append, escapesOperator_cons fun hc => hv (hc ▸ List.mem_cons_self)]
    exact ih fun hmem => hv (List.mem_cons_of_mem c hmem)

/-- The alternatives of a trim pattern: its parts between vertical bars, or the vertical bar that
the pattern is. -/
def alternatives (p : Text) : List Text := if p = ['|'] then [p] else p.splitOn '|'

namespace Regex

theorem isEscapable_of_isTrimOperator {c : Char} (h : isTrimOperator c) : isEscapable c := by
  have hall : "()[]?\x7b\x7d.*$^+".toList.all isEscapable := by decide
  exact List.all_eq_true.mp hall c (List.contains_iff_mem.mp h)

/-- A run is a greedy loop, but what reads nothing stands in it once. -/
theorem Expr.repeated_run (e : Expr) :
    e.repeated true ⟨1, none⟩ = if e.readsNothing then e else e.plus true := by
  cases h : e.readsNothing <;> simp [repeated, h, atLeast, Count.clip, times]

namespace Reader

variable {r : Reader} {c : Char} {p q t more rest : Text} {steps : Nat}

/-- The expressions as parts, the latest first. -/
def partsOf (es : List Expr) : List Part := (es.map Part.expr).reverse

/-- The reader with more parts read. -/
def pushAll (r : Reader) (es : List Expr) : Reader := { r with parts := partsOf es ++ r.parts }

theorem joinParts_partsOf (es : List Expr) : joinParts (partsOf es) = .concat es := by
  have hparts : (es.map Part.expr).filterMap Part.expr? = es := by
    rw [List.filterMap_map]
    exact List.filterMap_some
  rw [joinParts, partsOf, List.reverse_reverse, hparts]

theorem partsOf_concat (es : List Expr) (e : Expr) :
    partsOf (es ++ [e]) = .expr e :: partsOf es := by
  rw [partsOf, List.map_append, List.reverse_append]
  rfl

theorem pushAll_cons (r : Reader) (e : Expr) (es : List Expr) :
    r.pushAll (e :: es) = (r.push e).pushAll es := by
  simp [pushAll, push, partsOf]

/-- A character is read as itself where an operator has its backslash. -/
theorem run_escaped (hmodes : r.modes = {}) (hbackslash : c ≠ '\\') (hbar : c ≠ '|') (steps : Nat)
    (t : Text) : run r (steps + 1) (escaped c ++ t) =
      run (r.push (.chars (.single c))) steps t := by
  unfold escaped
  split
  · rename_i hc
    have hread : Atom.ofEscape {} (c :: t) = .ok (.literal c, t) := by
      unfold Atom.ofEscape
      exact if_pos (isEscapable_of_isTrimOperator hc)
    rw [List.cons_append, run_cons hmodes, step, hmodes]
    simp only [List.cons_append, List.nil_append, hread]
    rfl
  · rename_i hc
    have hstep : r.step c t = .ok (r.push (.chars (.single c)), t) := by
      unfold step
      split
      all_goals first
        | exact absurd rfl hbackslash
        | exact absurd rfl hbar
        | exact absurd (by decide) hc
        | (rw [hmodes]; rfl)
    rw [List.singleton_append, run_cons hmodes, hstep]
    rfl

/-! ## Patterns without backslashes -/

/-- The reader inside a pattern: `done` are the alternatives read, and `u` is what has been read of
the next one. -/
def reading (done : List Text) (u : Text) : Reader where
  modes := {}
  branches := (done.map Expr.literal).reverse
  parts := partsOf (u.map fun c => .chars (.single c))

theorem nextBranch_reading (done : List Text) (u : Text) :
    (reading done u).nextBranch = reading (done ++ [u]) [] := by
  rw [nextBranch, reading, reading, joinParts_partsOf, List.map_append, List.reverse_append]
  rfl

theorem push_reading (done : List Text) (u : Text) (c : Char) :
    (reading done u).push (.chars (.single c)) = reading done (u ++ [c]) := by
  rw [push, reading, reading, List.map_append, List.map_singleton, partsOf_concat]

theorem expr_reading (done : List Text) (u : Text) :
    (reading done u).expr = .firstOf ((done ++ [u]).map Expr.literal) := by
  rw [expr, reading, joinParts_partsOf, List.reverse_cons, List.reverse_reverse, List.map_append]
  rfl

theorem modifyHead_nil_append (ts : List Text) : ts.modifyHead ([] ++ ·) = ts :=
  congrFun List.modifyHead_id ts

theorem run_reading (hbackslash : '\\' ∉ p) (done : List Text) (u : Text) (extra : Nat) :
    run (reading done u) (p.length + 1 + extra) (p.flatMap escaped) =
      .ok (.firstOf ((done ++ (p.splitOn '|').modifyHead (u ++ ·)).map Expr.literal)) := by
  induction p generalizing done u with
  | nil =>
    rw [List.flatMap_nil, Nat.add_right_comm, run_nil rfl]
    show Except.ok (reading done u).expr = _
    rw [expr_reading]
    simp
  | cons c p ih =>
    have hp : '\\' ∉ p := fun hmem => hbackslash (List.mem_cons_of_mem c hmem)
    have hc : c ≠ '\\' := fun he => hbackslash (he ▸ List.mem_cons_self)
    have hlength : (c :: p).length + 1 + extra = p.length + 1 + extra + 1 := by
      rw [List.length_cons]
      omega
    rw [hlength, List.flatMap_cons, List.splitOn_eq_splitOnP,
      List.splitOnP_cons_eq_if_modifyHead, ← List.splitOn_eq_splitOnP]
    by_cases hbar : c = '|'
    · subst hbar
      have hstep : run (reading done u) (p.length + 1 + extra + 1)
          (escaped '|' ++ p.flatMap escaped) =
            run (reading (done ++ [u]) []) (p.length + 1 + extra) (p.flatMap escaped) := by
        rw [← nextBranch_reading]
        rfl
      rw [hstep, ih hp, modifyHead_nil_append]
      simp
    · rw [run_escaped rfl hc hbar, push_reading, ih hp]
      simp [hbar, Function.comp_def]

/-! ## Patterns with backslashes -/

/-- A text in which a group that is open before it stays open. -/
def StaysOpen (t : Text) : Prop :=
  ∀ (r : Reader) (steps : Nat) (e : Expr), r.modes = {} → r.outer ≠ [] → run r steps t ≠ .ok e

theorem staysOpen_nil : StaysOpen [] := by
  intro r steps e hmodes houter h
  cases steps with
  | zero => cases h
  | succ steps =>
    rw [run_nil hmodes, List.isEmpty_eq_false_iff.mpr houter] at h
    cases h

theorem StaysOpen.dollar (ht : StaysOpen t) : StaysOpen ('$' :: t) := by
  intro r steps e hmodes houter h
  cases steps with
  | zero => cases h
  | succ steps =>
    rw [run_cons hmodes] at h
    exact ht (r.push (.assert (Reader.dollar r.modes))) steps e hmodes houter h

theorem of_repeatLast? {r' : Reader} {marked : Bool} {n : Expr.Count}
    (h : r.repeatLast? marked n = .ok r') : r'.modes = r.modes ∧ r'.outer = r.outer := by
  unfold repeatLast? at h
  split at h
  · cases h
    exact ⟨rfl, rfl⟩
  · cases h

theorem StaysOpen.plus (ht : StaysOpen t) (hlazy : t.head? ≠ some '?') :
    StaysOpen ('+' :: t) := by
  intro r steps e hmodes houter h
  cases steps with
  | zero => cases h
  | succ steps =>
    have hmark : lazyMark t = (false, t) := by
      unfold lazyMark
      split
      · exact absurd rfl hlazy
      · rfl
    have hplus : r.step '+' t = (r.repeatLast? false ⟨1, none⟩).map (·, t) := by
      show step.repeated r ⟨1, none⟩ t = _
      rw [step.repeated, hmark]
    rw [run_cons hmodes, hplus] at h
    obtain ⟨⟨r₁, rest⟩, hstep, hrun⟩ := bind_eq_ok.mp h
    obtain ⟨_, hrepeat, he⟩ := map_eq_ok.mp hstep
    cases he
    obtain ⟨hmodes', houter'⟩ := of_repeatLast? hrepeat
    exact ht _ steps e (hmodes'.trans hmodes) (houter' ▸ houter) hrun

/-- A character that neither is an operator nor begins an escape. -/
def IsPlain (c : Char) : Prop := isTrimOperator c = false ∧ c ≠ '\\'

/-- A character that means something is plain, if neither an operator nor the backslash does. -/
theorem isPlain_of_isSome {α : Type} {f : Char → Option α}
    (hoperators : "()[]?\x7b\x7d.*$^+".toList.all fun d => (f d).isNone)
    (hbackslash : f '\\' = none) (h : (f c).isSome) : IsPlain c := by
  constructor
  · rw [Bool.eq_false_iff]
    intro hc
    have hnone := List.all_eq_true.mp hoperators c (List.contains_iff_mem.mp hc)
    rw [Option.isNone_iff_eq_none.mp hnone] at h
    cases h
  · rintro rfl
    rw [hbackslash] at h
    cases h

theorem isPlain_of_hexValue? (h : (hexValue? c).isSome) : IsPlain c :=
  isPlain_of_isSome (by decide) rfl h

theorem isPlain_of_property? (h : (property? [c]).isSome) : IsPlain c :=
  isPlain_of_isSome (f := fun c => property? [c]) (by decide) rfl h

/-- What a group holds before its end: a pattern with its operators escaped. -/
def inGroup (q more : Text) : Text := q.flatMap escaped ++ ')' :: more

/-- A plain character at the front of what a group holds is one of the pattern. -/
theorem exists_of_inGroup {cs : Text} (hc : IsPlain c) (h : inGroup q more = c :: cs) :
    ∃ q', q = c :: q' ∧ cs = inGroup q' more := by
  cases q with
  | nil =>
    cases h
    exact absurd hc.1 (by decide)
  | cons d q =>
    rw [inGroup, List.flatMap_cons, escaped] at h
    split at h
    · cases h
      exact absurd rfl hc.2
    · cases h
      exact ⟨q, rfl, rfl⟩

theorem inGroup_ne_brace (cs : Text) : inGroup q more ≠ '\x7b' :: cs := by
  intro h
  cases q with
  | nil => cases h
  | cons d q =>
    rw [inGroup, List.flatMap_cons, escaped] at h
    split at h
    · cases h
    · rename_i hd
      cases h
      exact hd (by decide)

/-- `rest` is what a group holds after plain characters of its pattern `q`. -/
def Leaves (q more rest : Text) : Prop :=
  ∃ used q', q = used ++ q' ∧ (∀ d ∈ used, IsPlain d) ∧ rest = inGroup q' more

theorem leaves_refl (q more : Text) : Leaves q more (inGroup q more) :=
  ⟨[], q, rfl, fun _ hd => (List.not_mem_nil hd).elim, rfl⟩

theorem Leaves.cons (hc : IsPlain c) (h : Leaves q more rest) : Leaves (c :: q) more rest := by
  obtain ⟨used, q', rfl, hused, hrest⟩ := h
  refine ⟨c :: used, q', rfl, fun d hd => ?_, hrest⟩
  rcases List.mem_cons.mp hd with rfl | hd
  · exact hc
  · exact hused d hd

theorem isSome_of_hexNumber {ds : List Char} {n v : Nat} (h : hexNumber n ds = .ok v) :
    ∀ d ∈ ds, (hexValue? d).isSome := by
  induction ds generalizing n with
  | nil => exact fun _ hd => nomatch hd
  | cons c ds ih =>
    rw [hexNumber] at h
    split at h
    · cases h
    · rename_i hc
      intro d hd
      rcases List.mem_cons.mp hd with rfl | hd
      · rw [hc]
        rfl
      · exact ih h d hd

theorem leaves_of_readChars {n : Nat} {ds : List Char}
    (h : readChars {} n (inGroup q more) = .ok (ds, rest)) (hds : ∀ d ∈ ds, IsPlain d) :
    Leaves q more rest := by
  induction n generalizing q ds with
  | zero =>
    cases h
    exact leaves_refl q more
  | succ n ih =>
    rw [readChars, skipBlanks_eq] at h
    split at h
    · cases h
    · rename_i c cs hfront
      obtain ⟨⟨ds', rest'⟩, hread, he⟩ := bind_eq_ok.mp h
      cases he
      obtain ⟨q', rfl, rfl⟩ := exists_of_inGroup (hds c List.mem_cons_self) hfront
      exact (ih hread fun d hd => hds d (List.mem_cons_of_mem c hd)).cons
        (hds c List.mem_cons_self)

theorem leaves_of_readCodePoint {width : Nat} {a : Char}
    (h : readCodePoint {} width (inGroup q more) = .ok (a, rest)) : Leaves q more rest := by
  unfold readCodePoint at h
  rw [skipBlanks_eq] at h
  split at h
  · exact absurd ‹_› (inGroup_ne_brace _)
  · obtain ⟨⟨ds, rest'⟩, hread, h⟩ := bind_eq_ok.mp h
    obtain ⟨n, hn, h⟩ := bind_eq_ok.mp h
    obtain ⟨a', -, h⟩ := bind_eq_ok.mp h
    cases h
    exact leaves_of_readChars hread fun d hd => isPlain_of_hexValue? (isSome_of_hexNumber hn d hd)

theorem leaves_of_readProperty {s : CharClass}
    (h : readProperty {} (inGroup q more) = .ok (s, rest)) : Leaves q more rest := by
  unfold readProperty at h
  rw [skipBlanks_eq] at h
  split at h
  · cases h
  · exact absurd ‹_› (inGroup_ne_brace _)
  · rename_i c cs _ hfront
    split at h
    · cases h
    · rename_i hname
      cases h
      have hc : IsPlain c := isPlain_of_property? (hname ▸ rfl)
      obtain ⟨q', rfl, rfl⟩ := exists_of_inGroup hc hfront
      exact (leaves_refl q' more).cons hc

theorem leaves_of_property {negated : Bool} {a : Atom}
    (h : Atom.ofEscape.property {} negated (inGroup q more) = .ok (a, rest)) :
    Leaves q more rest := by
  obtain ⟨⟨s, rest'⟩, hread, he⟩ := map_eq_ok.mp h
  cases he
  exact leaves_of_readProperty hread

theorem leaves_of_readBoundary {a : Assertion}
    (h : readBoundary {} (inGroup q more) = .ok (a, rest)) : Leaves q more rest := by
  unfold readBoundary at h
  split at h
  · exact absurd ‹_› (inGroup_ne_brace _)
  · cases h
    exact leaves_refl q more

/-- Behind its first character an escape reads nothing but plain ones. -/
theorem leaves_of_ofEscape {a : Atom}
    (h : Atom.ofEscape {} (c :: inGroup q more) = .ok (a, rest)) : Leaves q more rest := by
  have hliteral {width : Nat}
      (h : Atom.ofEscape.literal (readCodePoint {} width (inGroup q more)) = .ok (a, rest)) :
      Leaves q more rest := by
    obtain ⟨⟨b, rest'⟩, hread, he⟩ := map_eq_ok.mp h
    cases he
    exact leaves_of_readCodePoint hread
  unfold Atom.ofEscape at h
  dsimp only at h
  split at h
  · cases h
    exact leaves_refl q more
  · split at h
    any_goals (cases h; exact leaves_refl q more)
    · exact hliteral h
    · exact hliteral h
    · exact hliteral h
    · exact leaves_of_property h
    · exact leaves_of_property h
    · obtain ⟨⟨b, rest'⟩, hread, he⟩ := map_eq_ok.mp h
      cases he
      exact leaves_of_readBoundary hread
    · cases h

variable {e : Expr}

/-- A backslash at the end of a pattern takes the end of the group with it. -/
theorem run_backslash_close (hmodes : r.modes = {}) (steps : Nat) (more : Text) :
    run r (steps + 1) (inGroup ['\\'] more) = run (r.push (.chars (.single ')'))) steps more := by
  show run r (steps + 1) ('\\' :: ')' :: more) = _
  rw [run_cons hmodes, step, hmodes]
  rfl

/-- Any other backslash begins an item, to which no operator belongs. -/
theorem exists_run_escape (hmodes : r.modes = {}) (hc : isTrimOperator c = false)
    (h : run r (steps + 1) (inGroup ('\\' :: c :: q) more) = .ok e) :
    ∃ item used q', q = used ++ q' ∧ (∀ d ∈ used, IsPlain d) ∧
      run (r.push item) steps (inGroup q' more) = .ok e := by
  have hfront : inGroup ('\\' :: c :: q) more = '\\' :: c :: inGroup q more := by
    rw [inGroup, List.flatMap_cons, List.flatMap_cons, escaped_eq_self (by decide),
      escaped_eq_self hc]
    rfl
  rw [hfront, run_cons hmodes] at h
  obtain ⟨⟨r₁, rest⟩, hstep, hrun⟩ := bind_eq_ok.mp h
  obtain ⟨⟨a, rest'⟩, hread, he⟩ := map_eq_ok.mp hstep
  cases he
  rw [hmodes] at hread
  obtain ⟨used, q', hq, hused, rfl⟩ := leaves_of_ofEscape hread
  exact ⟨ofAtom r.modes a, used, q', hq, hused, hrun⟩

/-- A pattern that can be read inside a group is read as one item after the other, and every
operator in it is an item. -/
theorem exists_run_items (hbar : '|' ∉ p) (hescapes : escapesOperator p = false)
    (hmore : StaysOpen more) (hmodes : r.modes = {}) (houter : r.outer ≠ [])
    (h : run r steps (inGroup p more) = .ok e) :
    ∃ es left, run (r.pushAll es) left (')' :: more) = .ok e ∧
      ∀ c ∈ p, isTrimOperator c → .chars (.single c) ∈ es := by
  induction steps generalizing r p with
  | zero => cases h
  | succ steps ih =>
    cases p with
    | nil => exact ⟨[], steps + 1, h, fun _ hc => nomatch hc⟩
    | cons c p =>
      have hbehind : '|' ∉ p := fun hmem => hbar (List.mem_cons_of_mem c hmem)
      by_cases hc : c = '\\'
      · subst hc
        cases p with
        | nil =>
          rw [run_backslash_close hmodes] at h
          exact absurd h (hmore _ steps e hmodes houter)
        | cons d q =>
          obtain ⟨hd, hq⟩ := Bool.or_eq_false_iff.mp hescapes
          obtain ⟨item, used, q', rfl, hused, hrun⟩ := exists_run_escape hmodes hd h
          rw [escapesOperator_append fun hmem => (hused _ hmem).2 rfl] at hq
          have hq' : '|' ∉ q' := fun hmem =>
            hbehind (List.mem_cons_of_mem _ (List.mem_append_right _ hmem))
          obtain ⟨es, left, hrun', hes⟩ := ih (r := r.push item) hq' hq hmodes houter hrun
          rw [← pushAll_cons] at hrun'
          refine ⟨item :: es, left, hrun', fun x hx hop => ?_⟩
          -- the operators are all behind the escape
          rcases List.mem_cons.mp hx with rfl | hx
          · exact absurd hop (by decide)
          rcases List.mem_cons.mp hx with rfl | hx
          · exact absurd hop (ne_true_of_eq_false hd)
          rcases List.mem_append.mp hx with hx | hx
          · exact absurd hop (ne_true_of_eq_false (hused x hx).1)
          · exact List.mem_cons_of_mem _ (hes x hx hop)
      · have hnotbar : c ≠ '|' := fun he => hbar (he ▸ List.mem_cons_self)
        rw [inGroup, List.flatMap_cons, List.append_assoc, run_escaped hmodes hc hnotbar] at h
        obtain ⟨es, left, hrun, hes⟩ := ih (r := r.push (.chars (.single c))) hbehind
          (escapesOperator_cons hc ▸ hescapes) hmodes houter h
        rw [← pushAll_cons] at hrun
        refine ⟨.chars (.single c) :: es, left, hrun, fun d hd hop => ?_⟩
        rcases List.mem_cons.mp hd with rfl | hd
        · exact List.mem_cons_self
        · exact List.mem_cons_of_mem _ (hes d hd hop)

/-- The reader of a group without a number, with `parts` read before it. -/
def ofGroup (parts : List Part) : Reader where
  modes := {}
  outer := [⟨none, {}, [], parts⟩]

/-- A group is read as the row of its items, and becomes one more part. -/
theorem exists_run_ofGroup {parts : List Part} (hbar : '|' ∉ p)
    (hescapes : escapesOperator p = false) (hmore : StaysOpen more)
    (h : run (ofGroup parts) steps (inGroup p more) = .ok e) :
    ∃ es left, run { modes := {}, parts := .expr (.concat es) :: parts } left more = .ok e ∧
      ∀ c ∈ p, isTrimOperator c → .chars (.single c) ∈ es := by
  obtain ⟨es, left, hclose, hes⟩ :=
    exists_run_items hbar hescapes hmore rfl (List.cons_ne_nil _ _) h
  have hexpr : (({ modes := {} } : Reader).pushAll es).expr = .concat es := by
    rw [expr, pushAll, List.append_nil, joinParts_partsOf]
    rfl
  cases left with
  | zero => cases hclose
  | succ left =>
    have hgroup := run_close (r := ({ modes := {} } : Reader).pushAll es) rfl rfl [] parts left more
    rw [hexpr] at hgroup
    exact ⟨es, left, hgroup ▸ hclose, hes⟩

end Reader

end Regex

/-! ## The runs of an expression -/

namespace EdgeRuns

open Regex (Expr ofExpr)
open Regex.Reader

/-- The runs of what the expression matches. -/
def around (e : Expr) : EdgeRuns :=
  ⟨.ofExpr (.seq (.assert .textStart) (e.repeated true ⟨1, none⟩)),
    .ofExpr (.seq (e.repeated true ⟨1, none⟩) (.assert .textEnd))⟩

theorem literal_eq_around (t : Text) : literal t = around (.literal t) := rfl

theorem noQuestion_escapeOperators (p : Text) : NoQuestion (escapeOperators p) := by
  -- A question mark comes after a backslash, so none opens the text.
  have hescape (p : Text) :
      NoQuestion (p.flatMap escaped) ∧ (p.flatMap escaped).head? ≠ some '?' := by
    induction p with
    | nil => simp [NoQuestion]
    | cons c p ih =>
      obtain ⟨ht, hhead⟩ := ih
      rw [List.flatMap_cons, escaped]
      split
      · have hc := (noQuestion_cons_iff (c := c)).mpr ⟨ht, fun _ => hhead⟩
        exact ⟨noQuestion_cons_iff.mpr ⟨hc, fun h => absurd h (by decide)⟩,
          fun h => absurd (Option.some.inj h) (by decide)⟩
      · rename_i hc
        refine ⟨noQuestion_cons_iff.mpr ⟨ht, fun _ => hhead⟩, fun h => hc ?_⟩
        rw [Option.some.inj h]
        decide
  by_cases hp : p = ['|']
  · have hbar : NoQuestion ['|'] := noQuestion_cons_iff.mpr ⟨(hescape []).1, by decide⟩
    subst hp
    exact noQuestion_cons_iff.mpr ⟨hbar, by decide⟩
  · rw [escapeOperators_eq hp]
    exact (hescape p).1

theorem parse_head {inner : Text} {e : Expr} (hquestion : NoQuestion inner)
    (h : Regex.parse {} inner = .ok e) :
    Regex.parse {} ("^(?:".toList ++ inner ++ ")+".toList) =
      .ok (.seq (.assert .textStart) (e.repeated true ⟨1, none⟩)) := by
  have hmore : ':' ∉ ['+'] := by decide
  obtain ⟨left, nextGroup, names, hrun⟩ :=
    exists_run_group hmore hquestion h [] [.expr (.assert .textStart)] 4
  have hlength : ("^(?:".toList ++ inner ++ ")+".toList).length + 1 =
      inner.length + 1 + 4 + 2 := by
    simp
  rw [Regex.parse, hlength]
  exact hrun

theorem parse_tail {inner : Text} {e : Expr} (hquestion : NoQuestion inner)
    (h : Regex.parse {} inner = .ok e) :
    Regex.parse {} ("(?:".toList ++ inner ++ ")+$".toList) =
      .ok (.seq (e.repeated true ⟨1, none⟩) (.assert .textEnd)) := by
  have hmore : ':' ∉ ['+', '$'] := by decide
  obtain ⟨left, nextGroup, names, hrun⟩ := exists_run_group hmore hquestion h [] [] 5
  have hlength : ("(?:".toList ++ inner ++ ")+$".toList).length + 1 =
      inner.length + 1 + 5 + 1 := by
    simp
  rw [Regex.parse, hlength]
  exact hrun

theorem compile_eq_around {inner : Text} {e : Expr} (hquestion : NoQuestion inner)
    (h : Regex.parse {} inner = .ok e) : compile inner = .ok (around e) := by
  rw [compile, Regex.compile, Regex.compile, parse_head hquestion h, parse_tail hquestion h]
  rfl

/-! ## What a pattern writes -/

/-- Without backslashes a trim pattern writes its alternatives, each as the text that it is. -/
theorem parse_escapeOperators {p : Text} (h : '\\' ∉ p) :
    Regex.parse {} (escapeOperators p) = .ok (.firstOf ((alternatives p).map Expr.literal)) := by
  unfold alternatives
  split
  · rename_i hp
    subst hp
    rfl
  · rename_i hp
    obtain ⟨extra, hextra⟩ := Nat.exists_eq_add_of_le (length_le_flatMap_escaped p)
    rw [escapeOperators_eq hp, Regex.parse, hextra, Nat.add_right_comm]
    refine (run_reading h [] [] extra).trans ?_
    rw [List.nil_append, modifyHead_nil_append]

variable {p : Text} {e : Expr}

/-- Where the expression for the run at the start can be read, it repeats a row of items. -/
theorem exists_parse_head (hbar : '|' ∉ p) (hescapes : escapesOperator p = false)
    (h : Regex.parse {} ("^(?:".toList ++ p.flatMap escaped ++ ")+".toList) = .ok e) :
    ∃ es, e = .seq (.assert .textStart) ((Expr.concat es).repeated true ⟨1, none⟩) ∧
      ∀ c ∈ p, isTrimOperator c → .chars (.single c) ∈ es := by
  have hmore : StaysOpen ['+'] := staysOpen_nil.plus (by decide)
  have hlength : ("^(?:".toList ++ p.flatMap escaped ++ ")+".toList).length + 1 =
      (p.flatMap escaped).length + 5 + 2 := by
    simp
  have hrun : run (ofGroup [.expr (.assert .textStart)]) ((p.flatMap escaped).length + 5)
      (inGroup p ['+']) = .ok e := by
    rw [Regex.parse, hlength] at h
    exact h
  obtain ⟨es, left, hrest, hes⟩ := exists_run_ofGroup hbar hescapes hmore hrun
  match left, hrest with
  | left + 2, hrest =>
    cases hrest
    exact ⟨es, rfl, hes⟩

/-- Where the expression for the run at the end can be read, it repeats a row of items. -/
theorem exists_parse_tail (hbar : '|' ∉ p) (hescapes : escapesOperator p = false)
    (h : Regex.parse {} ("(?:".toList ++ p.flatMap escaped ++ ")+$".toList) = .ok e) :
    ∃ es, e = .seq ((Expr.concat es).repeated true ⟨1, none⟩) (.assert .textEnd) ∧
      ∀ c ∈ p, isTrimOperator c → .chars (.single c) ∈ es := by
  have hmore : StaysOpen ['+', '$'] := staysOpen_nil.dollar.plus (by decide)
  have hlength : ("(?:".toList ++ p.flatMap escaped ++ ")+$".toList).length + 1 =
      (p.flatMap escaped).length + 6 + 1 := by
    simp
  have hrun : run (ofGroup []) ((p.flatMap escaped).length + 6) (inGroup p ['+', '$']) = .ok e := by
    rw [Regex.parse, hlength] at h
    exact h
  obtain ⟨es, left, hrest, hes⟩ := exists_run_ofGroup hbar hescapes hmore hrun
  match left, hrest with
  | left + 3, hrest =>
    cases hrest
    exact ⟨es, rfl, hes⟩

end EdgeRuns

end RegexText
