import RegexText.Nesting.Stack
import RegexText.Text.Basic

/-!
# Well-nested marks

Which sequences of brackets and quote marks are well nested is said by a grammar (`WellNested`). A
stack that is shown the marks one by one accepts exactly these: it ends empty, and every mark opens
something, closes what was opened last, or stands in a quote (`Stack.AdmitsAll`).

* One mark: all that it can do to a stack (`Stack.observes`), and what every stack keeps, whatever it
  is shown: it holds closing characters, a quote mark at most as the innermost
  (`Stack.Proper.observe`).
* A whole sequence: well-nested marks leave a stack as it was, unless a quote is open in it
  (`WellNested.admitsAll`), and marks that empty a stack close what is open in it one after the
  other, with well-nested marks in between (`closes_of_admitsAll`).

The main statement is `accepts_iff_wellNested`.
-/

namespace RegexText.Nesting

/-- The brackets, each with the one that closes it. -/
def bracketPairs : List (Char × Char) := [('(', ')'), ('[', ']'), ('\x7b', '\x7d')]

/-- The marks that open and close a quote. -/
def quoteMarks : List Char := ['"', '\'']

/-- The well-nested sequences of marks. In a quote any marks may stand but the one that closes it.
-/
inductive WellNested : Text → Prop where
  | nil : WellNested []
  | bracket {l r : Char} {inner later : Text} (h : (l, r) ∈ bracketPairs)
    (hinner : WellNested inner) (hlater : WellNested later) :
    WellNested (l :: (inner ++ r :: later))
  | quote {q : Char} {inner later : Text} (h : q ∈ quoteMarks)
    (hinner : ∀ c ∈ inner, isPairing c = true ∧ c ≠ q) (hlater : WellNested later) :
    WellNested (q :: (inner ++ q :: later))

variable {s : Stack} {c d q : Char} {cs inner later : Text}

/-! ## The characters -/

theorem isQuote_iff : isQuote c = true ↔ c ∈ quoteMarks := by
  simp [isQuote, quoteMarks]

theorem closerOf?_eq_some_iff :
    closerOf? c = some d ↔ (c, d) ∈ bracketPairs ∨ c ∈ quoteMarks ∧ d = c := by
  unfold closerOf?
  split <;> simp_all [bracketPairs, quoteMarks, eq_comm]

/-- What closes a bracket opens nothing. -/
theorem closerOf?_of_mem_bracketPairs (h : (c, d) ∈ bracketPairs) :
    closerOf? d = none ∧ isQuote d = false := by
  simp only [bracketPairs, List.mem_cons, Prod.mk.injEq, List.not_mem_nil, or_false] at h
  rcases h with ⟨-, rfl⟩ | ⟨-, rfl⟩ | ⟨-, rfl⟩ <;> decide

/-- The marks that close a bracket or a quote. -/
def closingMarks : List Char := bracketPairs.map (·.2) ++ quoteMarks

theorem mem_closingMarks_of_closerOf? (h : closerOf? c = some d) : d ∈ closingMarks := by
  rcases closerOf?_eq_some_iff.mp h with h | ⟨hq, rfl⟩
  · exact List.mem_append_left _ (List.mem_map.mpr ⟨_, h, rfl⟩)
  · exact List.mem_append_right _ hq

theorem closerOf?_of_mem_closingMarks (h : c ∈ closingMarks) (hq : isQuote c = false) :
    closerOf? c = none := by
  rcases List.mem_append.mp h with h | h
  · obtain ⟨⟨l, r⟩, hpair, rfl⟩ := List.mem_map.mp h
    exact (closerOf?_of_mem_bracketPairs hpair).1
  · rw [isQuote_iff.mpr h] at hq
    cases hq

theorem isPairing_of_mem_bracketPairs (h : (c, d) ∈ bracketPairs) :
    isPairing c = true ∧ isPairing d = true := by
  simp only [bracketPairs, List.mem_cons, Prod.mk.injEq, List.not_mem_nil, or_false] at h
  rcases h with ⟨rfl, rfl⟩ | ⟨rfl, rfl⟩ | ⟨rfl, rfl⟩ <;> decide

theorem isPairing_of_mem_quoteMarks (h : c ∈ quoteMarks) : isPairing c = true := by
  simp only [quoteMarks, List.mem_cons, List.not_mem_nil, or_false] at h
  rcases h with rfl | rfl <;> decide

theorem WellNested.isPairing (h : WellNested cs) : ∀ c ∈ cs, isPairing c = true := by
  induction h with
  | nil => simp
  | bracket hpair _ _ ihinner ihlater =>
    obtain ⟨hl, hr⟩ := isPairing_of_mem_bracketPairs hpair
    simp only [List.forall_mem_cons, List.forall_mem_append]
    exact ⟨hl, ihinner, hr, ihlater⟩
  | quote hq hinner _ ihlater =>
    have hmark := isPairing_of_mem_quoteMarks hq
    simp only [List.forall_mem_cons, List.forall_mem_append]
    exact ⟨hmark, fun c hc => (hinner c hc).1, hmark, ihlater⟩

namespace Stack

/-! ## One mark -/

/-- All that the mark `c` can do to a stack. -/
inductive Observes (s : Stack) (c : Char) : Reaction × Stack → Prop where
  | closed {outer : Stack} (hs : s = c :: outer) : Observes s c (.closed, outer)
  | quoted {q : Char} {outer : Stack} (hs : s = q :: outer) (hq : isQuote q = true) (hc : c ≠ q) :
    Observes s c (.ignored, s)
  | opened {d : Char} (hs : ∀ t ∈ s.head?, isQuote t = false) (hc : closerOf? c = some d) :
    Observes s c (.opened, d :: s)
  | truncated (hs : ∀ t ∈ s.head?, isQuote t = false) (hc : closerOf? c = none) (hmem : c ∈ s) :
    Observes s c (.truncated, (s.dropWhile (· != c)).tail)
  | idle (hs : s = []) (hc : closerOf? c = none) : Observes s c (.ignored, s)
  | malformed (hs : ∀ t ∈ s.head?, isQuote t = false) (hc : closerOf? c = none) (hmem : c ∉ s)
    (hne : s ≠ []) : Observes s c (.malformed, s)

theorem observes_observeInside (hs : ∀ t ∈ s.head?, isQuote t = false) (c : Char) :
    Observes s c (s.observeInside c) := by
  unfold observeInside
  split
  · exact .opened hs ‹_›
  · rename_i hc
    split
    · exact .truncated hs hc (List.contains_iff_mem.mp ‹_›)
    · rename_i hmem
      rw [List.contains_iff_mem] at hmem
      split
      · exact .idle (List.isEmpty_iff.mp ‹_›) hc
      · rename_i hne
        exact .malformed hs hc hmem fun he => hne (List.isEmpty_iff.mpr he)

theorem observes (s : Stack) (c : Char) : Observes s c (s.observe c) := by
  cases s with
  | nil => exact observes_observeInside (by simp) c
  | cons t outer =>
    rw [observe]
    split
    · rename_i htop
      exact .closed (by rw [eq_of_beq htop])
    · rename_i htop
      split
      · exact .quoted rfl ‹_› fun he => htop (beq_iff_eq.mpr he.symm)
      · rename_i hq
        exact observes_observeInside (by simpa using hq) c

theorem observe_innermost (c : Char) (s : Stack) : observe (c :: s) c = (.closed, s) := by
  simp [observe]

theorem observe_of_isQuote (hq : isQuote q = true) (hc : c ≠ q) (s : Stack) :
    observe (q :: s) c = (.ignored, q :: s) := by
  simp [observe, hq, hc.symm]

/-- What opens something does so where nothing that itself opens something is innermost. -/
theorem observe_of_closerOf? (hs : ∀ t ∈ s.head?, closerOf? t = none) (hc : closerOf? c = some d) :
    s.observe c = (.opened, d :: s) := by
  cases s with
  | nil => simp [observe, observeInside, hc]
  | cons t s =>
    have ht : closerOf? t = none := hs t rfl
    have hne : t ≠ c := by
      rintro rfl
      rw [ht] at hc
      cases hc
    have hquote : isQuote t = false := by
      refine Bool.eq_false_iff.mpr fun hq => ?_
      rw [closerOf?_eq_some_iff.mpr (.inr ⟨isQuote_iff.mp hq, rfl⟩)] at ht
      cases ht
    simp [observe, observeInside, hc, hne, hquote]

/-- The mark `c` is in order: it is not malformed, closes nothing but what is innermost, and counts
for nothing only where something is open. -/
def Admits (s : Stack) (c : Char) : Prop :=
  (s.observe c).1 ≠ .truncated ∧ (s.observe c).1 ≠ .malformed ∧
    ((s.observe c).1 = .ignored → s ≠ [])

instance (s : Stack) (c : Char) : Decidable (s.Admits c) :=
  inferInstanceAs (Decidable (_ ∧ _ ∧ _))

/-- Only characters that close something are on the stack, and no quote mark but as the innermost.
-/
structure Proper (s : Stack) : Prop where
  closers : ∀ c ∈ s, c ∈ closingMarks
  outer_brackets : ∀ c ∈ s.tail, isQuote c = false

theorem proper_nil : Proper [] := ⟨by simp, by simp⟩

theorem Proper.head_brackets (h : s.Proper) (hs : ∀ t ∈ s.head?, isQuote t = false) :
    ∀ t ∈ s, isQuote t = false := by
  cases s with
  | nil => simp
  | cons t outer => exact List.forall_mem_cons.mpr ⟨hs t rfl, h.outer_brackets⟩

theorem Proper.of_suffix {outer : Stack} (h : s.Proper) (hs : outer <:+ s) : outer.Proper := by
  refine ⟨fun c hc => h.closers c (hs.mem hc), fun c hc => h.outer_brackets c ?_⟩
  obtain ⟨inner, rfl⟩ := hs
  cases inner with
  | nil => exact hc
  | cons t inner => exact List.mem_append_right inner (List.mem_of_mem_tail hc)

/-- A stack stays proper, whatever it is shown. -/
theorem Proper.observe (h : s.Proper) (c : Char) : (s.observe c).2.Proper := by
  have hstep := s.observes c
  generalize s.observe c = step at hstep ⊢
  cases hstep with
  | closed hs => exact h.of_suffix (hs ▸ List.suffix_cons c _)
  | quoted _ _ _ => exact h
  | opened hs hc =>
    exact ⟨List.forall_mem_cons.mpr ⟨mem_closingMarks_of_closerOf? hc, h.closers⟩, h.head_brackets hs⟩
  | truncated _ _ _ =>
    exact h.of_suffix ((List.tail_suffix _).trans (List.dropWhile_suffix _))
  | idle _ _ => exact h
  | malformed _ _ _ _ => exact h

/-- A bracket that closes all that is open inside it closes no quote. -/
theorem Proper.truncated_brackets {after : Stack} (h : s.Proper)
    (hc : s.observe c = (.truncated, after)) :
    ∃ dropped, s = dropped ++ after ∧ ∀ q ∈ dropped, isQuote q = false := by
  have hstep := s.observes c
  rw [hc] at hstep
  cases hstep with
  | truncated hs _ _ =>
    obtain ⟨dropped, hdropped⟩ : (s.dropWhile (· != c)).tail <:+ s :=
      (List.tail_suffix _).trans (List.dropWhile_suffix _)
    exact ⟨dropped, hdropped.symm, fun q hq =>
      h.head_brackets hs q (hdropped ▸ List.mem_append_left _ hq)⟩

/-! ## Sequences of marks -/

/-- The stack after it has been shown the marks `cs`. -/
def after (s : Stack) (cs : Text) : Stack := cs.foldl (fun s c => (s.observe c).2) s

/-- The marks `cs` are all in order, shown to the stack one by one. -/
def AdmitsAll (s : Stack) : Text → Prop
  | [] => True
  | c :: cs => s.Admits c ∧ AdmitsAll (s.observe c).2 cs

instance decidableAdmitsAll : (s : Stack) → (cs : Text) → Decidable (s.AdmitsAll cs)
  | _, [] => .isTrue trivial
  | s, c :: cs =>
    have := decidableAdmitsAll (s.observe c).2 cs
    inferInstanceAs (Decidable (s.Admits c ∧ _))

theorem after_cons (s : Stack) (c : Char) (cs : Text) :
    s.after (c :: cs) = (s.observe c).2.after cs := rfl

theorem after_append (s : Stack) (cs ds : Text) : s.after (cs ++ ds) = (s.after cs).after ds :=
  List.foldl_append

theorem admitsAll_append (s : Stack) (cs ds : Text) :
    s.AdmitsAll (cs ++ ds) ↔ s.AdmitsAll cs ∧ (s.after cs).AdmitsAll ds := by
  induction cs generalizing s with
  | nil => simp [AdmitsAll, after]
  | cons c cs ih => rw [List.cons_append, AdmitsAll, AdmitsAll, ih, after_cons, and_assoc]

theorem Proper.after (h : s.Proper) (cs : Text) : (s.after cs).Proper := by
  induction cs generalizing s with
  | nil => exact h
  | cons c cs ih => exact ih (h.observe c)

/-- Where a mark opens something that marks then close again, all of them in order, they leave the
stack as it was. -/
theorem admitsAll_enclosed (hopen : s.observe c = (.opened, d :: s))
    (hinner : AdmitsAll (d :: s) inner ∧ after (d :: s) inner = d :: s)
    (hlater : s.AdmitsAll later ∧ s.after later = s) :
    s.AdmitsAll (c :: (inner ++ d :: later)) ∧ s.after (c :: (inner ++ d :: later)) = s := by
  have hclose := observe_innermost d s
  refine ⟨⟨by simp [Admits, hopen], ?_⟩, ?_⟩
  · rw [hopen, admitsAll_append, hinner.2, AdmitsAll, hclose]
    exact ⟨hinner.1, by simp [Admits, hclose], hlater.1⟩
  · rw [after_cons, hopen, after_append, hinner.2, after_cons, hclose, hlater.2]

/-- In a quote all marks but the one that closes it are in order and count for nothing. -/
theorem admitsAll_quoted (hq : isQuote q = true) (s : Stack) (h : ∀ c ∈ cs, c ≠ q) :
    AdmitsAll (q :: s) cs ∧ after (q :: s) cs = q :: s := by
  induction cs with
  | nil => exact ⟨trivial, rfl⟩
  | cons c cs ih =>
    obtain ⟨hc, hcs⟩ := List.forall_mem_cons.mp h
    have hobserve := observe_of_isQuote hq hc s
    rw [AdmitsAll, after_cons, hobserve]
    exact ⟨⟨by simp [Admits, hobserve], (ih hcs).1⟩, (ih hcs).2⟩

end Stack

/-- Well-nested marks are in order and leave a stack as it was, if nothing that itself opens
something is innermost in it. -/
theorem WellNested.admitsAll (h : WellNested cs) (hs : ∀ t ∈ s.head?, closerOf? t = none) :
    s.AdmitsAll cs ∧ s.after cs = s := by
  induction h generalizing s with
  | nil => exact ⟨trivial, rfl⟩
  | @bracket l r inner later hpair _ _ ihinner ihlater =>
    have hopen := Stack.observe_of_closerOf? hs (closerOf?_eq_some_iff.mpr (.inl hpair))
    have hr : ∀ t ∈ (r :: s).head?, closerOf? t = none := by
      simpa using (closerOf?_of_mem_bracketPairs hpair).1
    exact Stack.admitsAll_enclosed hopen (ihinner hr) (ihlater hs)
  | @quote q inner later hq hinner _ ihlater =>
    have hopen := Stack.observe_of_closerOf? hs (closerOf?_eq_some_iff.mpr (.inr ⟨hq, rfl⟩))
    have hquoted := Stack.admitsAll_quoted (isQuote_iff.mpr hq) s fun c hc => (hinner c hc).2
    exact Stack.admitsAll_enclosed hopen hquoted (ihlater hs)

/-! ## Marks that empty a stack -/

/-- The marks `inner` can stand before the mark `d` that closes what they stand in. -/
def Fills (d : Char) (inner : Text) : Prop :=
  if isQuote d then ∀ c ∈ inner, isPairing c = true ∧ c ≠ d else WellNested inner

theorem fills_nil (d : Char) : Fills d [] := by
  unfold Fills
  split
  · simp
  · exact .nil

/-- The marks close one after the other what is open in the stack, and nothing else but what they
have opened themselves. -/
def Closes : Stack → Text → Prop
  | [], cs => WellNested cs
  | d :: s, cs => ∃ inner later, cs = inner ++ d :: later ∧ Fills d inner ∧ Closes s later

theorem wellNested_enclosed (hc : closerOf? c = some d) (hinner : Fills d inner)
    (hlater : WellNested later) : WellNested (c :: (inner ++ d :: later)) := by
  rcases closerOf?_eq_some_iff.mp hc with hpair | ⟨hq, rfl⟩
  · rw [Fills, (closerOf?_of_mem_bracketPairs hpair).2] at hinner
    exact .bracket hpair hinner hlater
  · rw [Fills, isQuote_iff.mpr hq] at hinner
    exact .quote hq hinner hlater

/-- What is enclosed between two marks can come before marks that close a stack. -/
theorem Closes.enclosed (hs : ∀ t ∈ s.head?, isQuote t = false) (hc : closerOf? c = some d)
    (hinner : Fills d inner) (h : Closes s later) : Closes s (c :: (inner ++ d :: later)) := by
  cases s with
  | nil => exact wellNested_enclosed hc hinner h
  | cons t s =>
    have ht : isQuote t = false := hs t rfl
    obtain ⟨before, rest, rfl, hbefore, hrest⟩ := h
    rw [Fills, ht] at hbefore
    refine ⟨c :: (inner ++ d :: before), rest, by simp, ?_, hrest⟩
    rw [Fills, ht]
    exact wellNested_enclosed hc hinner hbefore

/-- Marks that are in order and leave nothing open close what was open, one after the other. -/
theorem closes_of_admitsAll (hmarks : ∀ c ∈ cs, isPairing c = true) (h : s.AdmitsAll cs)
    (hend : s.after cs = []) : Closes s cs := by
  induction cs generalizing s with
  | nil =>
    obtain rfl : s = [] := hend
    exact .nil
  | cons c cs ih =>
    obtain ⟨hc, hcs⟩ := List.forall_mem_cons.mp hmarks
    obtain ⟨⟨htruncated, hmalformed, hignored⟩, hlater⟩ := h
    rw [Stack.after_cons] at hend
    have hrest := ih hcs hlater hend
    have hstep := s.observes c
    generalize s.observe c = step at hstep htruncated hmalformed hignored hrest
    cases hstep with
    | closed hs =>
      subst hs
      exact ⟨[], cs, rfl, fills_nil c, hrest⟩
    | quoted hs hq hne =>
      subst hs
      obtain ⟨inner, later, rfl, hinner, hcloses⟩ := hrest
      refine ⟨c :: inner, later, rfl, ?_, hcloses⟩
      rw [Fills, if_pos hq] at hinner ⊢
      exact List.forall_mem_cons.mpr ⟨⟨hc, hne⟩, hinner⟩
    | opened hs hd =>
      obtain ⟨inner, later, rfl, hinner, hcloses⟩ := hrest
      exact hcloses.enclosed hs hd hinner
    | truncated _ _ _ => exact absurd rfl htruncated
    | idle hs _ => exact absurd hs (hignored rfl)
    | malformed _ _ _ _ => exact absurd rfl hmalformed

/-- A stack accepts exactly the well-nested sequences of marks: shown them one by one from the empty
stack on, it admits all of them and ends empty. Shown to a stack that any marks have led to, they
leave it as it was, unless a quote is innermost in it. -/
theorem accepts_iff_wellNested (cs : Text) :
    ((∀ c ∈ cs, isPairing c = true) ∧ Stack.AdmitsAll [] cs ∧ Stack.after [] cs = [] ↔
        WellNested cs) ∧
      ∀ before : Text, WellNested cs →
        (∀ t ∈ (Stack.after [] before).head?, isQuote t = false) →
          (Stack.after [] before).after cs = Stack.after [] before := by
  refine ⟨⟨fun ⟨hmarks, hadmits, hend⟩ => closes_of_admitsAll hmarks hadmits hend, fun h => ?_⟩, ?_⟩
  · exact ⟨h.isPairing, h.admitsAll (by simp)⟩
  · intro before h hs
    refine (h.admitsAll fun t ht => ?_).2
    have hproper := Stack.proper_nil.after before
    exact closerOf?_of_mem_closingMarks (hproper.closers t (List.mem_of_mem_head? ht)) (hs t ht)

theorem accepts_iff_wellNested_in_brackets :
    WellNested "(\"[\")\x7b''\x7d".toList ∧
      (∀ t ∈ (Stack.after [] "\"(\"[(".toList).head?, isQuote t = false) ∧
      (Stack.after [] "\"(\"[(".toList).after "(\"[\")\x7b''\x7d".toList =
        Stack.after [] "\"(\"[(".toList := by
  have h : WellNested "(\"[\")\x7b''\x7d".toList :=
    (accepts_iff_wellNested _).1.mp ⟨List.all_eq_true.mp (by decide), by decide, by decide⟩
  have hhead : (Stack.after [] "\"(\"[(".toList).head? = some ')' := by decide
  have htop : ∀ t ∈ (Stack.after [] "\"(\"[(".toList).head?, isQuote t = false := by
    intro t ht
    rw [hhead, Option.mem_some] at ht
    subst ht
    rfl
  exact ⟨h, htop, (accepts_iff_wellNested _).2 _ h htop⟩

end RegexText.Nesting
