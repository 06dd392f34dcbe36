import Mathlib.Data.List.TakeDrop
import Mathlib.Data.List.TakeWhile
import RegexText.Regex.Parser

/-!
# Reading the parts of a pattern

An escape, a bracket expression or a count is read from the front of a text. What the reader leaves
is a suffix of the text, and it reads the same where the text goes on (`Stable`).

The second is not so of every continuation, for a name and a comment can go on. It is so where white
space and comments mean something and the text goes on with the end of a group.
-/

namespace RegexText.Regex

variable {α β : Type} {more t rest : Text}

/-! ## Readings -/

theorem map_eq_ok {x : Reading α} {f : α → β} {b : β} :
    x.map f = .ok b ↔ ∃ a, x = .ok a ∧ f a = b := by
  cases x <;> simp [Except.map]

theorem bind_eq_ok {x : Reading α} {f : α → Reading β} {b : β} :
    (x >>= f) = .ok b ↔ ∃ a, x = .ok a ∧ f a = .ok b := by
  cases x <;> simp [bind, Except.bind]

/-- What `read` reads of a text it reads where the text goes on with `post`, and what it leaves is a
suffix of the text. -/
def Stable (post : Text) (read : Text → Reading (α × Text)) : Prop :=
  ∀ t a rest, read t = .ok (a, rest) → rest <:+ t ∧ read (t ++ post) = .ok (a, rest ++ post)

theorem Stable.map {post : Text} {read : Text → Reading (α × Text)} (h : Stable post read)
    (f : α → β) : Stable post fun t => (read t).map fun r => (f r.1, r.2) := by
  intro t b rest hread
  obtain ⟨⟨a, rest'⟩, ha, he⟩ := map_eq_ok.mp hread
  cases he
  obtain ⟨hsuffix, happend⟩ := h t a rest' ha
  exact ⟨hsuffix, map_eq_ok.mpr ⟨_, happend, rfl⟩⟩

/-! ## Spans -/

theorem spanWhile_eq (p : Char → Bool) (t : Text) :
    ({} : Modes).spanWhile p false t = (t.takeWhile p, t.dropWhile p) := by
  induction t with
  | nil => rfl
  | cons c cs ih =>
    rw [Modes.spanWhile, ih]
    cases hc : p c <;> simp [hc]

theorem suffix_of_cons {c : Char} (h : c :: rest <:+ t) : rest <:+ t :=
  (List.suffix_cons c rest).trans h

theorem suffix_of_span {p : Char → Bool} {run : List Char}
    (h : (t.takeWhile p, t.dropWhile p) = (run, rest)) : rest <:+ t := by
  cases h
  exact List.dropWhile_suffix p

/-- A stretch that ends inside the text ends there where the text goes on. -/
theorem span_append {p : Char → Bool} {run : List Char} {c : Char}
    (h : (t.takeWhile p, t.dropWhile p) = (run, c :: rest)) (post : Text) :
    ((t ++ post).takeWhile p, (t ++ post).dropWhile p) = (run, c :: (rest ++ post)) := by
  induction t generalizing run with
  | nil => cases h
  | cons d ds ih =>
    rw [List.cons_append]
    cases hd : p d with
    | false =>
      simp only [List.takeWhile_cons, List.dropWhile_cons, hd, Bool.false_eq_true, if_false] at h ⊢
      cases h
      rfl
    | true =>
      simp only [List.takeWhile_cons, List.dropWhile_cons, hd, if_true, Prod.mk.injEq] at h ⊢
      obtain ⟨rfl, hdrop⟩ := h
      have := ih (Prod.ext rfl hdrop)
      simp only [Prod.mk.injEq] at this
      exact ⟨congrArg (d :: ·) this.1, this.2⟩

/-- A stretch that cannot hold the end of a group ends before it. -/
theorem span_append_close {p : Char → Bool} (h : p ')' = false) (t more : Text) :
    ((t ++ ')' :: more).takeWhile p, (t ++ ')' :: more).dropWhile p) =
      (t.takeWhile p, t.dropWhile p ++ ')' :: more) := by
  induction t with
  | nil => simp [h]
  | cons c cs ih =>
    rw [Prod.mk.injEq] at ih
    cases hc : p c <;> simp [hc, ih.1, ih.2]

theorem skipBlanks_eq (t : Text) : ({} : Modes).skipBlanks t = t := rfl

/-- The end of a group begins with no other character. -/
theorem append_close_ne {c : Char} (hc : c ≠ ')') (h : ∀ cs, t ≠ c :: cs) (cs : Text) :
    t ++ ')' :: more ≠ c :: cs := by
  intro he
  cases t with
  | nil => exact hc (List.cons.inj he).1.symm
  | cons d ds => exact h ds (congrArg (· :: ds) (List.cons.inj he).1)

theorem append_close_ne₂ {c d : Char} (hc : c ≠ ')') (hd : d ≠ ')') (h : ∀ cs, t ≠ c :: d :: cs)
    (cs : Text) : t ++ ')' :: more ≠ c :: d :: cs := by
  intro he
  cases t with
  | nil => exact hc (List.cons.inj he).1.symm
  | cons c' t =>
    obtain ⟨rfl, htail⟩ := List.cons.inj he
    exact append_close_ne hd (fun ds hds => h ds (congrArg (c' :: ·) hds)) cs htail

theorem append_close_ne_nil (t more : Text) : t ++ ')' :: more ≠ [] :=
  List.append_ne_nil_of_right_ne_nil t (List.cons_ne_nil _ _)

/-! ## Escapes -/

theorem stable_readChars (post : Text) (n : Nat) : Stable post (readChars {} n) := by
  induction n with
  | zero =>
    intro t ds rest h
    cases h
    exact ⟨List.suffix_rfl, rfl⟩
  | succ n ih =>
    intro t ds rest h
    cases t with
    | nil => cases h
    | cons c cs =>
      obtain ⟨⟨ds', rest⟩, hread, he⟩ := bind_eq_ok.mp h
      cases he
      obtain ⟨hsuffix, happend⟩ := ih cs ds' rest hread
      exact ⟨hsuffix.trans (List.suffix_cons c cs), bind_eq_ok.mpr ⟨_, happend, rfl⟩⟩

theorem stable_readCodePoint (more : Text) (width : Nat) :
    Stable (')' :: more) (readCodePoint {} width) := by
  intro t c rest h
  unfold readCodePoint at h
  simp only [skipBlanks_eq] at h
  split at h
  · rename_i cs
    rw [List.cons_append]
    unfold readCodePoint
    simp only [skipBlanks_eq, spanWhile_eq] at h ⊢
    split at h
    · cases h
    · cases h
    · rename_i ds d rest' hne hspan
      rw [span_append hspan]
      cases ds with
      | nil => exact absurd rfl hne
      | cons d' ds =>
        obtain ⟨n, hn, h⟩ := bind_eq_ok.mp h
        obtain ⟨c', hc', h⟩ := bind_eq_ok.mp h
        cases h
        exact ⟨(suffix_of_cons (suffix_of_span hspan)).trans (List.suffix_cons _ cs),
          bind_eq_ok.mpr ⟨n, hn, bind_eq_ok.mpr ⟨c, hc', rfl⟩⟩⟩
  · rename_i hbrace
    obtain ⟨⟨ds, rest'⟩, hread, h⟩ := bind_eq_ok.mp h
    obtain ⟨n, hn, h⟩ := bind_eq_ok.mp h
    obtain ⟨c', hc', h⟩ := bind_eq_ok.mp h
    cases h
    obtain ⟨hsuffix, happend⟩ := stable_readChars (')' :: more) width t ds rest' hread
    refine ⟨hsuffix, ?_⟩
    unfold readCodePoint
    simp only [skipBlanks_eq]
    split
    · rename_i cs hcs
      exact absurd hcs (append_close_ne (by decide) hbrace cs)
    · exact bind_eq_ok.mpr ⟨_, happend, bind_eq_ok.mpr ⟨n, hn, bind_eq_ok.mpr ⟨c, hc', rfl⟩⟩⟩

theorem stable_readProperty (post : Text) : Stable post (readProperty {}) := by
  intro t s rest h
  unfold readProperty at h
  simp only [skipBlanks_eq] at h
  split at h
  · cases h
  · rename_i cs
    rw [List.cons_append]
    unfold readProperty
    simp only [skipBlanks_eq, spanWhile_eq] at h ⊢
    split at h
    · cases h
    · rename_i name d rest' hspan
      rw [span_append hspan]
      split at h
      · cases h
      · cases h
        refine ⟨(suffix_of_cons (suffix_of_span hspan)).trans (List.suffix_cons _ cs), ?_⟩
        simp only [*]
  · rename_i c cs hc
    rw [List.cons_append]
    unfold readProperty
    simp only [skipBlanks_eq]
    split at h
    · cases h
    · cases h
      exact ⟨List.suffix_cons _ _, rfl⟩

theorem stable_property (post : Text) (negated : Bool) :
    Stable post (Atom.ofEscape.property {} negated) :=
  (stable_readProperty post).map fun s => Atom.chars (.negateIf negated s)

theorem stable_readBoundary (more : Text) : Stable (')' :: more) (readBoundary {}) := by
  intro t a rest h
  unfold readBoundary at h
  split at h
  · rename_i cs
    rw [List.cons_append]
    unfold readBoundary
    simp only [skipBlanks_eq, spanWhile_eq] at h ⊢
    cases cs with
    | nil => cases h
    | cons c cs =>
      rw [List.cons_append]
      dsimp only at h ⊢
      split at h
      · rename_i hc
        rw [if_pos hc]
        split at h
        · rename_i name rest' hspan
          rw [← List.cons_append, span_append hspan]
          split at h
          · cases h
          · cases h
            refine ⟨(suffix_of_cons (suffix_of_span hspan)).trans (List.suffix_cons _ _), ?_⟩
            simp only [*]
        · cases h
      · rename_i hc
        rw [if_neg hc]
        cases h
        exact ⟨List.suffix_rfl, rfl⟩
  · rename_i hbrace
    cases h
    refine ⟨List.suffix_rfl, ?_⟩
    unfold readBoundary
    split
    · rename_i cs hcs
      exact absurd hcs (append_close_ne (by decide) hbrace cs)
    · rfl

theorem stable_ofEscape (more : Text) : Stable (')' :: more) (Atom.ofEscape {}) := by
  intro t a rest h
  cases t with
  | nil => cases h
  | cons c cs =>
    have hbehind {read : Text → Reading (Atom × Text)} (hstable : Stable (')' :: more) read)
        (h : read cs = .ok (a, rest)) :
        rest <:+ c :: cs ∧ read (cs ++ ')' :: more) = .ok (a, rest ++ ')' :: more) :=
      (hstable cs a rest h).imp_left (·.trans (List.suffix_cons c cs))
    rw [List.cons_append]
    unfold Atom.ofEscape at h ⊢
    dsimp only at h ⊢
    split at h
    · rename_i hc
      rw [if_pos hc]
      cases h
      exact ⟨List.suffix_cons _ _, rfl⟩
    · rename_i hc
      rw [if_neg hc]
      split at h
      · exact hbehind ((stable_readCodePoint more 2).map Atom.literal) h
      · exact hbehind ((stable_readCodePoint more 4).map Atom.literal) h
      · exact hbehind ((stable_readCodePoint more 8).map Atom.literal) h
      · exact hbehind (stable_property _ false) h
      · exact hbehind (stable_property _ true) h
      any_goals (cases h; exact ⟨List.suffix_cons _ _, rfl⟩)
      · exact hbehind ((stable_readBoundary more).map Atom.assert) h
      · cases h

/-! ## Bracket expressions -/

theorem stable_readMember (more : Text) : Stable (')' :: more) (readMember {}) := by
  intro t a rest h
  unfold readMember at h
  split at h
  · cases h
  · rename_i cs
    obtain ⟨hsuffix, happend⟩ := stable_ofEscape more cs a rest h
    exact ⟨hsuffix.trans (List.suffix_cons _ cs), happend⟩
  · rename_i c cs hc
    cases h
    refine ⟨List.suffix_cons _ _, ?_⟩
    simp only [List.cons_append, readMember]

theorem stable_readRange (more : Text) : Stable (')' :: more) (readRange {}) := by
  intro t s rest h
  obtain ⟨⟨first, rest₁⟩, hfirst, h⟩ := bind_eq_ok.mp h
  obtain ⟨hsuffix, happend⟩ := stable_readMember more t first rest₁ hfirst
  suffices hrest : rest <:+ rest₁ ∧ _ from
    ⟨hrest.1.trans hsuffix, bind_eq_ok.mpr ⟨_, happend, hrest.2⟩⟩
  simp only [skipBlanks_eq] at h ⊢
  split at h
  · cases h
  · rename_i cs
    simp only [List.cons_append]
    split at h
    · cases h
    · obtain ⟨s', hs, h⟩ := bind_eq_ok.mp h
      cases h
      exact ⟨List.suffix_rfl, bind_eq_ok.mpr ⟨_, hs, rfl⟩⟩
    · obtain ⟨s', hs, h⟩ := bind_eq_ok.mp h
      cases h
      exact ⟨List.suffix_rfl, bind_eq_ok.mpr ⟨_, hs, rfl⟩⟩
    · rename_i hnil hclose hdash
      obtain ⟨⟨last, rest₂⟩, hlast, h⟩ := bind_eq_ok.mp h
      obtain ⟨s', hs, h⟩ := bind_eq_ok.mp h
      cases h
      obtain ⟨hsuffix, happend⟩ := stable_readMember more cs last rest₂ hlast
      refine ⟨hsuffix.trans (List.suffix_cons _ cs), ?_⟩
      split
      · exact absurd ‹_› (append_close_ne_nil cs more)
      · exact absurd ‹_› (append_close_ne (by decide) hclose _)
      · exact absurd ‹_› (append_close_ne (by decide) hdash _)
      · exact bind_eq_ok.mpr ⟨_, happend, bind_eq_ok.mpr ⟨s, hs, rfl⟩⟩
  · rename_i hnil hdash
    obtain ⟨s', hs, h⟩ := bind_eq_ok.mp h
    cases h
    refine ⟨List.suffix_rfl, ?_⟩
    split
    · exact absurd ‹_› (append_close_ne_nil rest more)
    · exact absurd ‹_› (append_close_ne (by decide) hdash _)
    · exact bind_eq_ok.mpr ⟨s, hs, rfl⟩

theorem suffix_of_namedClass? {r : (Bool × CharClass) × Text} (h : namedClass? t = some r) :
    r.2 <:+ t := by
  have hnamed {negated : Bool} {cs : Text} (h : namedClass?.named negated cs = some r) :
      r.2 <:+ cs := by
    unfold namedClass?.named at h
    rw [List.span_eq_takeWhile_dropWhile] at h
    split at h
    · rename_i hspan
      obtain ⟨s, -, rfl⟩ := Option.map_eq_some_iff.mp h
      exact suffix_of_cons (suffix_of_cons (suffix_of_span hspan))
    · cases h
  unfold namedClass? at h
  split at h
  · exact (hnamed h).trans ((List.suffix_cons _ _).trans (List.suffix_cons _ _))
  · exact (hnamed h).trans (List.suffix_cons _ _)
  · cases h

/-- A named class is read where it stands, and none is made by the end of a group that has no colon
behind it. -/
theorem namedClass?_append (hmore : ':' ∉ more) (t : Text) :
    namedClass? (t ++ ')' :: more) =
      (namedClass? t).map fun r => (r.1, r.2 ++ ')' :: more) := by
  have hnamed (negated : Bool) (cs : Text) : namedClass?.named negated (cs ++ ')' :: more) =
      (namedClass?.named negated cs).map fun r => (r.1, r.2 ++ ')' :: more) := by
    unfold namedClass?.named
    rw [List.span_eq_takeWhile_dropWhile, List.span_eq_takeWhile_dropWhile]
    cases hdrop : cs.dropWhile (· != ':') with
    | nil =>
      have hnone : (cs ++ ')' :: more).dropWhile (· != ':') = [] := by
        rw [List.dropWhile_eq_nil_iff] at hdrop ⊢
        intro c hc
        rcases List.mem_append.mp hc with hc | hc
        · exact hdrop c hc
        · rcases List.mem_cons.mp hc with rfl | hc
          · decide
          · rw [bne_iff_ne]
            exact fun he => hmore (he ▸ hc)
      rw [hnone]
      rfl
    | cons c rest =>
      rw [span_append (Prod.ext rfl hdrop)]
      split
      · rename_i hspan
        obtain ⟨hname, hrest⟩ := Prod.mk.inj hspan
        cases rest with
        | nil => cases hrest
        | cons d rest =>
          cases hrest
          rw [← hname]
          simp [Option.map_map, Function.comp_def]
      · rename_i hother
        split
        · rename_i hspan
          cases hspan
          exact absurd rfl (hother _ _)
        · rfl
  unfold namedClass?
  split
  · rename_i cs he
    cases t with
    | nil => cases he
    | cons c t =>
      cases t with
      | nil => cases he
      | cons d t =>
        cases he
        exact hnamed true t
  · rename_i cs hcaret he
    cases t with
    | nil => cases he
    | cons c t =>
      cases he
      split
      · rename_i he
        cases he
        exact absurd rfl (hcaret _)
      · rename_i he
        cases he
        exact hnamed false _
      · rename_i hcolon
        exact absurd rfl (hcolon _)
  · rename_i hcaret hcolon
    split
    · exact absurd rfl (hcaret _)
    · exact absurd rfl (hcolon _)
    · rfl

theorem stable_readBracketStart (more : Text) : Stable (')' :: more) (readBracketStart {}) := by
  have hleading (negated : Bool) :
      Stable (')' :: more) (readBracketStart.leading {} negated) := by
    intro cs b rest h
    unfold readBracketStart.leading at h ⊢
    rw [spanWhile_eq] at h ⊢
    rw [span_append_close (by decide)]
    split at h
    · cases h
    · rename_i hspan
      cases h
      refine ⟨suffix_of_cons (suffix_of_span hspan), ?_⟩
      rw [Prod.mk.injEq] at hspan
      rw [hspan.1, hspan.2]
      rfl
    · rename_i hnil hclose hspan
      cases h
      refine ⟨suffix_of_span hspan, ?_⟩
      rw [Prod.mk.injEq] at hspan
      rw [hspan.1, hspan.2]
      split
      · rename_i he
        exact absurd (Prod.mk.inj he).2 (append_close_ne_nil rest more)
      · rename_i he
        exact absurd (Prod.mk.inj he).2 (append_close_ne (by decide) (fun _ => hclose _) _)
      · rename_i he
        cases (Prod.mk.inj he).2
        rfl
      · rename_i he
        cases he
    · rename_i d ds hnil hspan
      cases h
      refine ⟨suffix_of_span hspan, ?_⟩
      rw [Prod.mk.injEq] at hspan
      rw [hspan.1, hspan.2]
      split
      · rename_i he
        exact absurd (Prod.mk.inj he).2 (append_close_ne_nil rest more)
      · rename_i he
        cases he
      · rename_i he
        cases he
      · rename_i he
        cases (Prod.mk.inj he).2
        rfl
  intro t b rest h
  unfold readBracketStart at h
  rw [skipBlanks_eq] at h
  split at h
  · rename_i cs
    obtain ⟨hsuffix, happend⟩ := hleading true cs b rest h
    exact ⟨hsuffix.trans (List.suffix_cons _ cs), happend⟩
  · rename_i hcaret
    obtain ⟨hsuffix, happend⟩ := hleading false t b rest h
    refine ⟨hsuffix, ?_⟩
    unfold readBracketStart
    rw [skipBlanks_eq]
    split
    · rename_i cs hcs
      exact absurd hcs (append_close_ne (by decide) hcaret cs)
    · exact happend

theorem stable_readBracketRest (hmore : ':' ∉ more) {steps steps' : Nat} (hsteps : steps ≤ steps')
    {b : OpenBracket} {t : Text} {s : CharClass} {rest : Text}
    (h : readBracketRest {} steps b t = .ok (s, rest)) :
    rest <:+ t ∧
      readBracketRest {} steps' b (t ++ ')' :: more) = .ok (s, rest ++ ')' :: more) := by
  induction steps generalizing steps' b t s rest with
  | zero => cases h
  | succ steps ih =>
    obtain ⟨steps', rfl⟩ := Nat.exists_eq_add_of_le' (Nat.lt_of_lt_of_le (Nat.succ_pos _) hsteps)
    have hle : steps ≤ steps' := by omega
    have hoperator {b : OpenBracket} {c d : Char} {cs : Text}
        (h : readBracketRest {} steps b cs = .ok (s, rest)) :
        rest <:+ c :: d :: cs ∧
          readBracketRest {} steps' b (cs ++ ')' :: more) = .ok (s, rest ++ ')' :: more) :=
      (ih hle h).imp_left (·.trans ((List.suffix_cons d cs).trans (List.suffix_cons c _)))
    unfold readBracketRest at h ⊢
    simp only [skipBlanks_eq] at h ⊢
    split at h
    · cases h
    · cases h
      exact ⟨List.suffix_cons _ _, rfl⟩
    · rename_i cs
      simp only [List.cons_append, namedClass?_append hmore]
      split at h
      · rename_i hnamed
        rw [hnamed]
        obtain ⟨s₁, hclass, h⟩ := bind_eq_ok.mp h
        obtain ⟨hsuffix, happend⟩ := ih hle h
        exact ⟨(hsuffix.trans (suffix_of_namedClass? hnamed)).trans (List.suffix_cons _ cs),
          bind_eq_ok.mpr ⟨s₁, hclass, happend⟩⟩
      · rename_i hnamed
        rw [hnamed]
        obtain ⟨⟨⟨negated, inner⟩, rest₁⟩, hstart, h⟩ := bind_eq_ok.mp h
        obtain ⟨⟨s₁, rest₂⟩, hinner, h⟩ := bind_eq_ok.mp h
        obtain ⟨s₂, hclass, h⟩ := bind_eq_ok.mp h
        obtain ⟨hsuffix₁, happend₁⟩ := stable_readBracketStart more _ _ _ hstart
        obtain ⟨hsuffix₂, happend₂⟩ := ih hle hinner
        obtain ⟨hsuffix, happend⟩ := ih hle h
        exact ⟨(hsuffix.trans (hsuffix₂.trans hsuffix₁)).trans (List.suffix_cons _ cs),
          bind_eq_ok.mpr ⟨_, happend₁, bind_eq_ok.mpr ⟨_, happend₂,
            bind_eq_ok.mpr ⟨s₂, hclass, happend⟩⟩⟩⟩
    · exact hoperator h
    · exact hoperator h
    · exact hoperator h
    · rename_i hnil hclose hopen hand hdash htilde
      obtain ⟨⟨s₁, rest₁⟩, hrange, h⟩ := bind_eq_ok.mp h
      obtain ⟨hsuffix₁, happend₁⟩ := stable_readRange more t s₁ rest₁ hrange
      obtain ⟨hsuffix, happend⟩ := ih hle h
      refine ⟨hsuffix.trans hsuffix₁, ?_⟩
      split
      · exact absurd ‹_› (append_close_ne_nil t more)
      · exact absurd ‹_› (append_close_ne (by decide) hclose _)
      · exact absurd ‹_› (append_close_ne (by decide) hopen _)
      · exact absurd ‹_› (append_close_ne₂ (by decide) (by decide) hand _)
      · exact absurd ‹_› (append_close_ne₂ (by decide) (by decide) hdash _)
      · exact absurd ‹_› (append_close_ne₂ (by decide) (by decide) htilde _)
      · exact bind_eq_ok.mpr ⟨_, happend₁, happend⟩

theorem stable_readBracket (hmore : ':' ∉ more) : Stable (')' :: more) (readBracket {}) := by
  intro t s rest h
  obtain ⟨⟨⟨negated, b⟩, rest₁⟩, hstart, h⟩ := bind_eq_ok.mp h
  obtain ⟨⟨s₁, rest₂⟩, hrest, h⟩ := bind_eq_ok.mp h
  obtain ⟨s₂, hclass, h⟩ := bind_eq_ok.mp h
  cases h
  have hsteps : rest₁.length + 1 ≤ (rest₁ ++ ')' :: more).length + 1 := by
    rw [List.length_append]
    omega
  obtain ⟨hsuffix₁, happend₁⟩ := stable_readBracketStart more _ _ _ hstart
  obtain ⟨hsuffix, happend⟩ := stable_readBracketRest hmore hsteps hrest
  exact ⟨hsuffix.trans hsuffix₁, bind_eq_ok.mpr ⟨_, happend₁, bind_eq_ok.mpr ⟨_, happend,
    bind_eq_ok.mpr ⟨_, hclass, rfl⟩⟩⟩⟩

/-! ## Counts -/

theorem stable_readNumber (more : Text) : Stable (')' :: more) (Reader.readNumber {}) := by
  intro t n rest h
  have hspace : Unicode.isWhiteSpace ')' = false := by decide
  unfold Reader.readNumber at h ⊢
  have hdrop (t : Text) : (t ++ ')' :: more).dropWhile Unicode.isWhiteSpace =
      t.dropWhile Unicode.isWhiteSpace ++ ')' :: more :=
    (Prod.mk.inj (span_append_close hspace t more)).2
  rw [spanWhile_eq] at h ⊢
  rw [hdrop, span_append_close (by decide)]
  split at h
  · cases h
  · rename_i ds rest₁ hds hspan
    have hsuffix := (suffix_of_span hspan).trans (List.dropWhile_suffix Unicode.isWhiteSpace)
    obtain ⟨hrun, hrest⟩ := Prod.mk.inj hspan
    rw [hrun, hrest]
    split
    · rename_i he
      exact absurd (Prod.mk.inj he).1 hds
    · rename_i he
      obtain ⟨rfl, rfl⟩ := Prod.mk.inj he
      dsimp only at h ⊢
      rw [hdrop]
      split at h
      · rename_i hn
        cases h
        rw [if_pos hn]
        exact ⟨(List.dropWhile_suffix _).trans hsuffix, rfl⟩
      · cases h

theorem stable_readCount (more : Text) : Stable (')' :: more) (Reader.readCount {}) := by
  intro t n rest h
  obtain ⟨⟨min, rest₁⟩, hmin, h⟩ := bind_eq_ok.mp h
  obtain ⟨hsuffix, happend⟩ := stable_readNumber more _ min rest₁ hmin
  suffices hrest : rest <:+ rest₁ ∧ _ from
    ⟨hrest.1.trans hsuffix, bind_eq_ok.mpr ⟨_, happend, hrest.2⟩⟩
  simp only [skipBlanks_eq] at h ⊢
  split at h
  · cases h
    exact ⟨List.suffix_cons _ _, rfl⟩
  · rename_i cs
    simp only [List.cons_append]
    split at h
    · cases h
      exact ⟨(List.suffix_cons _ _).trans (List.suffix_cons _ _), rfl⟩
    · rename_i hbrace
      obtain ⟨⟨max, rest₂⟩, hmax, h⟩ := bind_eq_ok.mp h
      obtain ⟨hsuffix₂, happend₂⟩ := stable_readNumber more _ max rest₂ hmax
      dsimp only at h
      split at h
      · split at h
        · rename_i hle
          cases h
          refine ⟨(suffix_of_cons hsuffix₂).trans (List.suffix_cons _ cs), ?_⟩
          split
          · exact absurd ‹_› (append_close_ne (by decide) hbrace _)
          · refine bind_eq_ok.mpr ⟨_, happend₂, ?_⟩
            simp only [List.cons_append, if_pos hle]
        · cases h
      · cases h
  · cases h

end RegexText.Regex
