import RegexText.Proofs.Nesting.Mark

/-!
# Reading the nesting of a text

A text is read from the left, and every bracket or quote mark that is not escaped is shown to the
stack. `place t i` is what is known after the first `i` characters: how many backslashes stand just
before, what is open, and whether a malformed mark has been met. A text is `Balanced` if none is met
and nothing is open at its end.

The reading is tied to `nextSymbol?`, which looks for the next mark without knowing the backslashes
before the place where it starts. They do not matter if the place is `Settled`; then the nesting
stays as it is up to the next mark (`place_before`) and the mark does to it what the stack says
(`place_pass`).
-/

namespace RegexText.Nesting

/-- What the characters before a place in a text amount to. -/
structure Place where
  /-- The number of backslashes just before it. -/
  slashes : Nat := 0
  /-- What is open. -/
  stack : Stack := []
  /-- Whether a malformed mark came before it. -/
  malformed : Bool := false

namespace Place

/-- The place after the character `c`. -/
def read (p : Place) (c : Char) : Place :=
  if c == '\\' then { p with slashes := p.slashes + 1 }
  else if isPairing c && p.slashes % 2 == 0 then
    let (reaction, stack) := p.stack.observe c
    { stack, malformed := p.malformed || reaction == .malformed }
  else { p with slashes := 0 }

/-- The place after the text `t`. -/
def after (p : Place) (t : Text) : Place := t.foldl read p

variable {p : Place} {c : Char}

@[simp] theorem after_nil (p : Place) : p.after [] = p := rfl

@[simp] theorem after_cons (p : Place) (c : Char) (t : Text) :
    p.after (c :: t) = (p.read c).after t := rfl

theorem after_append (p : Place) (t u : Text) : p.after (t ++ u) = (p.after t).after u :=
  List.foldl_append

theorem read_backslash (p : Place) : p.read '\\' = { p with slashes := p.slashes + 1 } := rfl

theorem read_plain (hc : isPairing c = false) (hs : c ≠ '\\') :
    p.read c = { p with slashes := 0 } := by
  simp [read, hc, hs]

theorem ne_backslash_of_isPairing (hc : isPairing c = true) : c ≠ '\\' := by
  rintro rfl
  exact absurd hc (by decide)

theorem read_isPairing (hc : isPairing c = true) :
    p.read c = if p.slashes % 2 == 0 then
        { stack := (p.stack.observe c).2,
          malformed := p.malformed || (p.stack.observe c).1 == .malformed }
      else { p with slashes := 0 } := by
  simp [read, hc, ne_backslash_of_isPairing hc]

theorem read_slashes (hc : c ≠ '\\') : (p.read c).slashes = 0 := by
  unfold read
  rw [if_neg (by simpa using hc)]
  split <;> rfl

/-- Once a malformed mark has been met, it has been met. -/
theorem malformed_of_read (h : (p.read c).malformed = false) : p.malformed = false := by
  unfold read at h
  split at h
  · exact h
  · split at h
    · exact (Bool.or_eq_false_iff.mp h).1
    · exact h

theorem malformed_of_after {t : Text} (h : (p.after t).malformed = false) :
    p.malformed = false := by
  induction t generalizing p with
  | nil => exact h
  | cons c cs ih => exact malformed_of_read (ih h)

/-- A text without marks leaves the nesting as it is. -/
theorem after_plain {t : Text} (ht : ∀ c ∈ t, isPairing c = false) :
    (p.after t).stack = p.stack ∧ (p.after t).malformed = p.malformed := by
  induction t generalizing p with
  | nil => exact ⟨rfl, rfl⟩
  | cons c cs ih =>
    obtain ⟨hc, hcs⟩ := List.forall_mem_cons.mp ht
    obtain ⟨h₁, h₂⟩ := ih (p := p.read c) hcs
    rw [after_cons, h₁, h₂]
    by_cases hs : c = '\\'
    · rw [hs, read_backslash]; exact ⟨rfl, rfl⟩
    · rw [read_plain hc hs]; exact ⟨rfl, rfl⟩

theorem after_slashes_of_getLast {t : Text} (hne : t ≠ []) (ht : t.getLast? ≠ some '\\') :
    (p.after t).slashes = 0 := by
  rw [List.getLast?_eq_some_getLast hne] at ht
  rw [← List.dropLast_concat_getLast hne, after_append]
  exact read_slashes fun hc => ht (congrArg some hc)

theorem after_backslashes (p : Place) (n : Nat) :
    p.after (List.replicate n '\\') = { p with slashes := p.slashes + n } := by
  induction n generalizing p with
  | zero => rfl
  | succ n ih => rw [List.replicate_succ, after_cons, read_backslash, ih, Nat.add_right_comm]; rfl

/-- The backslashes before the place do not bear on `t`: there are none, or `t` does not go on with
backslashes, if any, and a mark. -/
def Settled (p : Place) (t : Text) : Prop :=
  p.slashes = 0 ∨ ∀ n c u, t = List.replicate n '\\' ++ c :: u → isPairing c = false

/-- Where no mark follows the backslashes that come next, if any, the backslashes before do not bear
on how a text is read. -/
theorem after_eq_of_plain {p q : Place} {t u : Text} (hstack : p.stack = q.stack)
    (hmal : p.malformed = q.malformed)
    (h : ∀ n c v, t ++ u = List.replicate n '\\' ++ c :: v → isPairing c = false) :
    (p.after t).stack = (q.after t).stack ∧ (p.after t).malformed = (q.after t).malformed := by
  induction t generalizing p q with
  | nil => exact ⟨hstack, hmal⟩
  | cons c cs ih =>
    by_cases hc : c = '\\'
    · rw [hc, after_cons, after_cons, read_backslash, read_backslash]
      exact ih hstack hmal fun n d v hv => h (n + 1) d v (by rw [hc]; exact congrArg _ hv)
    · have hplain := h 0 c (cs ++ u) rfl
      rw [after_cons, after_cons, read_plain hplain hc, read_plain hplain hc, hstack, hmal]
      exact ⟨rfl, rfl⟩

/-- From a settled place a text is read as if no backslashes stood before it. -/
theorem after_of_settled {t u : Text} (h : p.Settled (t ++ u)) :
    (p.after t).stack = ((mk 0 p.stack p.malformed).after t).stack ∧
      (p.after t).malformed = ((mk 0 p.stack p.malformed).after t).malformed := by
  rcases h with h | h
  · obtain ⟨slashes, stack, malformed⟩ := p
    obtain rfl : slashes = 0 := h
    exact ⟨rfl, rfl⟩
  · exact after_eq_of_plain rfl rfl h

end Place

/-- The place in `t` at index `i`. -/
def place (t : Text) (i : Nat) : Place := ({} : Place).after (t.take i)

/-- The nesting of `t` is in order: no mark is malformed, and nothing is open at the end. -/
def Balanced (t : Text) : Prop :=
  (place t t.length).stack = [] ∧ (place t t.length).malformed = false

instance (t : Text) : Decidable (Balanced t) := inferInstanceAs (Decidable (_ ∧ _))

variable {t : Text} {i j : Nat} {y : Symbol}

@[simp] theorem place_zero (t : Text) : place t 0 = {} := by simp [place]

theorem place_of_le (hij : i ≤ j) (t : Text) :
    place t j = (place t i).after ((t.drop i).take (j - i)) := by
  rw [place, place, ← Place.after_append, ← List.take_add, Nat.add_sub_cancel' hij]

theorem place_succ (h : i < t.length) : place t (i + 1) = (place t i).read t[i] := by
  rw [place, place, List.take_succ_eq_append_getElem h, Place.after_append]
  rfl

theorem malformed_place_of_le (hij : i ≤ j) (h : (place t j).malformed = false) :
    (place t i).malformed = false := by
  rw [place_of_le hij] at h
  exact Place.malformed_of_after h

/-- Where no mark stands in between, the nesting is the same. -/
theorem place_plain (hij : i ≤ j) (h : ∀ c ∈ (t.drop i).take (j - i), isPairing c = false) :
    (place t j).stack = (place t i).stack ∧ (place t j).malformed = (place t i).malformed := by
  rw [place_of_le hij]
  exact Place.after_plain h

/-! ## Up to the next mark and past it -/

/-- What stands between `i` and the next mark. -/
theorem take_before (h : nextSymbol? t i = some y) (hj : j < y.stop) :
    ∀ c ∈ (t.drop i).take (j - i), isPairing c = false := by
  obtain ⟨gap, n, hf⟩ := nextSymbol?_found h
  obtain ⟨tail, ht⟩ := hf.text_eq
  have hstop := hf.stop_eq
  intro c hc
  rw [ht, ← List.append_assoc, List.take_append_of_le_length
    (by rw [List.length_append, List.length_replicate]; omega)] at hc
  rcases List.mem_append.mp (List.mem_of_mem_take hc) with hc | hc
  · exact hf.gap_plain c hc
  · rw [List.eq_of_mem_replicate hc]; exact isPairing_backslash

/-- Up to the next mark the nesting stays as it is. -/
theorem place_before (h : nextSymbol? t i = some y) (hij : i ≤ j) (hj : j < y.stop) :
    (place t j).stack = (place t i).stack ∧ (place t j).malformed = (place t i).malformed :=
  place_plain hij (take_before h hj)

/-- Where no mark is left the nesting stays as it is. -/
theorem place_none (h : nextSymbol? t i = none) (hij : i ≤ j) :
    (place t j).stack = (place t i).stack ∧ (place t j).malformed = (place t i).malformed :=
  place_plain hij fun c hc => nextSymbol?_none h c (List.mem_of_mem_take hc)

/-- The place after the next mark. -/
theorem place_pass (hs : (place t i).Settled (t.drop i)) (h : nextSymbol? t i = some y) :
    place t y.stop =
      if y.escaped then { place t i with slashes := 0 }
      else
        { stack := ((place t i).stack.observe y.char).2,
          malformed := (place t i).malformed ||
            ((place t i).stack.observe y.char).1 == .malformed } := by
  obtain ⟨gap, n, hf⟩ := nextSymbol?_found h
  obtain ⟨tail, ht⟩ := hf.text_eq
  have hstop := hf.stop_eq
  rw [place_of_le (i := i) (by omega), ht, ← List.append_assoc, List.append_cons]
  rw [List.take_append_of_le_length
    (by simp only [List.length_append, List.length_replicate, List.length_singleton]; omega),
    List.take_of_length_le
    (by simp only [List.length_append, List.length_replicate, List.length_singleton]; omega),
    Place.after_append, Place.after_append, Place.after_backslashes]
  -- The backslashes counted before the mark are those that the mark has.
  have hslashes : ((place t i).after gap).slashes = 0 := by
    by_cases hg : gap = []
    · rcases hs with hs | hs
      · rw [hg]; exact hs
      · rw [hg, List.nil_append] at ht
        exact absurd hf.isPairing (by rw [hs n y.char tail ht]; decide)
    · exact Place.after_slashes_of_getLast hg hf.gap_last
  obtain ⟨h₁, h₂⟩ := Place.after_plain (p := place t i) hf.gap_plain
  rw [Place.after_cons, Place.after_nil, Place.read_isPairing hf.isPairing, hslashes, Nat.zero_add,
    h₁, h₂, hf.escaped_eq]
  rcases Nat.mod_two_eq_zero_or_one n with hn | hn <;> simp [hn]

/-! ## Places that are settled -/

theorem settled_of_slashes {p : Place} (h : p.slashes = 0) (u : Text) : p.Settled u := .inl h

theorem settled_of_none (h : nextSymbol? t i = none) (hij : i ≤ j) :
    (place t j).Settled (t.drop j) := by
  refine .inr fun n c u hu => nextSymbol?_none h c ?_
  rw [← Nat.add_sub_cancel' hij, ← List.drop_drop] at hu
  exact List.mem_of_mem_drop (hu ▸ List.mem_append_right _ List.mem_cons_self)

/-- Characters that end in no backslash, and of which none is a mark, keep a mark off the
backslashes before them. -/
theorem not_isPairing_of_append {g r u : Text} {n : Nat} {c : Char} (hne : g ≠ [])
    (hplain : ∀ c ∈ g, isPairing c = false) (hlast : g.getLast? ≠ some '\\')
    (h : g ++ r = List.replicate n '\\' ++ c :: u) : isPairing c = false := by
  have hall : ¬ ∀ b ∈ g, b = '\\' := fun hg => hlast
    (by rw [List.getLast?_eq_some_getLast hne, hg _ (List.getLast_mem hne)])
  rcases List.append_eq_append_iff.mp h with ⟨a, ha, -⟩ | ⟨a, ha, hc⟩
  · exact absurd (fun b hb => List.eq_of_mem_replicate (ha ▸ List.mem_append_left a hb)) hall
  · cases a with
    | nil =>
      rw [List.append_nil] at ha
      exact absurd (fun b hb => List.eq_of_mem_replicate (ha ▸ hb)) hall
    | cons b a =>
      rw [List.cons_append, List.cons.injEq] at hc
      exact hplain c (by rw [ha, hc.1]; exact List.mem_append_right _ List.mem_cons_self)

/-- The places up to the backslashes of the next mark are settled if the first of them is. -/
theorem settled_before (hs : (place t i).Settled (t.drop i)) (h : nextSymbol? t i = some y)
    (hij : i ≤ j) (hj : j ≤ y.start) : (place t j).Settled (t.drop j) := by
  obtain ⟨gap, n, hf⟩ := nextSymbol?_found h
  obtain ⟨tail, ht⟩ := hf.text_eq
  rw [hf.start_eq] at hj
  rcases Nat.eq_or_lt_of_le hij with rfl | hlt
  · exact hs
  have hdrop : t.drop j = gap.drop (j - i) ++ (List.replicate n '\\' ++ y.char :: tail) := by
    rw [← Nat.add_sub_cancel' hij, ← List.drop_drop, ht, List.drop_append_of_le_length (by omega),
      Nat.add_sub_cancel_left]
  by_cases hg : gap.drop (j - i) = []
  · -- The whole gap lies before `j`, and its last character is no backslash.
    have hle := List.drop_eq_nil_iff.mp hg
    refine settled_of_slashes ?_ _
    rw [place_of_le hij, ht, List.take_append_of_le_length (by omega), List.take_of_length_le hle]
    exact Place.after_slashes_of_getLast (fun he => by rw [he, List.length_nil] at hj; omega)
      hf.gap_last
  · refine .inr fun k c u hu => ?_
    rw [hdrop] at hu
    refine not_isPairing_of_append hg (fun c hc => hf.gap_plain c (List.mem_of_mem_drop hc)) ?_ hu
    rw [List.getLast?_drop, if_neg (fun hle => hg (List.drop_eq_nil_of_le hle))]
    exact hf.gap_last

/-- A stretch of a text from a settled place to another, where nothing is open at either, is
balanced. -/
theorem balanced_slice (hij : i ≤ j) (hs : (place t i).Settled (t.drop i))
    (hi : (place t i).stack = []) (hopen : (place t j).stack = [])
    (hmal : (place t j).malformed = false) : Balanced (t.slice i j) := by
  have hmal' := malformed_place_of_le hij hmal
  rw [place_of_le hij] at hopen hmal
  rw [← List.take_append_drop (j - i) (t.drop i)] at hs
  obtain ⟨h₁, h₂⟩ := Place.after_of_settled hs
  rw [hi, hmal'] at h₁ h₂
  rw [Balanced, place, List.take_length]
  exact ⟨h₁ ▸ hopen, h₂ ▸ hmal⟩

end RegexText.Nesting
