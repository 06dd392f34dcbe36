import RegexText.Nesting.Symbol

/-!
# The next bracket or quote mark

What `nextSymbol?` finds, in terms of the text: a gap without marks, then the backslashes just
before the mark, then the mark itself (`nextSymbol?_found`). Where it finds nothing, no mark is left
(`nextSymbol?_none`). Text before the place where it starts only shifts what it finds
(`nextSymbol?_append`), and a text without marks after it changes nothing
(`nextSymbol?_append_plain`).
-/

namespace RegexText.Nesting

theorem isPairing_backslash : isPairing '\\' = false := by decide

/-- The mark `y` is the first of `t`, after `gap` and `n` backslashes, where `t` starts at index
`i`. -/
structure Symbol.Found (t : Text) (i : Nat) (y : Symbol) (gap : Text) (n : Nat) : Prop where
  text_eq : ∃ tail, t = gap ++ (List.replicate n '\\' ++ y.char :: tail)
  gap_plain : ∀ c ∈ gap, isPairing c = false
  gap_last : gap.getLast? ≠ some '\\'
  isPairing : isPairing y.char = true
  start_eq : y.start = i + gap.length
  stop_eq : y.stop = i + gap.length + n + 1
  escaped_eq : y.escaped = (n % 2 == 1)

/-- The mark that a scan finds after `k` backslashes, which belong to it if it has no gap before it.
-/
theorem Symbol.scan_found {t : Text} {i k : Nat} {y : Symbol} (h : scan i k t = some y) :
    ∃ gap n tail, t = gap ++ (List.replicate n '\\' ++ y.char :: tail) ∧
      (∀ c ∈ gap, Nesting.isPairing c = false) ∧ gap.getLast? ≠ some '\\' ∧
      Nesting.isPairing y.char = true ∧ y.stop = i + gap.length + n + 1 ∧
      (gap = [] ∧ y.start = i - k ∧ y.escaped = ((k + n) % 2 == 1) ∨
        gap ≠ [] ∧ y.start = i + gap.length ∧ y.escaped = (n % 2 == 1)) := by
  induction t generalizing i k with
  | nil => cases h
  | cons c cs ih =>
    unfold scan at h
    split at h
    · -- One more backslash: it belongs to the gap if there is one.
      rename_i hc
      obtain rfl := eq_of_beq hc
      obtain ⟨gap, n, tail, rfl, hplain, hlast, hy, hstop, hcase⟩ := ih h
      rcases hcase with ⟨rfl, hstart, hesc⟩ | ⟨hne, hstart, hesc⟩
      · refine ⟨[], n + 1, tail, rfl, hplain, hlast, hy, ?_, .inl ⟨rfl, ?_, ?_⟩⟩
        · simp only [List.length_nil] at hstop ⊢; omega
        · omega
        · rw [hesc, Nat.add_right_comm, Nat.add_assoc]
      · refine ⟨'\\' :: gap, n, tail, rfl, ?_, ?_, hy, ?_, .inr ⟨List.cons_ne_nil _ _, ?_, hesc⟩⟩
        · exact List.forall_mem_cons.mpr ⟨isPairing_backslash, hplain⟩
        · rwa [List.getLast?_cons_of_ne_nil hne]
        · simp only [List.length_cons]; omega
        · simp only [List.length_cons]; omega
    · rename_i hc
      split at h
      · rename_i hp
        cases h
        exact ⟨[], 0, cs, rfl, by simp, by simp, hp, rfl, .inl ⟨rfl, rfl, rfl⟩⟩
      · rename_i hp
        obtain ⟨gap, n, tail, rfl, hplain, hlast, hy, hstop, hcase⟩ := ih h
        refine ⟨c :: gap, n, tail, rfl, ?_, ?_, hy, ?_, .inr ⟨List.cons_ne_nil _ _, ?_, ?_⟩⟩
        · exact List.forall_mem_cons.mpr ⟨by simpa using hp, hplain⟩
        · cases gap with
          | nil => simpa using hc
          | cons d ds => rwa [List.getLast?_cons_cons]
        · simp only [List.length_cons]; omega
        · simp only [List.length_cons]
          rcases hcase with ⟨rfl, hstart, -⟩ | ⟨-, hstart, -⟩
          · simpa using hstart
          · omega
        · rcases hcase with ⟨-, -, hesc⟩ | ⟨-, -, hesc⟩
          · rw [hesc, Nat.zero_add]
          · exact hesc

theorem Symbol.scan_none {t : Text} {i k : Nat} (h : scan i k t = none) :
    ∀ c ∈ t, Nesting.isPairing c = false := by
  induction t generalizing i k with
  | nil => simp
  | cons c cs ih =>
    unfold scan at h
    split at h
    · rename_i hc
      obtain rfl := eq_of_beq hc
      exact List.forall_mem_cons.mpr ⟨isPairing_backslash, ih h⟩
    · split at h
      · cases h
      · rename_i hp
        exact List.forall_mem_cons.mpr ⟨by simpa using hp, ih h⟩

theorem nextSymbol?_found {t : Text} {i : Nat} {y : Symbol} (h : nextSymbol? t i = some y) :
    ∃ gap n, y.Found (t.drop i) i gap n := by
  obtain ⟨gap, n, tail, ht, hplain, hlast, hy, hstop, hcase⟩ := Symbol.scan_found h
  refine ⟨gap, n, ⟨tail, ht⟩, hplain, hlast, hy, ?_, hstop, ?_⟩
  · rcases hcase with ⟨rfl, hstart, -⟩ | ⟨-, hstart, -⟩
    · simpa using hstart
    · exact hstart
  · rcases hcase with ⟨-, -, hesc⟩ | ⟨-, -, hesc⟩
    · rw [hesc, Nat.zero_add]
    · exact hesc

theorem nextSymbol?_none {t : Text} {i : Nat} (h : nextSymbol? t i = none) :
    ∀ c ∈ t.drop i, isPairing c = false :=
  Symbol.scan_none h

/-- A mark lies in the text, from the index on where it was looked for. -/
theorem nextSymbol?_bounds {t : Text} {i : Nat} {y : Symbol} (h : nextSymbol? t i = some y) :
    i ≤ y.start ∧ y.start < y.stop ∧ y.stop ≤ t.length := by
  obtain ⟨gap, n, hf⟩ := nextSymbol?_found h
  obtain ⟨tail, ht⟩ := hf.text_eq
  have hlen := congrArg List.length ht
  simp only [List.length_drop, List.length_append, List.length_replicate, List.length_cons] at hlen
  have := hf.start_eq
  have := hf.stop_eq
  omega

/-- What a mark reaches over: its backslashes and the mark itself. -/
theorem char_of_nextSymbol? {t : Text} {i j : Nat} {y : Symbol} (h : nextSymbol? t i = some y)
    (hj : y.start ≤ j) (hlt : j < y.stop) :
    ∃ c, t[j]? = some c ∧ (isPairing c = true ∨ c = '\\') := by
  obtain ⟨gap, n, hf⟩ := nextSymbol?_found h
  obtain ⟨tail, ht⟩ := hf.text_eq
  have hstart := hf.start_eq
  have hstop := hf.stop_eq
  have hget : t[j]? = (List.replicate n '\\' ++ y.char :: tail)[j - y.start]? := by
    have hdrop := congrArg (·[j - i]?) ht
    simp only [List.getElem?_drop] at hdrop
    rw [List.getElem?_append_right (by omega), Nat.add_sub_cancel' (by omega)] at hdrop
    rw [hdrop, Nat.sub_sub, ← hstart]
  rcases Nat.lt_or_ge (j - y.start) n with hn | hn
  · refine ⟨'\\', ?_, .inr rfl⟩
    rw [hget, List.getElem?_append_left (by rwa [List.length_replicate]),
      List.getElem?_replicate_of_lt hn]
  · refine ⟨y.char, ?_, .inl hf.isPairing⟩
    obtain rfl : n = j - y.start := by omega
    rw [hget, List.getElem?_append_right (List.length_replicate ▸ Nat.le_refl _),
      List.length_replicate, Nat.sub_self]
    rfl

/-- A mark reaches up to its own character. -/
theorem getElem?_of_nextSymbol? {t : Text} {i : Nat} {y : Symbol} (h : nextSymbol? t i = some y) :
    t[y.stop - 1]? = some y.char ∧ isPairing y.char = true := by
  obtain ⟨gap, n, hf⟩ := nextSymbol?_found h
  obtain ⟨tail, ht⟩ := hf.text_eq
  have hstop := hf.stop_eq
  have hlast : y.stop - 1 = i + (gap ++ List.replicate n '\\').length := by
    rw [List.length_append, List.length_replicate]
    omega
  refine ⟨?_, hf.isPairing⟩
  rw [hlast, ← List.getElem?_drop, ht, ← List.append_assoc,
    List.getElem?_append_right (Nat.le_refl _), Nat.sub_self]
  rfl

/-- The mark as it is counted from a place `k` characters further to the left. -/
def Symbol.shift (k : Nat) (y : Symbol) : Symbol :=
  { y with start := k + y.start, stop := k + y.stop }

theorem Symbol.scan_add (d i k : Nat) (t : Text) (hk : k ≤ i) :
    scan (d + i) k t = (scan i k t).map (Symbol.shift d) := by
  induction t generalizing i k with
  | nil => rfl
  | cons c cs ih =>
    simp only [scan]
    split
    · exact ih (i + 1) (k + 1) (by omega)
    · split
      · simp only [Option.map_some, Symbol.shift, Nat.add_sub_assoc hk, Nat.add_assoc]
      · exact ih (i + 1) 0 (by omega)

/-- Text in front of where a mark is looked for shifts what is found. -/
theorem nextSymbol?_append (d t : Text) (i : Nat) :
    nextSymbol? (d ++ t) (d.length + i) = (nextSymbol? t i).map (Symbol.shift d.length) := by
  rw [nextSymbol?, List.drop_length_add_append]
  exact Symbol.scan_add _ _ _ _ (Nat.zero_le _)

theorem Symbol.scan_of_plain {w : Text} (hw : ∀ c ∈ w, Nesting.isPairing c = false) (i k : Nat) :
    scan i k w = none := by
  cases h : scan i k w with
  | none => rfl
  | some y =>
    obtain ⟨gap, n, tail, rfl, -, -, hy, -⟩ := scan_found h
    have hplain := hw y.char (by simp)
    rw [hy] at hplain
    cases hplain

theorem Symbol.scan_append_plain {w : Text} (hw : ∀ c ∈ w, Nesting.isPairing c = false) (t : Text)
    (i k : Nat) : scan i k (t ++ w) = scan i k t := by
  induction t generalizing i k with
  | nil => exact scan_of_plain hw i k
  | cons c cs ih =>
    simp only [List.cons_append, scan]
    split
    · exact ih (i + 1) (k + 1)
    · split
      · rfl
      · exact ih (i + 1) 0

/-- Where a text without marks comes after it, a text has the marks that it had. -/
theorem nextSymbol?_append_plain {w : Text} (hw : ∀ c ∈ w, isPairing c = false) (t : Text)
    (i : Nat) : nextSymbol? (t ++ w) i = nextSymbol? t i := by
  rw [nextSymbol?, List.drop_append]
  exact Symbol.scan_append_plain (fun c hc => hw c (List.mem_of_mem_drop hc)) _ i 0

end RegexText.Nesting
