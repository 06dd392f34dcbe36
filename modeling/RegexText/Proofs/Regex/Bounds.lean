import RegexText.Regex.Search

/-!
# Where matches lie

A program records only positions that it has reached, so what a search gives lies in the text that
was searched, whatever the program is:

* `run_bounds`: a run ends in what it was given to read, and has recorded nothing outside the
  stretch that it has read;
* `find?_within`: a match starts no earlier than the search, ends in the text, and holds all its
  groups.
-/

namespace RegexText.Regex

/-- All recorded positions lie from `lo` to `hi`. -/
def Marks.Within (lo hi : Nat) (marks : Marks) : Prop :=
  ∀ b ∈ marks, lo ≤ b.2 ∧ b.2 ≤ hi

theorem Marks.Within.mono {lo hi hi' : Nat} {marks : Marks} (h : marks.Within lo hi)
    (hhi : hi ≤ hi') : marks.Within lo hi' :=
  fun b hb => ⟨(h b hb).1, Nat.le_trans (h b hb).2 hhi⟩

theorem Marks.within_nil (lo hi : Nat) : Marks.Within lo hi [] := by
  simp [Marks.Within]

theorem Marks.Within.cons {lo pos : Nat} {marks : Marks} (h : marks.Within lo pos) (hlo : lo ≤ pos)
    (slot : Nat) : Marks.Within lo pos ((slot, pos) :: marks) := by
  intro b hb
  rcases List.mem_cons.mp hb with rfl | hb
  · exact ⟨hlo, Nat.le_refl _⟩
  · exact h b hb

theorem Marks.Within.lookup {lo hi slot pos : Nat} {marks : Marks} (h : marks.Within lo hi)
    (hl : marks.lookup slot = some pos) : lo ≤ pos ∧ pos ≤ hi := by
  induction marks with
  | nil => simp at hl
  | cons b marks ih =>
    rw [List.lookup_cons] at hl
    split at hl
    · cases hl; exact h b List.mem_cons_self
    · exact ih (fun b' hb' => h b' (List.mem_cons_of_mem _ hb')) hl

/-- All threads have recorded positions from `lo` to `hi` only. -/
def ThreadsWithin (lo hi : Nat) (threads : List Thread) : Prop :=
  ∀ t ∈ threads, t.marks.Within lo hi

namespace Program

variable {p : Program} {lo : Nat}

/-- Following instructions at `pos` records no position but `pos`. -/
theorem follow_within {sides : Sides} {pos : Nat} (hlo : lo ≤ pos) (depth : Nat) {k : Nat}
    {marks : Marks} {f : Frontier} (hm : marks.Within lo pos)
    (hf : ThreadsWithin lo pos f.threads) :
    ThreadsWithin lo pos (p.follow sides pos depth k marks f).threads := by
  induction depth generalizing k marks f with
  | zero => exact hf
  | succ depth ih =>
    unfold follow
    split
    · exact hf
    have hv : ThreadsWithin lo pos (f.visit k).threads := hf
    have hp : ThreadsWithin lo pos ((f.visit k).push ⟨k, marks⟩).threads := by
      intro t ht
      rcases List.mem_cons.mp ht with rfl | ht
      · exact hm
      · exact hf t ht
    dsimp only
    split
    · exact hv
    · exact hp
    · exact hp
    · split
      · exact ih hm hv
      · exact hv
    · exact ih (hm.cons hlo _) hv
    · exact ih hm hv
    · exact ih hm (ih hm hv)

theorem threadsFrom_within {sides : Sides} {pos : Nat} (hlo : lo ≤ pos) {starts : List Thread}
    (hs : ThreadsWithin lo pos starts) : ThreadsWithin lo pos (p.threadsFrom sides pos starts) := by
  have hfold : ∀ (starts : List Thread) (f : Frontier), ThreadsWithin lo pos starts →
      ThreadsWithin lo pos f.threads →
      ThreadsWithin lo pos (starts.foldl
        (fun f t => p.follow sides pos (p.size + 1) t.place t.marks f) f).threads := by
    intro starts
    induction starts with
    | nil => exact fun f _ hf => hf
    | cons t starts ih =>
      intro f hs hf
      exact ih _ (fun t' ht' => hs t' (List.mem_cons_of_mem _ ht'))
        (follow_within hlo _ (hs t List.mem_cons_self) hf)
  intro t ht
  exact hfold starts {} hs (by simp [ThreadsWithin]) t (List.mem_reverse.mp ht)

theorem advance_within {hi : Nat} {c : Char} {threads : List Thread}
    (h : ThreadsWithin lo hi threads) : ThreadsWithin lo hi (p.advance c threads) := by
  intro t ht
  obtain ⟨t₀, ht₀, he⟩ := List.mem_filterMap.mp ht
  split at he
  · split at he <;> cases he
    exact h t₀ ht₀
  · cases he

theorem accepted_within {pos stop : Nat} {threads : List Thread} {marks : Marks}
    (h : ThreadsWithin lo pos threads)
    (he : ((threads.find? p.accepts).map fun t => (pos, t.marks)) = some (stop, marks)) :
    stop = pos ∧ marks.Within lo pos := by
  obtain ⟨t, ht, e⟩ := Option.map_eq_some_iff.mp he
  cases e
  exact ⟨rfl, h t (List.mem_of_find?_eq_some ht)⟩

/-- A run ends at a position that it has reached, and has recorded none beyond. -/
theorem run_bounds {pos stop : Nat} {threads : List Thread} {marks : Marks} (rest : Text)
    (hlo : lo ≤ pos) (ht : ThreadsWithin lo pos threads)
    (h : p.run pos threads rest = some (stop, marks)) :
    pos ≤ stop ∧ stop ≤ pos + rest.length ∧ marks.Within lo stop := by
  induction rest generalizing pos threads with
  | nil =>
    obtain ⟨rfl, hm⟩ := accepted_within ht h
    exact ⟨Nat.le_refl _, Nat.le_add_right .., hm⟩
  | cons c cs ih =>
    unfold run at h
    dsimp only at h
    split at h
    · obtain ⟨rfl, hm⟩ := accepted_within ht h
      exact ⟨Nat.le_refl _, Nat.le_add_right .., hm⟩
    · rcases Option.or_eq_some_iff.mp h with h | ⟨-, h⟩
      · have htw : ThreadsWithin lo (pos + 1) (threads.takeWhile (!p.accepts ·)) := fun t hmem =>
          (ht t ((List.takeWhile_sublist _).subset hmem)).mono (Nat.le_succ _)
        obtain ⟨h₁, h₂, h₃⟩ := ih (Nat.le_succ_of_le hlo)
          (threadsFrom_within (Nat.le_succ_of_le hlo) (advance_within htw)) h
        exact ⟨by omega, by rw [List.length_cons]; omega, h₃⟩
      · obtain ⟨rfl, hm⟩ := accepted_within ht h
        exact ⟨Nat.le_refl _, Nat.le_add_right .., hm⟩

end Program

/-- The match lies from `lo` to `hi`, and its groups lie in it. -/
structure Captures.Within (lo hi : Nat) (c : Captures) : Prop where
  lo_le : lo ≤ c.whole.start
  start_le : c.whole.start ≤ c.whole.stop
  le_hi : c.whole.stop ≤ hi
  groups : ∀ s, some s ∈ c.groups → c.whole.start ≤ s.start ∧ s.stop ≤ c.whole.stop

theorem Captures.Within.mono {lo lo' hi : Nat} {c : Captures} (h : c.Within lo' hi)
    (hlo : lo ≤ lo') : c.Within lo hi :=
  ⟨Nat.le_trans hlo h.lo_le, h.start_le, h.le_hi, h.groups⟩

variable {re : Regex}

theorem matchAt?_within {before : Option Char} {pos : Nat} {rest : Text} {c : Captures}
    (h : re.matchAt? before pos rest = some c) : c.Within pos (pos + rest.length) := by
  obtain ⟨⟨stop, marks⟩, hr, rfl⟩ := Option.map_eq_some_iff.mp h
  have hstart : ThreadsWithin pos pos [⟨0, []⟩] := by
    simp [ThreadsWithin, Marks.within_nil]
  obtain ⟨h₁, h₂, hm⟩ := Program.run_bounds rest (Nat.le_refl _)
    (Program.threadsFrom_within (Nat.le_refl _) hstart) hr
  refine ⟨Nat.le_refl _, h₁, h₂, fun s hs => ?_⟩
  obtain ⟨i, -, hi⟩ := List.mem_map.mp hs
  simp only [groupSpan?, Option.bind_eq_bind, Option.bind_eq_some_iff, Option.pure_def,
    Option.some.injEq] at hi
  obtain ⟨start, hstart, stop', hstop, rfl⟩ := hi
  exact ⟨(hm.lookup hstart).1, (hm.lookup hstop).2⟩

theorem scan_within {before : Option Char} {pos : Nat} {rest : Text} {c : Captures}
    (h : re.scan before pos rest = some c) : c.Within pos (pos + rest.length) := by
  induction rest generalizing before pos with
  | nil =>
    unfold scan at h
    split at h
    · rename_i m hm
      cases h; exact matchAt?_within hm
    · cases h
  | cons a cs ih =>
    unfold scan at h
    split at h
    · rename_i m hm
      cases h; exact matchAt?_within hm
    · have hw := (ih h).mono (Nat.le_succ pos)
      rwa [show pos + 1 + cs.length = pos + (a :: cs).length by rw [List.length_cons]; omega] at hw

/-- A match starts at or after the start of the search, ends in the text, and holds its groups. -/
theorem find?_within {t : Text} {i : Nat} {c : Captures} (h : re.find? t i = some c) :
    c.Within i t.length := by
  unfold find? at h
  split at h
  · rename_i hi
    have hw := scan_within h
    rwa [List.length_drop, Nat.add_sub_cancel' hi] at hw
  · cases h

end RegexText.Regex
