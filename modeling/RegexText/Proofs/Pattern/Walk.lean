import RegexText.Pattern.Replace
import RegexText.Pattern.Walk
import RegexText.Proofs.Pattern.Segmentation

/-!
# Replacing along a walk

A walk yields its matches one after the other until none is left (`Walk.Yields`), and it does so
after no more steps than the text has characters (`Walk.yields_all`), since every match moves it
ahead. `Pattern.replaceWith` moves its own position by another rule: past the last index of a match
or, past an empty one, over the character that it copies. Both rules lead to the same place
(`Match.Placed.resume_eq`), so what is replaced are the matches of the walk
(`Pattern.replaceWith_of_yields`).

The main statement is `Pattern.replaceWith_walk`.
-/

namespace RegexText

variable {t : Text} {m : Match} {lo : Nat}

/-- The position of a walk after the match. -/
def Match.resume (m : Match) : Nat := m.index + m.text.length.max 1

/-- A walk goes on at the end of a match, but at least one character after its start. -/
theorem Match.Placed.resume_eq (h : m.Placed t lo) : m.resume = max m.stop (m.index + 1) := by
  have hle := h.index_le
  have hmax : m.text.length.max 1 = max (m.stop - m.index) 1 := congrArg (max · 1) h.length_text
  rw [resume, hmax]
  omega

theorem Match.Placed.stop_le_resume (h : m.Placed t lo) : m.stop ≤ m.resume :=
  h.resume_eq ▸ Nat.le_max_left _ _

theorem Match.Placed.resume_of_some (h : m.Placed t lo) {last : Nat}
    (hlast : m.lastIndex = some last) : m.resume = last + 1 ∧ m.stop = last + 1 := by
  have hstop : m.stop = last + 1 := by rw [stop, hlast]
  have hne : m.stop ≠ m.index := fun he => by
    have hnone := h.isNone_iff.mpr he
    rw [hlast] at hnone
    cases hnone
  have hle := h.index_le
  rw [h.resume_eq]
  omega

theorem Match.Placed.resume_of_none (h : m.Placed t lo) (hlast : m.lastIndex = none) :
    m.resume = m.index + 1 ∧ m.stop = m.index := by
  have hstop : m.stop = m.index := by rw [stop, hlast]
  rw [h.resume_eq]
  omega

namespace Walk

variable {w w' : Walk} {ms : List Match}

/-- The matches that the walk yields in `t`, called on until there is none. -/
inductive Yields (t : Text) : Walk → List Match → Prop where
  | done {w w' : Walk} (h : w.next t = (none, w')) : Yields t w []
  | more {w w' : Walk} {m : Match} {ms : List Match} (h : w.next t = (some m, w'))
    (hlater : Yields t w' ms) : Yields t w (m :: ms)

theorem next_of_none (h : w.pattern.matchFirst t w.position = none) :
    w.next t = (none, { w with position := 0 }) := by
  rw [next, h]

theorem next_of_some (h : w.pattern.matchFirst t w.position = some m) :
    w.next t = (some m, ⟨w.pattern, m.resume⟩) := by
  rw [next, h]
  rfl

theorem next_eq_none (h : w.next t = (none, w')) : w.pattern.matchFirst t w.position = none := by
  unfold next at h
  split at h
  · assumption
  · cases h

theorem next_eq_some (h : w.next t = (some m, w')) :
    w.pattern.matchFirst t w.position = some m ∧ w' = ⟨w.pattern, m.resume⟩ := by
  unfold next at h
  split at h
  · cases h
  · rename_i m' hm
    cases h
    exact ⟨hm, rfl⟩

/-- A match is found inside the text only, and moves the walk ahead. -/
theorem position_lt (h : w.pattern.matchFirst t w.position = some m) :
    w.position < t.length ∧ w.position < m.resume := by
  have hplaced := Pattern.matchFirst_placed h
  have hlo := hplaced.lo_le
  have hresume := hplaced.resume_eq
  unfold Pattern.matchFirst at h
  split at h
  · cases h
  · omega

/-- Past the end of the text a walk yields nothing. -/
theorem Yields.eq_nil (h : Yields t w ms) (hend : t.length ≤ w.position) : ms = [] := by
  cases h with
  | done => rfl
  | more hnext =>
    have hlt := (position_lt (next_eq_some hnext).1).1
    omega

/-- What a walk yields is determined. -/
theorem Yields.unique {ms' : List Match} (h : Yields t w ms) (h' : Yields t w ms') : ms = ms' := by
  induction h generalizing ms' with
  | done hnext =>
    cases h' with
    | done => rfl
    | more hmore => rw [hnext] at hmore; cases hmore
  | more hnext _ ih =>
    cases h' with
    | done hdone => rw [hnext] at hdone; cases hdone
    | more hmore hlater =>
      rw [hnext] at hmore
      cases hmore
      rw [ih hlater]

/-- As many steps as there are characters left, and one more, come to the end of the walk. -/
theorem yields_rest {steps : Nat} (hsteps : t.length - w.position < steps) :
    Yields t w ((w.rest t steps).map (·.1)) := by
  induction steps generalizing w with
  | zero => cases hsteps
  | succ steps ih =>
    unfold rest
    split
    · rename_i w' hnext
      exact .done hnext
    · rename_i m w' hnext
      obtain ⟨hm, rfl⟩ := next_eq_some hnext
      obtain ⟨hlt, hahead⟩ := position_lt hm
      have hless : t.length - m.resume < steps := by omega
      exact .more hnext (ih hless)

theorem yields_all (w : Walk) (t : Text) : Yields t w ((w.all t).map (·.1)) :=
  yields_rest (by omega)

/-- The matches lie one after the other from the position of the walk on. -/
theorem Yields.laid (h : Yields t w ms) : Laid t w.position ms := by
  induction h with
  | done => trivial
  | @more w w' m ms hnext hlater ih =>
    obtain ⟨hm, rfl⟩ := next_eq_some hnext
    have hplaced := Pattern.matchFirst_placed hm
    exact ⟨hplaced, ih.mono hplaced.stop_le_resume⟩

end Walk

namespace Pattern

variable {p : Pattern} {w : Walk} {ms : List Match}

/-- A match is replaced, and the text up to where a walk goes on is kept: nothing, or the character
that comes after an empty match. -/
theorem replaceFrom_of_some {f : Nat → Match → Text} {steps n i : Nat}
    (hm : p.matchFirst t i = some m) :
    p.replaceFrom t f (steps + 1) n i =
      t.slice i m.index ++
        (f n m ++ (t.slice m.stop m.resume ++ p.replaceFrom t f steps (n + 1) m.resume)) := by
  have hplaced := matchFirst_placed hm
  rw [replaceFrom, hm]
  cases hlast : m.lastIndex with
  | some last =>
    obtain ⟨hresume, hstop⟩ := hplaced.resume_of_some hlast
    simp only [hlast, hresume, hstop, Text.slice_self, List.nil_append, List.append_assoc]
  | none =>
    obtain ⟨hresume, hstop⟩ := hplaced.resume_of_none hlast
    have hkept : t.slice m.index (m.index + 1) = t[m.index]?.toList := by
      rw [Text.slice, Nat.add_sub_cancel_left, List.take_one, List.head?_drop]
    simp only [hlast, hresume, hstop, hkept, List.append_assoc]

/-- What is left of the text is replaced along the walk from there. -/
theorem replaceFrom_of_yields (f : Nat → Match → Text) (h : Walk.Yields t w ms) {steps : Nat}
    (hsteps : t.length - w.position < steps) (n : Nat) :
    w.pattern.replaceFrom t f steps n w.position =
      (Segmentation.ofMatches t w.position ms).replaced fun k => f (n + k) := by
  induction h generalizing steps n with
  | done hnext =>
    cases steps with
    | zero => cases hsteps
    | succ steps =>
      rw [replaceFrom, Walk.next_eq_none hnext]
      exact (List.append_nil _).symm
  | @more w w' m ms hnext hlater ih =>
    obtain ⟨hm, rfl⟩ := Walk.next_eq_some hnext
    have hplaced := matchFirst_placed hm
    obtain ⟨hlt, hahead⟩ := Walk.position_lt hm
    cases steps with
    | zero => cases hsteps
    | succ steps =>
      have hless : t.length - m.resume < steps := by omega
      have hrest := ih hless (n + 1)
      have hnumber : (fun k => f (n + 1 + k)) = fun k => f (n + (k + 1)) :=
        funext fun k => by rw [Nat.add_right_comm, Nat.add_assoc]
      have hkept := Segmentation.replaced_ofMatches_of_le hlater.laid hplaced.stop_le_resume
        fun k => f (n + (k + 1))
      rw [hnumber] at hrest
      rw [replaceFrom_of_some hm, hrest, Segmentation.ofMatches, Segmentation.replaced_cons]
      exact congrArg (fun rest => t.slice w.position m.index ++ (f n m ++ rest)) hkept.symm

/-- What `replaceWith` replaces are the matches of the walk from the offset on. -/
theorem replaceWith_of_yields {offset : Nat} (h : Walk.Yields t ⟨p, offset⟩ ms)
    (f : Nat → Match → Text) :
    p.replaceWith t offset f = (Segmentation.ofMatches t 0 ms).replaced f := by
  have hrest := replaceFrom_of_yields f h (Nat.lt_succ_of_le (Nat.sub_le t.length offset)) 0
  simp only [Nat.zero_add] at hrest
  rw [replaceWith, hrest, Segmentation.replaced_ofMatches_of_le h.laid (Nat.zero_le offset)]
  rfl

/-- `replaceWith` calls its function, with the numbers from 0 on, on the matches that a walk from
the offset on yields, one after the other until none is left, and puts what it gives in the place of
each of them. All else of the text stays as it is, so replacing every match by its own text changes
nothing. -/
theorem replaceWith_walk (p : Pattern) (t : Text) (offset : Nat) :
    ∃ ms, Walk.Yields t ⟨p, offset⟩ ms ∧ (Segmentation.ofMatches t 0 ms).text = t ∧
      (∀ f, p.replaceWith t offset f = (Segmentation.ofMatches t 0 ms).replaced f) ∧
      p.replaceWith t offset (fun _ m => m.text) = t := by
  have h := Walk.yields_all ⟨p, offset⟩ t
  have htext := Segmentation.text_ofMatches (h.laid.mono (Nat.zero_le offset))
  rw [List.drop_zero] at htext
  refine ⟨_, h, htext, replaceWith_of_yields h, ?_⟩
  rw [replaceWith_of_yields h, Segmentation.replaced_text, htext]

end Pattern

end RegexText
