import Mathlib.Data.List.TakeWhile
import RegexText.Proofs.Regex.Sweep
import RegexText.Regex.Search

/-!
# Ways to a match

A way through a program reads a text one character after the other and ends at an instruction that
accepts (`Program.Leads`). A run of threads ends in a match just if some way leads there:

* `leads_of_run`: the thread that wins has a way, and reads just what the match holds;
* `exists_run_of_leads`: if a thread before all that accept has a way, then there is a match, and
  it holds a character.

The preference between threads is what a run has that a way has not. `exists_last` keeps it: where a
match ends, the threads at its end are such that it ends there.
-/

namespace RegexText.Regex

namespace Program

open Sweep (Reaches)

variable {p : Program} {sides : Sides} {pos stop k : Nat} {before : Option Char}
  {word after rest : Text} {threads starts : List Thread} {marks : Marks}

/-- From instruction `k`, where `before` comes before and `word` and `after` come behind, a way
through the program reads `word` and accepts. -/
inductive Leads (p : Program) :
    (k : Nat) → (before : Option Char) → (word after : Text) → Prop where
  | accept {k : Nat} {before : Option Char} {after : Text} (h : p[k]? = some .accept) :
    Leads p k before [] after
  | read {k : Nat} {before : Option Char} {word after : Text} {s : CharClass} {c : Char}
    (h : p[k]? = some (.chars s)) (hc : s.contains c)
    (hword : Leads p (k + 1) (some c) word after) :
    Leads p k before (c :: word) after
  | step {k d : Nat} {before : Option Char} {word after : Text}
    (h : d ∈ p.next ⟨before, (word ++ after).head?⟩ k) (hword : Leads p d before word after) :
    Leads p k before word after

theorem Leads.of_reaches {d : Nat} (h : Reaches (p.next ⟨before, (word ++ after).head?⟩) k d)
    (hd : p.Leads d before word after) : p.Leads k before word after := by
  induction h using Relation.ReflTransGen.head_induction_on with
  | refl => exact hd
  | head hstep _ ih => exact .step hstep ih

/-- Before it reads or accepts, a way comes to where a thread can stand. -/
theorem Leads.exists_stands (h : p.Leads k before word after) :
    ∃ d, Reaches (p.next ⟨before, (word ++ after).head?⟩) k d ∧ p.stands d ∧
      p.Leads d before word after := by
  induction h with
  | accept h => exact ⟨_, .refl, by simp only [stands, h], .accept h⟩
  | read h hc hword => exact ⟨_, .refl, by simp only [stands, h], .read h hc hword⟩
  | step h _ ih =>
    obtain ⟨d, hreaches, hd⟩ := ih
    exact ⟨d, .head h hreaches, hd⟩

/-- A way from a place where a character is read goes on behind that character. -/
theorem Leads.of_chars {s : CharClass} (h : p.Leads k before word after)
    (hk : p[k]? = some (.chars s)) :
    ∃ c word', word = c :: word' ∧ s.contains c ∧ p.Leads (k + 1) (some c) word' after := by
  cases h with
  | accept h =>
    rw [hk] at h
    cases h
  | read h hc hword =>
    rw [hk] at h
    cases h
    exact ⟨_, _, rfl, hc, hword⟩
  | step h =>
    rw [next_chars hk] at h
    cases h

/-! ## Threads -/

/-- A position has a thread just where one can stand that a start leads to. -/
theorem mem_threadsFrom :
    k ∈ (p.threadsFrom sides pos starts).map (·.place) ↔
      p.stands k ∧ ∃ t ∈ starts, Reaches (p.next sides) t.place k := by
  obtain ⟨v, hv, hplaces⟩ := p.exists_sweep_threadsFrom sides pos starts
  have hstarts : (∃ r ∈ starts.map (·.place), Reaches (p.next sides) r k) ↔
      ∃ t ∈ starts, Reaches (p.next sides) t.place k := by
    simp only [List.mem_map, exists_exists_and_eq_and]
  rw [hplaces, List.mem_filter, List.mem_reverse, hv.mem_iff, hstarts, and_comm]

theorem stands_of_mem_threadsFrom {t : Thread} (ht : t ∈ p.threadsFrom sides pos starts) :
    p.stands t.place :=
  (mem_threadsFrom.mp (List.mem_map_of_mem (f := (·.place)) ht)).1

theorem mem_advance {c : Char} {t' : Thread} :
    t' ∈ p.advance c threads ↔ ∃ t ∈ threads, ∃ s, p[t.place]? = some (.chars s) ∧
      s.contains c ∧ t' = ⟨t.place + 1, t.marks⟩ := by
  rw [advance, List.mem_filterMap]
  refine exists_congr fun t => and_congr_right fun _ => ?_
  cases p[t.place]? with
  | none => simp
  | some instr =>
    cases instr with
    | chars s =>
      simp only [Option.some.injEq, Instr.chars.injEq]
      constructor
      · intro h
        split at h
        · cases h
          exact ⟨s, rfl, ‹_›, rfl⟩
        · cases h
      · rintro ⟨_, rfl, hc, rfl⟩
        rw [if_pos hc]
    | assert | mark | jump | split | accept => simp

theorem accepts_iff {t : Thread} : p.accepts t ↔ p[t.place]? = some .accept := by
  rw [accepts]
  cases p[t.place]? with
  | none => simp
  | some instr => cases instr <;> simp

/-- A thread that stands somewhere and does not accept reads a character. -/
theorem exists_chars_of_stands {t : Thread} (h : p.stands t.place) (ht : ¬ p.accepts t) :
    ∃ s, p[t.place]? = some (.chars s) := by
  rw [accepts_iff] at ht
  rw [stands] at h
  split at h
  · exact ⟨_, ‹_›⟩
  · exact absurd ‹_› ht
  · cases h

theorem not_accepts_of_mem_takeWhile {t : Thread} (h : t ∈ threads.takeWhile (!p.accepts ·)) :
    ¬ p.accepts t := by
  simpa using List.mem_takeWhile_imp h

/-- A thread stands in front of all that accept, or else there is one that accepts. -/
theorem mem_takeWhile_or {t : Thread} (ht : t ∈ threads) :
    t ∈ threads.takeWhile (!p.accepts ·) ∨ ∃ a ∈ threads, p.accepts a := by
  by_cases h : ∃ a ∈ threads, p.accepts a
  · exact .inr h
  · have hall : threads.takeWhile (!p.accepts ·) = threads := by
      refine List.takeWhile_eq_self_iff.mpr fun a ha => ?_
      rw [Bool.not_eq_true', Bool.eq_false_iff]
      exact fun hacc => h ⟨a, ha, hacc⟩
    exact .inl (hall.symm ▸ ht)

/-- The places of the threads in front of all that accept. -/
theorem map_place_takeWhile {places : List Nat} (h : threads.map (·.place) = places) :
    (threads.takeWhile (!p.accepts ·)).map (·.place) =
      places.takeWhile fun k => !p.accepts ⟨k, []⟩ := by
  rw [← h, List.takeWhile_map]
  rfl

/-- They have been visited before a place that accepts. -/
theorem mem_visited_of_front {later u : List Nat} {t : Thread}
    (hplaces : threads.map (·.place) = (later ++ k :: u).reverse.filter p.stands)
    (hk : p[k]? = some .accept) (ht : t ∈ threads.takeWhile (!p.accepts ·)) : t.place ∈ u := by
  have hstands : p.stands k := by simp only [stands, hk]
  have hends : p.accepts ⟨k, []⟩ = true := accepts_iff.mpr hk
  have hfront := List.mem_map_of_mem (f := (·.place)) ht
  rw [map_place_takeWhile hplaces, List.reverse_append, List.reverse_cons, List.append_assoc,
    List.filter_append, List.singleton_append, List.filter_cons_of_pos hstands,
    List.takeWhile_append, List.takeWhile_cons, hends] at hfront
  simp only [Bool.not_true, Bool.false_eq_true, if_false, List.append_nil] at hfront
  have hmem : t.place ∈ u.reverse.filter p.stands := by
    split at hfront
    · exact hfront
    · exact (List.takeWhile_sublist _).subset hfront
  exact List.mem_reverse.mp (List.mem_filter.mp hmem).1

/-- All that has been visited before the first place that accepts is theirs. -/
theorem exists_front {later u : List Nat} {d : Nat}
    (hplaces : threads.map (·.place) = (later ++ k :: u).reverse.filter p.stands)
    (hu : ∀ d ∈ u, p[d]? ≠ some .accept) (hd : d ∈ u) (hstands : p.stands d) :
    ∃ t ∈ threads.takeWhile (!p.accepts ·), t.place = d := by
  have hwaits : ∀ d ∈ u.reverse.filter p.stands, !p.accepts ⟨d, []⟩ := by
    intro d hd
    rw [Bool.not_eq_true', Bool.eq_false_iff, ne_eq, accepts_iff]
    exact hu d (List.mem_reverse.mp (List.mem_filter.mp hd).1)
  have hfront : d ∈ (threads.takeWhile (!p.accepts ·)).map (·.place) := by
    rw [map_place_takeWhile hplaces, List.reverse_append, List.reverse_cons, List.append_assoc,
      List.filter_append, List.takeWhile_append_of_pos hwaits]
    exact List.mem_append_left _ (List.mem_filter.mpr ⟨List.mem_reverse.mpr hd, hstands⟩)
  exact List.mem_map.mp hfront

/-! ## Runs -/

theorem run_nil_threads (p : Program) (pos : Nat) (rest : Text) : p.run pos [] rest = none := by
  cases rest <;> rfl

/-- A run goes on behind the next character with the threads in front of all that accept, and where
that leads nowhere it ends. -/
theorem run_cons (p : Program) (pos : Nat) (threads : List Thread) (c : Char) (cs : Text) :
    p.run pos threads (c :: cs) =
      (p.run (pos + 1) (p.threadsFrom ⟨some c, cs.head?⟩ (pos + 1)
        (p.advance c (threads.takeWhile (!p.accepts ·)))) cs).or
      ((threads.find? p.accepts).map fun t => (pos, t.marks)) := by
  rw [run]
  cases hmoved : p.advance c (threads.takeWhile (!p.accepts ·)) with
  | nil =>
    have hthreads : p.threadsFrom ⟨some c, cs.head?⟩ (pos + 1) [] = [] := rfl
    rw [hthreads, run_nil_threads]
    rfl
  | cons t ts => rfl

/-- A match with nothing more to read is that of a thread that accepts. -/
theorem exists_accepts (h : ((threads.find? p.accepts).map fun t => (pos, t.marks)) =
    some (stop, marks)) : stop = pos ∧ ∃ t ∈ threads, p[t.place]? = some .accept := by
  obtain ⟨t, ht, e⟩ := Option.map_eq_some_iff.mp h
  cases e
  exact ⟨rfl, t, List.mem_of_find?_eq_some ht, accepts_iff.mp (List.find?_some ht)⟩

/-- A run ends at once, by a thread that accepts, or goes on behind the next character. -/
theorem run_cases (h : p.run pos threads rest = some (stop, marks)) :
    (stop = pos ∧ ∃ t ∈ threads, p[t.place]? = some .accept) ∨
      ∃ c cs, rest = c :: cs ∧
        p.run (pos + 1) (p.threadsFrom ⟨some c, cs.head?⟩ (pos + 1)
          (p.advance c (threads.takeWhile (!p.accepts ·)))) cs = some (stop, marks) := by
  cases rest with
  | nil => exact .inl (exists_accepts h)
  | cons c cs =>
    rw [run_cons] at h
    rcases Option.or_eq_some_iff.mp h with h | ⟨-, h⟩
    · exact .inr ⟨c, cs, rfl, h⟩
    · exact .inl (exists_accepts h)

/-- The thread that wins has a way that reads what the match holds. If that is a character at least,
it stands in front of all threads that accept. -/
theorem leads_of_run (before : Option Char) (h : p.run pos threads rest = some (stop, marks)) :
    ∃ t ∈ threads, ∃ word after, rest = word ++ after ∧ stop = pos + word.length ∧
      p.Leads t.place before word after ∧ (word ≠ [] → t ∈ threads.takeWhile (!p.accepts ·)) := by
  induction rest generalizing pos threads before with
  | nil =>
    obtain ⟨rfl, t, ht, hacc⟩ := exists_accepts h
    exact ⟨t, ht, [], [], rfl, rfl, .accept hacc, fun hne => absurd rfl hne⟩
  | cons c cs ih =>
    rcases run_cases h with ⟨rfl, t, ht, hacc⟩ | ⟨_, _, he, hrun⟩
    · exact ⟨t, ht, [], c :: cs, rfl, rfl, .accept hacc, fun hne => absurd rfl hne⟩
    · cases he
      obtain ⟨t', ht', word, after, rfl, rfl, hleads, -⟩ := ih (some c) hrun
      obtain ⟨-, r, hr, hreaches⟩ := mem_threadsFrom.mp (List.mem_map_of_mem (f := (·.place)) ht')
      obtain ⟨t, ht, s, hs, hc, rfl⟩ := mem_advance.mp hr
      refine ⟨t, (List.takeWhile_sublist _).subset ht, c :: word, after, rfl, ?_,
        .read hs hc (.of_reaches hreaches hleads), fun _ => ht⟩
      rw [List.length_cons]
      omega

/-- Where a thread accepts there is a match. -/
theorem isSome_run_of_accepts {a : Thread} (ha : a ∈ threads) (hacc : p.accepts a) :
    (p.run pos threads rest).isSome := by
  have hfound : ((threads.find? p.accepts).map fun t => (pos, t.marks)).isSome := by
    rw [Option.isSome_map, List.find?_isSome]
    exact ⟨a, ha, hacc⟩
  cases rest with
  | nil => exact hfound
  | cons c cs => rw [run_cons, Option.isSome_or, hfound, Bool.or_true]

/-- A thread in front of all that accept, and with a way, makes sure of a match that holds a
character. -/
theorem exists_run_of_leads {t : Thread} (ht : t ∈ threads.takeWhile (!p.accepts ·))
    (hstands : p.stands t.place) (h : p.Leads t.place before word after) (pos : Nat) :
    ∃ stop marks, p.run pos threads (word ++ after) = some (stop, marks) ∧ pos < stop := by
  induction word generalizing pos threads before t with
  | nil =>
    obtain ⟨s, hs⟩ := exists_chars_of_stands hstands (not_accepts_of_mem_takeWhile ht)
    obtain ⟨c, word', hword, -⟩ := h.of_chars hs
    cases hword
  | cons c word ih =>
    obtain ⟨s, hs⟩ := exists_chars_of_stands hstands (not_accepts_of_mem_takeWhile ht)
    obtain ⟨_, _, hword, hc, hbehind⟩ := h.of_chars hs
    cases hword
    obtain ⟨d, hreaches, hd, hleads⟩ := hbehind.exists_stands
    have hmoved : (⟨t.place + 1, t.marks⟩ : Thread) ∈
        p.advance c (threads.takeWhile (!p.accepts ·)) := mem_advance.mpr ⟨t, ht, s, hs, hc, rfl⟩
    have hthere : d ∈ (p.threadsFrom ⟨some c, (word ++ after).head?⟩ (pos + 1)
        (p.advance c (threads.takeWhile (!p.accepts ·)))).map (·.place) :=
      mem_threadsFrom.mpr ⟨hd, _, hmoved, hreaches⟩
    obtain ⟨t', ht', rfl⟩ := List.mem_map.mp hthere
    -- the thread behind the character is in front of all that accept, or else one of them is there
    have hlater : (p.run (pos + 1) (p.threadsFrom ⟨some c, (word ++ after).head?⟩ (pos + 1)
        (p.advance c (threads.takeWhile (!p.accepts ·)))) (word ++ after)).isSome := by
      rcases mem_takeWhile_or (p := p) ht' with hfront | ⟨a, ha, hacc⟩
      · obtain ⟨stop, marks, hrun, -⟩ := ih hfront hd hleads (pos + 1)
        rw [hrun]
        rfl
      · exact isSome_run_of_accepts ha hacc
    obtain ⟨⟨stop, marks⟩, hrun⟩ := Option.isSome_iff_exists.mp hlater
    obtain ⟨-, -, read, -, -, hstop, -⟩ := leads_of_run (some c) hrun
    refine ⟨stop, marks, ?_, by omega⟩
    rw [List.cons_append, run_cons, hrun, Option.some_or]

/-- A thread with a way makes sure of a match. -/
theorem isSome_run_of_leads {t : Thread} (ht : t ∈ threads) (hstands : p.stands t.place)
    (h : p.Leads t.place before word after) : (p.run pos threads (word ++ after)).isSome := by
  rcases mem_takeWhile_or (p := p) ht with hfront | ⟨a, ha, hacc⟩
  · obtain ⟨stop, marks, hrun, -⟩ := exists_run_of_leads hfront hstands h pos
    rw [hrun]
    rfl
  · exact isSome_run_of_accepts ha hacc

/-- The threads where a match ends: those that the run was given if it reads nothing, else those
that go on behind the character before. One of them accepts, and the run from there on ends at
once. -/
theorem exists_last (h : p.run pos threads rest = some (stop, marks)) :
    ∃ word after last, rest = word ++ after ∧ stop = pos + word.length ∧
      p.run stop last after = some (stop, marks) ∧
      (∃ a ∈ last, p[a.place]? = some .accept) ∧
      (word = [] ∧ last = threads ∨
        ∃ c starts, last = p.threadsFrom ⟨some c, after.head?⟩ stop starts ∧
          ∀ t ∈ starts, ∃ k s, p[k]? = some (.chars s) ∧ t.place = k + 1) := by
  induction rest generalizing pos threads with
  | nil =>
    obtain ⟨rfl, hacc⟩ := exists_accepts h
    exact ⟨[], [], threads, rfl, rfl, h, hacc, .inl ⟨rfl, rfl⟩⟩
  | cons c cs ih =>
    rcases run_cases h with ⟨rfl, hacc⟩ | ⟨_, _, he, hrun⟩
    · exact ⟨[], c :: cs, threads, rfl, rfl, h, hacc, .inl ⟨rfl, rfl⟩⟩
    · cases he
      obtain ⟨word, after, last, rfl, rfl, hend, hacc, hlast⟩ := ih hrun
      refine ⟨c :: word, after, last, rfl, by rw [List.length_cons]; omega, hend, hacc, .inr ?_⟩
      rcases hlast with ⟨rfl, rfl⟩ | hlast
      · refine ⟨c, _, rfl, fun t ht => ?_⟩
        obtain ⟨t₀, -, s, hs, -, rfl⟩ := mem_advance.mp ht
        exact ⟨t₀.place, s, hs, rfl⟩
      · exact hlast

end Program

/-! ## Searches -/

variable {re : Regex} {before : Option Char} {pos i : Nat} {word after rest t : Text} {c : Captures}

theorem leads_of_matchAt? (h : re.matchAt? before pos rest = some c) :
    ∃ word after, rest = word ++ after ∧ c.whole = ⟨pos, pos + word.length⟩ ∧
      re.program.Leads 0 before word after := by
  obtain ⟨⟨stop, marks⟩, hrun, rfl⟩ := Option.map_eq_some_iff.mp h
  obtain ⟨thread, hmem, word, after, rfl, rfl, hleads, -⟩ := Program.leads_of_run before hrun
  obtain ⟨-, start, hstart, hreaches⟩ :=
    Program.mem_threadsFrom.mp (List.mem_map_of_mem (f := (·.place)) hmem)
  cases List.mem_singleton.mp hstart
  exact ⟨word, after, rfl, rfl, .of_reaches hreaches hleads⟩

theorem isSome_matchAt? (h : re.program.Leads 0 before word after) (pos : Nat) :
    (re.matchAt? before pos (word ++ after)).isSome := by
  obtain ⟨d, hreaches, hd, hleads⟩ := h.exists_stands
  have hthere : d ∈ (re.program.threadsFrom ⟨before, (word ++ after).head?⟩ pos [⟨0, []⟩]).map
      (·.place) :=
    Program.mem_threadsFrom.mpr ⟨hd, _, List.mem_singleton_self _, hreaches⟩
  obtain ⟨thread, hmem, rfl⟩ := List.mem_map.mp hthere
  rw [matchAt?, Option.isSome_map]
  exact Program.isSome_run_of_leads hmem hd hleads

/-- Whether the expression matches at index `j` of `t`. -/
abbrev matchesAt (re : Regex) (t : Text) (j : Nat) : Option Captures :=
  re.matchAt? (t.before? j) j (t.drop j)

/-- A search that begins inside the text tries that index, and then goes on. -/
theorem find?_of_lt (re : Regex) (hi : i < t.length) :
    re.find? t i = (re.matchesAt t i).or (re.find? t (i + 1)) := by
  have hbefore : t.before? (i + 1) = some t[i] := by
    rw [Text.before?, if_neg (Nat.succ_ne_zero i)]
    exact List.getElem?_eq_getElem hi
  rw [find?, find?, if_pos (Nat.le_of_lt hi), if_pos (Nat.succ_le_of_lt hi), matchesAt, hbefore,
    List.drop_eq_getElem_cons hi, scan]
  cases re.matchAt? (t.before? i) i (t[i] :: t.drop (i + 1)) <;> rfl

theorem find?_length (re : Regex) (t : Text) : re.find? t t.length = re.matchesAt t t.length := by
  rw [find?, if_pos (Nat.le_refl _), matchesAt, List.drop_length, scan]
  cases re.matchAt? (t.before? t.length) t.length [] <;> rfl

/-- A search takes the match at the first index that has one. -/
theorem find?_eq_some (h : re.find? t i = some c) :
    re.matchesAt t c.whole.start = some c ∧
      ∀ j, i ≤ j → j < c.whole.start → re.matchesAt t j = none := by
  have hi : i ≤ t.length := by
    rw [find?] at h
    split at h
    · assumption
    · cases h
  have hstart {j : Nat} (h : re.matchesAt t j = some c) : c.whole.start = j := by
    obtain ⟨_, _, -, hwhole, -⟩ := leads_of_matchAt? h
    rw [hwhole]
  induction hi using Nat.decreasingInduction with
  | self =>
    rw [find?_length] at h
    rw [hstart h]
    exact ⟨h, fun j hj hlt => absurd hj (Nat.not_le.mpr hlt)⟩
  | of_succ i hi ih =>
    rw [find?_of_lt re hi] at h
    rcases Option.or_eq_some_iff.mp h with h | ⟨hnone, h⟩
    · rw [hstart h]
      exact ⟨h, fun j hj hlt => absurd hj (Nat.not_le.mpr hlt)⟩
    · obtain ⟨hfound, hbefore⟩ := ih h
      refine ⟨hfound, fun j hj hlt => ?_⟩
      rcases Nat.lt_or_eq_of_le hj with hj | rfl
      · exact hbefore j hj hlt
      · exact hnone

/-- A search that finds nothing has tried all indices. -/
theorem find?_eq_none (h : re.find? t i = none) {j : Nat} (hij : i ≤ j) (hj : j ≤ t.length) :
    re.matchesAt t j = none := by
  induction Nat.le_trans hij hj using Nat.decreasingInduction with
  | self =>
    obtain rfl : j = t.length := Nat.le_antisymm hj hij
    rwa [find?_length] at h
  | of_succ i hi ih =>
    rw [find?_of_lt re hi, Option.or_eq_none_iff] at h
    rcases Nat.lt_or_eq_of_le hij with hij | rfl
    · exact ih h.2 hij
    · exact h.1

end RegexText.Regex
