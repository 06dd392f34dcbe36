import RegexText.Proofs.Regex.Leads

/-!
# The preferred match

Backtracking tries one way after the other: at an instruction that leads to several places it takes
the first place from which a match is found (`Program.Finds`). A program is not run like that: all
its threads go side by side, and what has been visited once is not gone through again. It finds the
same (`Finds.matchAt?`).

* At one position a sweep meets the places in the order in which backtracking tries them. It leaves
  out a place that it has visited before, but nothing is found from there that has not been found
  already, unless a place leads back to itself (`Sweep.Steps.findSome?_eq`). Where backtracking
  comes to an end, none does (`Finds.acc`).
* From one position to the next only the threads in front of those that accept go on, which are
  those that backtracking would try first (`Program.run_eq_findSome?`).
-/

namespace RegexText.Regex

section

variable {α β : Type}

theorem findSome?_congr {l : List α} {f g : α → Option β} (h : ∀ a ∈ l, f a = g a) :
    l.findSome? f = l.findSome? g := by
  rw [← List.head?_filterMap, ← List.head?_filterMap, List.filterMap_congr h]

theorem findSome?_filter (l : List α) (q : α → Bool) (f : α → Option β) :
    (l.filter q).findSome? f = l.findSome? fun a => if q a then f a else none := by
  rw [← List.head?_filterMap, ← List.head?_filterMap, List.filterMap_filter]

end

namespace Sweep

variable {α : Type} {next : Nat → List Nat} {own value : Nat → Option α} {roots ks v : List Nat}
  {d k x : Nat} {s : Sweep}

theorem acc_of_reaches (h : Acc (fun d c => d ∈ next c) k) (hd : Reaches next k d) :
    Acc (fun d c => d ∈ next c) d := by
  induction hd with
  | refl => exact h
  | tail _ hstep ih => exact ih.inv hstep

/-- A place from which all ways end is not come back to. -/
theorem not_reaches_of_acc (h : Acc (fun d c => d ∈ next c) x) (hd : d ∈ next x) :
    ¬ Reaches next d x := by
  induction h generalizing d with
  | intro x _ ih =>
    intro hback
    rcases hback.cases_head with rfl | ⟨c, hc, hcx⟩
    · exact ih d hd hd .refl
    · exact ih d hd hc (hcx.tail hd)

/-- A visited place that a sweep comes to again has no value, if none of the visited places has one
of its own. -/
theorem Steps.value_eq_none (h : Steps next ⟨roots, []⟩ ⟨k :: ks, v⟩) (hk : k ∈ v)
    (hacc : Acc (fun d c => d ∈ next c) k)
    (hvalue : ∀ x, Reaches next k x → value x = (own x).or ((next x).findSome? value))
    (hown : ∀ x ∈ v, own x = none) : value k = none := by
  have hall (x : Nat) (hx : Reaches next k x) (hxv : x ∈ v) : value x = none := by
    have hxacc := acc_of_reaches hacc hx
    have hacyclic {d : Nat} := not_reaches_of_acc (d := d) hxacc
    induction hxacc with
    | intro x _ ih =>
      rw [hvalue x hx, hown x hxv, Option.none_or, List.findSome?_eq_none_iff]
      intro d hd
      -- a successor that has not been visited would be pending behind the place come to again
      obtain ⟨earlier, later, hnext⟩ := List.append_of_mem hd
      rcases h.ordered x hxv earlier d later hnext with hdv | ⟨above, below, hpending, habove⟩
      · have hdacc := acc_of_reaches hacc (hx.tail hd)
        exact ih d hd (hx.tail hd) hdv (not_reaches_of_acc hdacc)
      · cases above with
        | nil =>
          cases hpending
          exact ih k hd .refl hk (not_reaches_of_acc hacc)
        | cons c above =>
          cases hpending
          obtain ⟨a, ha, hak⟩ := habove k List.mem_cons_self
          have hax : a ∈ next x := hnext ▸ List.mem_append_left _ ha
          exact absurd (hak.reaches.trans hx) (hacyclic hax)
  exact hall k .refl hk

/-- On its way a sweep has met the first value, or it will meet it at the first pending place that
has one. -/
theorem Steps.findSome?_eq (h : Steps next ⟨roots, []⟩ s) (own value : Nat → Option α)
    (hacc : ∀ r ∈ roots, Acc (fun d c => d ∈ next c) r)
    (hvalue : ∀ r ∈ roots, ∀ x, Reaches next r x →
      value x = (own x).or ((next x).findSome? value)) :
    (s.visited.reverse.findSome? own).or (s.pending.findSome? value) = roots.findSome? value := by
  induction h with
  | refl => rfl
  | tail hsteps hstep ih =>
    rw [← ih]
    cases hstep with
    | @skip k ks v hk =>
      obtain ⟨r, hr, hrk⟩ := (Steps.reaches hsteps).2 k List.mem_cons_self
      cases hfound : v.reverse.findSome? own with
      | some a => rfl
      | none =>
        have hown : ∀ x ∈ v, own x = none := fun x hx =>
          List.findSome?_eq_none_iff.mp hfound x (List.mem_reverse.mpr hx)
        have hnone : value k = none :=
          Steps.value_eq_none hsteps hk (acc_of_reaches (hacc r hr) hrk)
            (fun x hx => hvalue r hr x (hrk.trans hx)) hown
        rw [List.findSome?_cons, hnone]
    | @visit k ks v hk =>
      obtain ⟨r, hr, hrk⟩ := (Steps.reaches hsteps).2 k List.mem_cons_self
      have hsplit : (k :: ks).findSome? value = (value k).or (ks.findSome? value) := by
        rw [List.findSome?_cons]
        cases value k <;> rfl
      have hlast : [k].findSome? own = own k := by
        rw [List.findSome?_cons]
        cases own k <;> rfl
      rw [List.reverse_cons, List.findSome?_append, List.findSome?_append, hsplit, hlast,
        hvalue r hr k hrk, Option.or_assoc, Option.or_assoc]

end Sweep

namespace Program

variable {p : Program} {before : Option Char} {rest : Text} {k d pos : Nat} {r r' : Option Nat}
  {threads starts : List Thread} {value : Nat → Option Nat}

theorem next_of_stands {sides : Sides} (h : p.stands k) : p.next sides k = [] := by
  unfold stands at h
  split at h
  · exact next_chars ‹_›
  · exact next_accept ‹_›
  · cases h

/-- From instruction `k`, where `before` comes before and `rest` behind, backtracking finds `r`: a
match that reads so many characters, or none. -/
inductive Finds (p : Program) :
    (k : Nat) → (before : Option Char) → (rest : Text) → (r : Option Nat) → Prop where
  | accept {k : Nat} {before : Option Char} {rest : Text} (h : p[k]? = some .accept) :
    Finds p k before rest (some 0)
  | read {k : Nat} {before : Option Char} {rest : Text} {s : CharClass} {c : Char} {r : Option Nat}
    (h : p[k]? = some (.chars s)) (hc : s.contains c) (hrest : Finds p (k + 1) (some c) rest r) :
    Finds p k before (c :: rest) (r.map (· + 1))
  | stuck {k : Nat} {before : Option Char} {rest : Text} {s : CharClass}
    (h : p[k]? = some (.chars s)) (hrest : ∀ c ∈ rest.head?, s.contains c = false) :
    Finds p k before rest none
  | follow {k : Nat} {before : Option Char} {rest : Text} (value : Nat → Option Nat)
    (h : p.stands k = false)
    (hnext : ∀ d ∈ p.next ⟨before, rest.head?⟩ k, Finds p d before rest (value d)) :
    Finds p k before rest ((p.next ⟨before, rest.head?⟩ k).findSome? value)

namespace Finds

theorem of_accept (h : p.Finds k before rest r) (hk : p[k]? = some .accept) : r = some 0 := by
  cases h with
  | accept => rfl
  | read h => cases hk.symm.trans h
  | stuck h => cases hk.symm.trans h
  | follow _ h =>
    rw [stands, hk] at h
    cases h

/-- Where a character is read, backtracking goes on behind it if it is one of the class. -/
theorem of_chars {s : CharClass} (h : p.Finds k before rest r) (hk : p[k]? = some (.chars s)) :
    (∃ c cs r', rest = c :: cs ∧ s.contains c ∧ r = r'.map (· + 1) ∧
      p.Finds (k + 1) (some c) cs r') ∨
    (∀ c ∈ rest.head?, s.contains c = false) ∧ r = none := by
  cases h with
  | accept h => cases hk.symm.trans h
  | read h hc hrest =>
    cases hk.symm.trans h
    exact .inl ⟨_, _, _, rfl, hc, rfl, hrest⟩
  | stuck h hrest =>
    cases hk.symm.trans h
    exact .inr ⟨hrest, rfl⟩
  | follow _ h =>
    rw [stands, hk] at h
    cases h

/-- Where neither is the case, it finds what it finds first behind. -/
theorem of_follow (h : p.Finds k before rest r) (hk : p.stands k = false) :
    ∃ value : Nat → Option Nat,
      (∀ d ∈ p.next ⟨before, rest.head?⟩ k, p.Finds d before rest (value d)) ∧
      r = (p.next ⟨before, rest.head?⟩ k).findSome? value := by
  cases h with
  | accept h =>
    rw [stands, h] at hk
    cases hk
  | read h =>
    rw [stands, h] at hk
    cases hk
  | stuck h =>
    rw [stands, h] at hk
    cases hk
  | follow value _ hnext => exact ⟨value, hnext, rfl⟩

theorem unique (h : p.Finds k before rest r) (h' : p.Finds k before rest r') : r = r' := by
  induction h generalizing r' with
  | accept h => exact (h'.of_accept h).symm
  | read h hc hrest ih =>
    rcases h'.of_chars h with ⟨_, _, r'', heq, -, rfl, hr''⟩ | ⟨hnone, -⟩
    · cases heq
      rw [ih hr'']
    · rw [hnone _ rfl] at hc
      cases hc
  | stuck h hrest =>
    rcases h'.of_chars h with ⟨_, _, _, rfl, hc, -, -⟩ | ⟨-, rfl⟩
    · rw [hrest _ rfl] at hc
      cases hc
    · rfl
  | follow value h hnext ih =>
    obtain ⟨value', hnext', rfl⟩ := h'.of_follow h
    exact findSome?_congr fun d hd => ih d hd (hnext' d hd)

/-- Where backtracking comes to an end, all ways that read nothing do. -/
theorem acc (h : p.Finds k before rest r) :
    Acc (fun d c => d ∈ p.next ⟨before, rest.head?⟩ c) k := by
  induction h with
  | accept h => exact ⟨_, fun d hd => by rw [next_accept h] at hd; cases hd⟩
  | read h => exact ⟨_, fun d hd => by rw [next_chars h] at hd; cases hd⟩
  | stuck h => exact ⟨_, fun d hd => by rw [next_chars h] at hd; cases hd⟩
  | follow _ _ _ ih => exact ⟨_, fun d hd => ih d hd⟩

theorem of_reaches (h : p.Finds k before rest r)
    (hd : Sweep.Reaches (p.next ⟨before, rest.head?⟩) k d) : ∃ r', p.Finds d before rest r' := by
  induction hd with
  | refl => exact ⟨r, h⟩
  | @tail c d _ hstep ih =>
    obtain ⟨rc, hc⟩ := ih
    cases hstands : p.stands c with
    | false =>
      obtain ⟨value, hnext, -⟩ := hc.of_follow hstands
      exact ⟨value d, hnext d hstep⟩
    | true =>
      rw [next_of_stands hstands] at hstep
      cases hstep

end Finds

/-- What backtracking finds from each place, where it comes to an end. -/
theorem exists_value (p : Program) (before : Option Char) (rest : Text) :
    ∃ value : Nat → Option Nat, ∀ {k r}, p.Finds k before rest r → value k = r := by
  classical
  refine ⟨fun k => if h : ∃ r, p.Finds k before rest r then h.choose else none, fun {k r} h => ?_⟩
  have hex : ∃ r, p.Finds k before rest r := ⟨r, h⟩
  exact (dif_pos hex).trans (hex.choose_spec.unique h)

/-! ## Instructions that read nothing -/

namespace Finds

variable {target first second : Nat} {r₁ r₂ : Option Nat}

/-- What is found behind all places that `k` leads to gives what is found from `k`. -/
theorem of_next {ds : List Nat} (hk : p.stands k = false)
    (hnext : p.next ⟨before, rest.head?⟩ k = ds)
    (hvalue : ∀ d ∈ ds, p.Finds d before rest (value d)) :
    p.Finds k before rest (ds.findSome? value) := by
  subst hnext
  exact .follow value hk hvalue

theorem jump (h : p.Finds target before rest r) (hk : p[k]? = some (.jump target)) :
    p.Finds k before rest r := by
  have hstands : p.stands k = false := by simp only [stands, hk]
  have hr : [target].findSome? (fun _ => r) = r := by cases r <;> rfl
  rw [← hr]
  exact of_next hstands (next_jump hk) fun d hd => List.mem_singleton.mp hd ▸ h

theorem assert {a : Assertion} (h : p.Finds (k + 1) before rest r)
    (hk : p[k]? = some (.assert a)) (ha : a.holds ⟨before, rest.head?⟩) :
    p.Finds k before rest r := by
  have hstands : p.stands k = false := by simp only [stands, hk]
  have hr : [k + 1].findSome? (fun _ => r) = r := by cases r <;> rfl
  have hnext : p.next ⟨before, rest.head?⟩ k = [k + 1] := by rw [next_assert hk, if_pos ha]
  rw [← hr]
  exact of_next hstands hnext fun d hd => List.mem_singleton.mp hd ▸ h

theorem split (h₁ : p.Finds first before rest r₁) (h₂ : p.Finds second before rest r₂)
    (hk : p[k]? = some (.split first second)) : p.Finds k before rest (r₁.or r₂) := by
  obtain ⟨value, hvalue⟩ := p.exists_value before rest
  have hstands : p.stands k = false := by simp only [stands, hk]
  have hr : [first, second].findSome? value = r₁.or r₂ := by
    rw [List.findSome?_cons, List.findSome?_cons, hvalue h₁, hvalue h₂]
    cases r₁ <;> cases r₂ <;> rfl
  rw [← hr]
  refine of_next hstands (next_split hk) fun d hd => ?_
  rcases List.mem_pair.mp hd with rfl | rfl
  · exact hvalue h₁ ▸ h₁
  · exact hvalue h₂ ▸ h₂

end Finds

/-! ## Runs -/

theorem finds_of_mem_threadsFrom (hstarts : ∀ t ∈ starts, ∃ r, p.Finds t.place before rest r) :
    ∀ t ∈ p.threadsFrom ⟨before, rest.head?⟩ pos starts, ∃ r, p.Finds t.place before rest r := by
  intro t ht
  obtain ⟨-, start, hstart, hreaches⟩ :=
    mem_threadsFrom.mp (List.mem_map_of_mem (f := (·.place)) ht)
  obtain ⟨r, hr⟩ := hstarts start hstart
  exact hr.of_reaches hreaches

/-- The threads at a position have what the starts have that lead there. -/
theorem findSome?_threadsFrom (hvalue : ∀ {k r}, p.Finds k before rest r → value k = r)
    (hstarts : ∀ t ∈ starts, ∃ r, p.Finds t.place before rest r) :
    ((p.threadsFrom ⟨before, rest.head?⟩ pos starts).map (·.place)).findSome? value =
      (starts.map (·.place)).findSome? value := by
  obtain ⟨v, hv, hplaces⟩ := p.exists_sweep_threadsFrom ⟨before, rest.head?⟩ pos starts
  have hroots : ∀ k ∈ starts.map (·.place), ∃ r, p.Finds k before rest r := by
    intro k hk
    obtain ⟨t, ht, rfl⟩ := List.mem_map.mp hk
    exact hstarts t ht
  rw [hplaces, findSome?_filter]
  refine Eq.trans (Option.or_none).symm (hv.findSome?_eq _ value ?_ ?_)
  · intro k hk
    obtain ⟨r, hr⟩ := hroots k hk
    exact hr.acc
  · intro k hk x hx
    obtain ⟨r, hr⟩ := hroots k hk
    obtain ⟨rx, hrx⟩ := hr.of_reaches hx
    cases hstands : p.stands x with
    | true => rw [if_pos rfl, next_of_stands hstands, List.findSome?_nil, Option.or_none]
    | false =>
      obtain ⟨value', hnext, rfl⟩ := hrx.of_follow hstands
      rw [if_neg Bool.false_ne_true, Option.none_or, hvalue hrx]
      exact findSome?_congr fun d hd => (hvalue (hnext d hd)).symm

/-- Threads that wait for a character have what those have that go on behind it. -/
theorem findSome?_advance {value' : Nat → Option Nat} {c : Char} {cs : Text}
    (hvalue : ∀ {k r}, p.Finds k before (c :: cs) r → value k = r)
    (hvalue' : ∀ {k r}, p.Finds k (some c) cs r → value' k = r)
    (hthreads : ∀ t ∈ threads, (∃ s, p[t.place]? = some (.chars s)) ∧
      ∃ r, p.Finds t.place before (c :: cs) r) :
    (threads.map (·.place)).findSome? value =
        (((p.advance c threads).map (·.place)).findSome? value').map (· + 1) ∧
      ∀ t ∈ p.advance c threads, ∃ r, p.Finds t.place (some c) cs r := by
  induction threads with
  | nil => exact ⟨rfl, fun t ht => nomatch ht⟩
  | cons t ts ih =>
    obtain ⟨ih, ihfinds⟩ := ih fun t ht => hthreads t (List.mem_cons_of_mem _ ht)
    obtain ⟨⟨s, hs⟩, r, hr⟩ := hthreads t List.mem_cons_self
    rw [List.map_cons, List.findSome?_cons, hvalue hr, ih]
    rcases hr.of_chars hs with ⟨_, _, r', heq, hc, rfl, hr'⟩ | ⟨hnone, rfl⟩
    · cases heq
      have hmoved : p.advance c (t :: ts) = ⟨t.place + 1, t.marks⟩ :: p.advance c ts := by
        rw [advance, List.filterMap_cons]
        simp only [hs, hc, if_true]
        rfl
      rw [hmoved, List.map_cons, List.findSome?_cons, hvalue' hr']
      refine ⟨by cases r' <;> rfl, fun t' ht' => ?_⟩
      rcases List.mem_cons.mp ht' with rfl | ht'
      · exact ⟨r', hr'⟩
      · exact ihfinds t' ht'
    · have hmoved : p.advance c (t :: ts) = p.advance c ts := by
        rw [advance, List.filterMap_cons]
        simp only [hs, hnone c rfl, Bool.false_eq_true, if_false]
        rfl
      rw [hmoved]
      exact ⟨rfl, ihfinds⟩

/-- The first of the threads that has a match is one in front of those that accept, or else one of
these. -/
theorem findSome?_threads (hvalue : ∀ {k r}, p.Finds k before rest r → value k = r)
    (hthreads : ∀ t ∈ threads, ∃ r, p.Finds t.place before rest r) :
    (threads.map (·.place)).findSome? value =
      (((threads.takeWhile (!p.accepts ·)).map (·.place)).findSome? value).or
        ((threads.find? p.accepts).map fun _ => 0) := by
  induction threads with
  | nil => rfl
  | cons t ts ih =>
    obtain ⟨r, hr⟩ := hthreads t List.mem_cons_self
    rw [List.map_cons, List.findSome?_cons, List.takeWhile_cons, List.find?_cons, hvalue hr]
    cases hacc : p.accepts t with
    | true =>
      rw [hr.of_accept (accepts_iff.mp hacc)]
      rfl
    | false =>
      rw [ih fun t ht => hthreads t (List.mem_cons_of_mem _ ht)]
      simp only [Bool.not_false, if_true, List.map_cons, List.findSome?_cons, hvalue hr]
      cases r <;> rfl

/-- The threads in front of those that accept wait for a character. -/
theorem front_waits (hstands : ∀ t ∈ threads, p.stands t.place)
    (hthreads : ∀ t ∈ threads, ∃ r, p.Finds t.place before rest r) :
    ∀ t ∈ threads.takeWhile (!p.accepts ·), (∃ s, p[t.place]? = some (.chars s)) ∧
      ∃ r, p.Finds t.place before rest r := by
  intro t ht
  have hmem := (List.takeWhile_sublist _).subset ht
  exact ⟨exists_chars_of_stands (hstands t hmem) (not_accepts_of_mem_takeWhile ht),
    hthreads t hmem⟩

/-- A run ends with what backtracking finds from the first of its threads that leads to a match. -/
theorem run_eq_findSome? (pos : Nat) (threads : List Thread)
    (hvalue : ∀ {k r}, p.Finds k before rest r → value k = r)
    (hstands : ∀ t ∈ threads, p.stands t.place)
    (hthreads : ∀ t ∈ threads, ∃ r, p.Finds t.place before rest r) :
    (p.run pos threads rest).map (·.1) =
      ((threads.map (·.place)).findSome? value).map (pos + ·) := by
  induction rest generalizing before value threads pos with
  | nil =>
    -- nothing is left to read for the threads in front
    have hnone : ((threads.takeWhile (!p.accepts ·)).map (·.place)).findSome? value = none := by
      rw [List.findSome?_eq_none_iff]
      intro k hk
      obtain ⟨t, ht, rfl⟩ := List.mem_map.mp hk
      obtain ⟨⟨s, hs⟩, r, hr⟩ := front_waits hstands hthreads t ht
      rcases hr.of_chars hs with ⟨_, _, _, heq, -⟩ | ⟨-, rfl⟩
      · cases heq
      · exact hvalue hr
    rw [findSome?_threads hvalue hthreads, hnone, Option.none_or, run, Option.map_map,
      Option.map_map]
    rfl
  | cons c cs ih =>
    obtain ⟨value', hvalue'⟩ := p.exists_value (some c) cs
    obtain ⟨hadvance, hmoved⟩ := findSome?_advance hvalue hvalue' (front_waits hstands hthreads)
    have hlater := ih (pos + 1) (p.threadsFrom ⟨some c, cs.head?⟩ (pos + 1)
      (p.advance c (threads.takeWhile (!p.accepts ·)))) hvalue'
      (fun t ht => stands_of_mem_threadsFrom ht) (finds_of_mem_threadsFrom hmoved)
    rw [findSome?_threadsFrom hvalue' hmoved] at hlater
    rw [findSome?_threads hvalue hthreads, hadvance, run_cons, Option.map_or, Option.map_or,
      hlater, Option.map_map, Option.map_map, Option.map_map]
    congr 2
    funext n
    exact Nat.add_right_comm pos 1 n

end Program

/-- A program matches where backtracking finds a match, and reads what that one reads. -/
theorem Program.Finds.matchAt? {re : Regex} {before : Option Char} {rest : Text} {r : Option Nat}
    (h : re.program.Finds 0 before rest r) (pos : Nat) :
    (re.matchAt? before pos rest).map (·.whole) = r.map fun n => ⟨pos, pos + n⟩ := by
  obtain ⟨value, hvalue⟩ := re.program.exists_value before rest
  have hstarts : ∀ t ∈ [(⟨0, []⟩ : Thread)], ∃ r, re.program.Finds t.place before rest r := by
    intro t ht
    exact ⟨r, List.mem_singleton.mp ht ▸ h⟩
  have hrun := run_eq_findSome? pos
    (re.program.threadsFrom ⟨before, rest.head?⟩ pos [⟨0, []⟩]) hvalue
    (fun t ht => stands_of_mem_threadsFrom ht) (finds_of_mem_threadsFrom hstarts)
  have hfound : ([(⟨0, []⟩ : Thread)].map (·.place)).findSome? value = r := by
    rw [List.map_singleton, List.findSome?_cons, hvalue h]
    cases r <;> rfl
  rw [findSome?_threadsFrom hvalue hstarts, hfound] at hrun
  have hwhole := congrArg (Option.map fun stop => (⟨pos, stop⟩ : Span)) hrun
  rw [Option.map_map, Option.map_map] at hwhole
  rw [Regex.matchAt?, Option.map_map]
  exact hwhole

end RegexText.Regex
