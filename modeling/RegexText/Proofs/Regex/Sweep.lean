import Mathlib.Data.Finset.Card
import Mathlib.Data.Finset.Range
import Mathlib.Logic.Relation
import RegexText.Regex.Run

/-!
# Sweeping a program

`Program.follow` goes through instructions depth first, recording threads on the way. A `Sweep` is
that walk with its stack laid open: the places still to go to and those that have been visited. It
depends on nothing but the successors of each place (`Program.next`), which are tried in order.

What a sweep may leave out is told by `Ordered`: a successor of a visited place is itself visited,
or it is pending behind places that all come from successors tried before it. Every step keeps this,
so at the end of a sweep nothing is left out (`Steps.closed`), and when a place is about to be
visited, all that comes before it has been (`Steps.explored`).

The threads of a position are those of the visited places where a thread can stand
(`Program.exists_sweep_threadsFrom`).
-/

namespace RegexText.Regex

open Relation (ReflTransGen)

/-- A depth-first walk on its way. -/
structure Sweep where
  /-- The places to go to, the next one first. -/
  pending : List Nat
  /-- The places visited, the latest first. -/
  visited : List Nat

namespace Sweep

variable {next : Nat → List Nat} {s s' : Sweep} {roots ks more v : List Nat} {e k : Nat}

/-- One step of the walk through the places whose successors `next` gives. -/
inductive Step (next : Nat → List Nat) : Sweep → Sweep → Prop where
  | skip {k : Nat} {ks v : List Nat} (h : k ∈ v) : Step next ⟨k :: ks, v⟩ ⟨ks, v⟩
  | visit {k : Nat} {ks v : List Nat} (h : k ∉ v) : Step next ⟨k :: ks, v⟩ ⟨next k ++ ks, k :: v⟩

/-- Any number of steps. -/
abbrev Steps (next : Nat → List Nat) : Sweep → Sweep → Prop := ReflTransGen (Step next)

/-- Some way leads from one place to another. -/
abbrev Reaches (next : Nat → List Nat) : Nat → Nat → Prop := ReflTransGen fun c d => d ∈ next c

/-- Some way leads from one place to another without going on from `x`. -/
abbrev Around (next : Nat → List Nat) (x : Nat) : Nat → Nat → Prop :=
  ReflTransGen fun c d => c ≠ x ∧ d ∈ next c

theorem Around.reaches {x a : Nat} (h : Around next x a e) : Reaches next a e :=
  ReflTransGen.mono (fun _ _ hstep => hstep.2) _ _ h

theorem Steps.visit {ds : List Nat} (hk : k ∉ v) (hnext : next k = ds) :
    Steps next ⟨k :: ks, v⟩ ⟨ds ++ ks, k :: v⟩ :=
  hnext ▸ .single (.visit hk)

theorem Step.unique : Relator.RightUnique (Step next) := by
  intro s s₁ s₂ h₁ h₂
  cases h₁ with
  | skip h =>
    cases h₂ with
    | skip => rfl
    | visit hnot => exact absurd h hnot
  | visit hnot =>
    cases h₂ with
    | skip h => exact absurd h hnot
    | visit => rfl

/-- A walk that has come to its end is the only one from where it started, and passes through all
that can be reached from there. -/
theorem Steps.to_end {v' : List Nat} (h : Steps next s s') (hend : Steps next s ⟨[], v'⟩) :
    Steps next s' ⟨[], v'⟩ := by
  rcases Relation.ReflTransGen.total_of_right_unique Step.unique h hend with h | h
  · exact h
  · cases h.cases_head with
    | inl he => exact he ▸ .refl
    | inr hstep =>
      obtain ⟨_, hstep, -⟩ := hstep
      cases hstep

theorem Steps.visited_suffix (h : Steps next s s') : s.visited <:+ s'.visited := by
  induction h with
  | refl => exact List.suffix_refl _
  | tail _ hstep ih =>
    cases hstep with
    | skip => exact ih
    | visit => exact ih.trans (List.suffix_cons _ _)

theorem Steps.visited_subset (h : Steps next s s') : s.visited ⊆ s'.visited :=
  h.visited_suffix.subset

/-- What is pending behind does not matter. -/
theorem Steps.append {ks' v' : List Nat} (h : Steps next ⟨ks, v⟩ ⟨ks', v'⟩) (more : List Nat) :
    Steps next ⟨ks ++ more, v⟩ ⟨ks' ++ more, v'⟩ := by
  refine ReflTransGen.lift (fun s : Sweep => Sweep.mk (s.pending ++ more) s.visited) ?_ _ _ h
  intro a b hstep
  cases hstep with
  | skip hk => exact .skip hk
  | visit hk =>
    show Step next _ ⟨_ ++ _ ++ more, _⟩
    rw [List.append_assoc]
    exact .visit hk

/-- Only what can be reached is visited. -/
theorem Steps.reaches (h : Steps next ⟨roots, v⟩ s) :
    (∀ k ∈ s.visited, k ∈ v ∨ ∃ r ∈ roots, Reaches next r k) ∧
      ∀ k ∈ s.pending, ∃ r ∈ roots, Reaches next r k := by
  induction h with
  | refl => exact ⟨fun k hk => .inl hk, fun k hk => ⟨k, hk, .refl⟩⟩
  | tail _ hstep ih =>
    obtain ⟨hvisited, hpending⟩ := ih
    cases hstep with
    | skip => exact ⟨hvisited, fun k hk => hpending k (List.mem_cons_of_mem _ hk)⟩
    | @visit k ks v hnot =>
      obtain ⟨r, hr, hrk⟩ := hpending k List.mem_cons_self
      constructor
      · intro d hd
        rcases List.mem_cons.mp hd with rfl | hd
        · exact .inr ⟨r, hr, hrk⟩
        · exact hvisited d hd
      · intro d hd
        rcases List.mem_append.mp hd with hd | hd
        · exact ⟨r, hr, hrk.tail hd⟩
        · exact hpending d (List.mem_cons_of_mem _ hd)

/-- What has been pending is visited or still pending. -/
theorem Steps.not_lost (h : Steps next s s') :
    ∀ k ∈ s.pending, k ∈ s'.visited ∨ k ∈ s'.pending := by
  induction h with
  | refl => exact fun k hk => .inr hk
  | tail _ hstep ih =>
    intro d hd
    cases hstep with
    | skip hk =>
      rcases ih d hd with hd | hd
      · exact .inl hd
      · rcases List.mem_cons.mp hd with rfl | hd
        · exact .inl hk
        · exact .inr hd
    | visit hk =>
      rcases ih d hd with hd | hd
      · exact .inl (List.mem_cons_of_mem _ hd)
      · rcases List.mem_cons.mp hd with rfl | hd
        · exact .inl List.mem_cons_self
        · exact .inr (List.mem_append_right _ hd)

/-! ## The order of visits -/

/-- A successor of a visited place has been visited, or is pending behind places that all come from
successors tried before it. -/
def Ordered (next : Nat → List Nat) (s : Sweep) : Prop :=
  ∀ x ∈ s.visited, ∀ earlier d later, next x = earlier ++ d :: later →
    d ∈ s.visited ∨ ∃ above below, s.pending = above ++ d :: below ∧
      ∀ c ∈ above, ∃ a ∈ earlier, Around next x a c

theorem Ordered.step (h : s.Ordered next) (hstep : Step next s s') : s'.Ordered next := by
  intro x hx earlier d later hnext
  cases hstep with
  | @skip k ks v hk =>
    rcases h x hx earlier d later hnext with hd | ⟨above, below, hpending, habove⟩
    · exact .inl hd
    · cases above with
      | nil =>
        cases hpending
        exact .inl hk
      | cons c above =>
        cases hpending
        exact .inr ⟨above, below, rfl, fun c hc => habove c (List.mem_cons_of_mem _ hc)⟩
  | @visit k ks v hk =>
    rcases List.mem_cons.mp hx with rfl | hxv
    · -- the successors of a place that is being visited all become pending
      refine .inr ⟨earlier, later ++ ks, ?_, fun c hc => ⟨c, hc, .refl⟩⟩
      show next x ++ ks = _
      rw [hnext, List.append_assoc, List.cons_append]
    · rcases h x hxv earlier d later hnext with hd | ⟨above, below, hpending, habove⟩
      · exact .inl (List.mem_cons_of_mem _ hd)
      · cases above with
        | nil =>
          cases hpending
          exact .inl List.mem_cons_self
        | cons c above =>
          cases hpending
          refine .inr ⟨next k ++ above, below, (List.append_assoc ..).symm, fun c hc => ?_⟩
          rcases List.mem_append.mp hc with hc | hc
          · obtain ⟨a, ha, hak⟩ := habove k List.mem_cons_self
            exact ⟨a, ha, hak.tail ⟨fun he => hk (he ▸ hxv), hc⟩⟩
          · exact habove c (List.mem_cons_of_mem _ hc)

/-- What is pending is a root, or a successor of a visited place. -/
theorem Steps.pending_from (h : Steps next ⟨roots, []⟩ s) :
    ∀ k ∈ s.pending, k ∈ roots ∨ ∃ x ∈ s.visited, k ∈ next x := by
  induction h with
  | refl => exact fun k hk => .inl hk
  | tail _ hstep ih =>
    intro d hd
    cases hstep with
    | skip => exact ih d (List.mem_cons_of_mem _ hd)
    | @visit k ks v hk =>
      rcases List.mem_append.mp hd with hd | hd
      · exact .inr ⟨k, List.mem_cons_self, hd⟩
      · rcases ih d (List.mem_cons_of_mem _ hd) with hroot | ⟨x, hx, hdx⟩
        · exact .inl hroot
        · exact .inr ⟨x, List.mem_cons_of_mem _ hx, hdx⟩

theorem Steps.ordered (h : Steps next ⟨roots, []⟩ s) : s.Ordered next := by
  induction h with
  | refl => exact fun x hx => nomatch hx
  | tail _ hstep ih => exact ih.step hstep

/-- At its end a walk has visited all successors of what it has visited. -/
theorem Steps.closed (h : Steps next ⟨roots, []⟩ ⟨[], v⟩) {x d : Nat} (hx : x ∈ v)
    (hd : d ∈ next x) : d ∈ v := by
  obtain ⟨earlier, later, hnext⟩ := List.append_of_mem hd
  rcases h.ordered x hx earlier d later hnext with hd | ⟨above, below, hpending, -⟩
  · exact hd
  · cases above <;> cases hpending

/-- At its end a walk has visited all that can be reached. -/
theorem Steps.mem_iff (h : Steps next ⟨roots, []⟩ ⟨[], v⟩) :
    k ∈ v ↔ ∃ r ∈ roots, Reaches next r k := by
  constructor
  · intro hk
    rcases h.reaches.1 k hk with hk | hr
    · cases hk
    · exact hr
  · rintro ⟨r, hr, hrk⟩
    induction hrk with
    | refl => exact (h.not_lost r hr).resolve_right List.not_mem_nil
    | tail _ hd ih => exact h.closed ih hd

/-- `u` holds all that comes before `e`: a successor of a place in `u` is in `u`, or is `e`, or
comes after one from which `e` is reached. -/
def Explored (next : Nat → List Nat) (e : Nat) (u : List Nat) : Prop :=
  ∀ x ∈ u, ∀ earlier d later, next x = earlier ++ d :: later →
    d ∈ u ∨ d = e ∨ ∃ a ∈ earlier, Around next x a e

theorem Steps.explored {u : List Nat} (h : Steps next ⟨roots, []⟩ ⟨e :: ks, u⟩) :
    Explored next e u := by
  intro x hx earlier d later hnext
  rcases h.ordered x hx earlier d later hnext with hd | ⟨above, below, hpending, habove⟩
  · exact .inl hd
  · cases above with
    | nil =>
      cases hpending
      exact .inr (.inl rfl)
    | cons c above =>
      cases hpending
      exact .inr (.inr (habove e List.mem_cons_self))

/-- What has been visited was about to be visited at some time. -/
theorem Steps.exists_visit (h : Steps next ⟨roots, []⟩ s) (he : e ∈ s.visited) :
    ∃ ks u later, Steps next ⟨roots, []⟩ ⟨e :: ks, u⟩ ∧ e ∉ u ∧ s.visited = later ++ e :: u := by
  induction h with
  | refl => cases he
  | tail hsteps hstep ih =>
    cases hstep with
    | skip => exact ih he
    | @visit k ks v hk =>
      by_cases hev : e ∈ v
      · obtain ⟨ks', u, later, hu, heu, hv⟩ := ih hev
        exact ⟨ks', u, k :: later, hu, heu, congrArg (k :: ·) hv⟩
      · obtain rfl : e = k := (List.mem_cons.mp he).resolve_right hev
        exact ⟨ks, v, [], hsteps, hk, rfl⟩

namespace Explored

variable {u : List Nat} {x d d' : Nat}

theorem first {later : List Nat} (h : Explored next e u) (hx : x ∈ u)
    (hnext : next x = d :: later) (hd : d ≠ e) : d ∈ u := by
  rcases h x hx [] d later hnext with hd' | hd' | ⟨_, ha, -⟩
  · exact hd'
  · exact absurd hd' hd
  · cases ha

theorem second (h : Explored next e u) (hx : x ∈ u) (hnext : next x = [d, d']) (hd' : d' ≠ e)
    (haround : ¬ Around next x d e) : d' ∈ u := by
  rcases h x hx [d] d' [] hnext with hmem | he | ⟨a, ha, hae⟩
  · exact hmem
  · exact absurd he hd'
  · exact absurd (List.mem_singleton.mp ha ▸ hae) haround

/-- What does not lead to `e` has been gone through to its end. -/
theorem of_reaches (h : Explored next e u) (hx : x ∈ u) (hnot : ¬ Reaches next x e)
    (hd : Reaches next x d) : d ∈ u := by
  induction hd with
  | refl => exact hx
  | @tail c d hc hstep ih =>
    obtain ⟨earlier, later, hnext⟩ := List.append_of_mem hstep
    rcases h c ih earlier d later hnext with hd | rfl | ⟨a, ha, hae⟩
    · exact hd
    · exact absurd (hc.tail hstep) hnot
    · have hmem : a ∈ next c := hnext ▸ List.mem_append_left _ ha
      exact absurd ((hc.tail hmem).trans hae.reaches) hnot

end Explored

end Sweep

/-! ## The sweep that follows a program -/

namespace Program

variable {p : Program} {sides : Sides} {k : Nat} {v : List Nat} {f : Frontier}

/-- Where instruction `k` leads without reading, the preferred one first. -/
def next (p : Program) (sides : Sides) (k : Nat) : List Nat :=
  match p[k]? with
  | some (.assert a) => if a.holds sides then [k + 1] else []
  | some (.mark _) => [k + 1]
  | some (.jump target) => [target]
  | some (.split first second) => [first, second]
  | _ => []

theorem next_none (h : p[k]? = none) : p.next sides k = [] := by
  simp only [next, h]

theorem next_chars {s : CharClass} (h : p[k]? = some (.chars s)) : p.next sides k = [] := by
  simp only [next, h]

theorem next_accept (h : p[k]? = some .accept) : p.next sides k = [] := by
  simp only [next, h]

theorem next_assert {a : Assertion} (h : p[k]? = some (.assert a)) :
    p.next sides k = if a.holds sides then [k + 1] else [] := by
  simp only [next, h]

theorem next_mark {slot : Nat} (h : p[k]? = some (.mark slot)) : p.next sides k = [k + 1] := by
  simp only [next, h]

theorem next_jump {target : Nat} (h : p[k]? = some (.jump target)) :
    p.next sides k = [target] := by
  simp only [next, h]

theorem next_split {first second : Nat} (h : p[k]? = some (.split first second)) :
    p.next sides k = [first, second] := by
  simp only [next, h]

/-- Whether a thread can stand at instruction `k`, as it reads a character or ends a match. -/
def stands (p : Program) (k : Nat) : Bool :=
  match p[k]? with
  | some (.chars _) | some .accept => true
  | _ => false

/-- The frontier has seen the places `v`, and holds a thread for each where one can stand. -/
structure Shows (p : Program) (f : Frontier) (v : List Nat) : Prop where
  hasSeen : ∀ k, f.hasSeen k ↔ k ∈ v
  threads : f.threads.map (·.place) = v.filter p.stands

theorem hasSeen_visit (f : Frontier) (k i : Nat) : (f.visit k).hasSeen i ↔ i = k ∨ f.hasSeen i := by
  rw [Frontier.hasSeen, Frontier.visit, Nat.testBit_or, Nat.one_shiftLeft, Nat.testBit_two_pow,
    Bool.or_eq_true, decide_eq_true_iff, or_comm, eq_comm]
  exact Iff.rfl

theorem Shows.visit (h : p.Shows f v) (hk : p.stands k = false) : p.Shows (f.visit k) (k :: v) where
  hasSeen i := by rw [hasSeen_visit, h.hasSeen, List.mem_cons]
  threads := by
    rw [List.filter_cons_of_neg (by rw [hk]; exact Bool.false_ne_true)]
    exact h.threads

theorem Shows.visit_push (h : p.Shows f v) (hk : p.stands k = true) (marks : Marks) :
    p.Shows ((f.visit k).push ⟨k, marks⟩) (k :: v) where
  hasSeen i := by
    rw [List.mem_cons, ← h.hasSeen]
    exact hasSeen_visit f k i
  threads := by
    rw [List.filter_cons_of_pos hk, ← h.threads]
    rfl

theorem exists_shows (p : Program) (v : List Nat) : ∃ f, p.Shows f v := by
  induction v with
  | nil => exact ⟨{}, fun k => by simp [Frontier.hasSeen], rfl⟩
  | cons k v ih =>
    obtain ⟨f, hf⟩ := ih
    cases hk : p.stands k with
    | false => exact ⟨_, hf.visit hk⟩
    | true => exact ⟨_, hf.visit_push hk []⟩

/-- The number of instructions that have not been visited. -/
def unvisited (p : Program) (v : List Nat) : Nat :=
  ((Finset.range p.size).filter (· ∉ v)).card

theorem unvisited_le (p : Program) (v : List Nat) : p.unvisited v ≤ p.size :=
  (Finset.card_filter_le _ _).trans_eq (Finset.card_range _)

theorem unvisited_mono {v' : List Nat} (h : v ⊆ v') : p.unvisited v' ≤ p.unvisited v :=
  Finset.card_le_card (Finset.monotone_filter_right _ fun _ _ hk hmem => hk (h hmem))

theorem unvisited_cons_lt (hk : k < p.size) (hv : k ∉ v) :
    p.unvisited (k :: v) < p.unvisited v := by
  refine Finset.card_lt_card (Finset.ssubset_iff_subset_ne.mpr ⟨?_, fun he => ?_⟩)
  · exact Finset.monotone_filter_right _ fun _ _ hk hmem => hk (List.mem_cons_of_mem _ hmem)
  · have hmem : k ∈ (Finset.range p.size).filter (· ∉ v) :=
      Finset.mem_filter.mpr ⟨Finset.mem_range.mpr hk, hv⟩
    rw [← he] at hmem
    exact (Finset.mem_filter.mp hmem).2 List.mem_cons_self

/-- A step of a walk is a call of `follow`: it visits the instructions that a sweep visits from
there, and leaves a thread where one can stand. -/
theorem exists_sweep_follow {depth : Nat} (hf : p.Shows f v) (hdepth : p.unvisited v < depth)
    (sides : Sides) (pos k : Nat) (marks : Marks) (ks : List Nat) :
    ∃ v', Sweep.Steps (p.next sides) ⟨k :: ks, v⟩ ⟨ks, v'⟩ ∧
      p.Shows (p.follow sides pos depth k marks f) v' := by
  induction depth generalizing k marks f v ks with
  | zero => cases hdepth
  | succ depth ih =>
    unfold follow
    by_cases hk : k ∈ v
    · rw [if_pos ((hf.hasSeen k).mpr hk)]
      exact ⟨v, .single (.skip hk), hf⟩
    rw [if_neg fun hseen => hk ((hf.hasSeen k).mp hseen)]
    have hvisit {ds : List Nat} (hnext : p.next sides k = ds) :
        Sweep.Steps (p.next sides) ⟨k :: ks, v⟩ ⟨ds ++ ks, k :: v⟩ := .visit hk hnext
    cases hinstr : p[k]? with
    | none => exact ⟨_, hvisit (next_none hinstr), hf.visit (by simp only [stands, hinstr])⟩
    | some instr =>
      have hlt : k < p.size := (Array.getElem?_eq_some_iff.mp hinstr).1
      have hless : p.unvisited (k :: v) < depth :=
        Nat.lt_of_lt_of_le (unvisited_cons_lt hlt hk) (Nat.le_of_lt_succ hdepth)
      cases instr with
      | chars s =>
        have hshows := hf.visit_push (k := k) (by simp only [stands, hinstr]) marks
        exact ⟨_, hvisit (next_chars hinstr), hshows⟩
      | accept =>
        have hshows := hf.visit_push (k := k) (by simp only [stands, hinstr]) marks
        exact ⟨_, hvisit (next_accept hinstr), hshows⟩
      | assert a =>
        have hvisited := hf.visit (k := k) (by simp only [stands, hinstr])
        have hnext : p.next sides k = if a.holds sides then [k + 1] else [] := next_assert hinstr
        simp only
        split at hnext
        · rename_i ha
          obtain ⟨v', hv', hshows⟩ := ih hvisited hless (k + 1) marks ks
          exact ⟨v', (hvisit hnext).trans hv', by rwa [if_pos ha]⟩
        · rename_i ha
          exact ⟨_, hvisit hnext, by rwa [if_neg ha]⟩
      | mark slot =>
        have hvisited := hf.visit (k := k) (by simp only [stands, hinstr])
        obtain ⟨v', hv', hshows⟩ := ih hvisited hless (k + 1) ((slot, pos) :: marks) ks
        exact ⟨v', (hvisit (next_mark hinstr)).trans hv', hshows⟩
      | jump target =>
        have hvisited := hf.visit (k := k) (by simp only [stands, hinstr])
        obtain ⟨v', hv', hshows⟩ := ih hvisited hless target marks ks
        exact ⟨v', (hvisit (next_jump hinstr)).trans hv', hshows⟩
      | split first second =>
        have hvisited := hf.visit (k := k) (by simp only [stands, hinstr])
        obtain ⟨v₁, hv₁, hshows₁⟩ := ih hvisited hless first marks (second :: ks)
        have hless₁ : p.unvisited v₁ < depth :=
          Nat.lt_of_le_of_lt (unvisited_mono hv₁.visited_subset) hless
        obtain ⟨v₂, hv₂, hshows₂⟩ := ih hshows₁ hless₁ second marks ks
        exact ⟨v₂, (hvisit (next_split hinstr)).trans (hv₁.trans hv₂), hshows₂⟩

/-- From everywhere a sweep comes to its end. -/
theorem exists_sweep (p : Program) (sides : Sides) (k : Nat) (v : List Nat) :
    ∃ v', Sweep.Steps (p.next sides) ⟨[k], v⟩ ⟨[], v'⟩ := by
  obtain ⟨f, hf⟩ := p.exists_shows v
  obtain ⟨v', hv', -⟩ := exists_sweep_follow hf (Nat.lt_succ_self _) sides 0 k [] []
  exact ⟨v', hv'⟩

/-- The threads of a position, from the preferred one on, stand at what a sweep from the starts
visits, from the earliest visit on. -/
theorem exists_sweep_threadsFrom (p : Program) (sides : Sides) (pos : Nat) (starts : List Thread) :
    ∃ v, Sweep.Steps (p.next sides) ⟨starts.map (·.place), []⟩ ⟨[], v⟩ ∧
      (p.threadsFrom sides pos starts).map (·.place) = v.reverse.filter p.stands := by
  have hfold (f : Frontier) (v : List Nat) (hf : p.Shows f v) :
      ∃ v', Sweep.Steps (p.next sides) ⟨starts.map (·.place), v⟩ ⟨[], v'⟩ ∧
        p.Shows (starts.foldl
          (fun f t => p.follow sides pos (p.size + 1) t.place t.marks f) f) v' := by
    induction starts generalizing f v with
    | nil => exact ⟨v, .refl, hf⟩
    | cons t starts ih =>
      obtain ⟨v₁, hv₁, hf₁⟩ := exists_sweep_follow hf (Nat.lt_succ_of_le (p.unvisited_le v))
        sides pos t.place t.marks (starts.map (·.place))
      obtain ⟨v₂, hv₂, hf₂⟩ := ih _ _ hf₁
      exact ⟨v₂, hv₁.trans hv₂, hf₂⟩
  obtain ⟨v, hv, hshows⟩ := hfold {} [] ⟨fun k => by simp [Frontier.hasSeen], rfl⟩
  refine ⟨v, hv, ?_⟩
  rw [threadsFrom, List.map_reverse, hshows.threads, List.filter_reverse]

end Program

end RegexText.Regex
