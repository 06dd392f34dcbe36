import RegexText.Proofs.Regex.Layout
import RegexText.Proofs.Regex.Leads

/-!
# What an expression matches

`Expr.Matches` says what an expression reads, with no program: one rule for each form that an
expression has. A way through the program of an expression reads exactly that
(`Expr.leads_program_iff`).

One half follows the rules: a match of the expression is a way through its block
(`Expr.Matches.leads`). The other half follows the layout: a way that enters a block goes through
it to its end, and what it reads there is a match (`Program.Block.exists_matches`). In a loop the
way comes to the same block again, so there the number of its steps is what gets less.
-/

namespace RegexText

namespace Text

/-- The character before what follows `word`, where `before` stands before `word`. -/
def lastOf (before : Option Char) (word : Text) : Option Char := word.getLast?.or before

theorem lastOf_append (before : Option Char) (v w : Text) :
    lastOf before (v ++ w) = lastOf (lastOf before v) w := by
  rw [lastOf, lastOf, lastOf, List.getLast?_append, Option.or_assoc]

theorem lastOf_cons (before : Option Char) (c : Char) (word : Text) :
    lastOf before (c :: word) = lastOf (some c) word :=
  lastOf_append before [c] word

theorem before?_append (v w : Text) : before? (v ++ w) v.length = lastOf none v := by
  rw [before?, lastOf, Option.or_none, List.getLast?_eq_getElem?]
  split
  · rename_i hv
    rw [List.length_eq_zero_iff.mp hv]
    rfl
  · rw [List.getElem?_append_left (by omega)]

end Text

namespace Regex

open Text (lastOf lastOf_append)

variable {e : Expr} {before : Option Char} {word v w after : Text}

/-- Where `before` comes before and `after` comes behind, the expression matches `word`. -/
inductive Expr.Matches :
    (e : Expr) → (before : Option Char) → (word after : Text) → Prop where
  | empty {before : Option Char} {after : Text} : Matches .empty before [] after
  | chars {s : CharClass} {c : Char} {before : Option Char} {after : Text} (hc : s.contains c) :
    Matches (.chars s) before [c] after
  | assert {a : Assertion} {before : Option Char} {after : Text}
    (ha : a.holds ⟨before, after.head?⟩) : Matches (.assert a) before [] after
  | seq {a b : Expr} {before : Option Char} {v w after : Text}
    (ha : Matches a before v (w ++ after))
    (hb : Matches b (lastOf before v) w after) : Matches (.seq a b) before (v ++ w) after
  | left {a b : Expr} {before : Option Char} {word after : Text}
    (ha : Matches a before word after) : Matches (.alt a b) before word after
  | right {a b : Expr} {before : Option Char} {word after : Text}
    (hb : Matches b before word after) : Matches (.alt a b) before word after
  | once {greedy : Bool} {a : Expr} {before : Option Char} {word after : Text}
    (ha : Matches a before word after) : Matches (.plus greedy a) before word after
  | more {greedy : Bool} {a : Expr} {before : Option Char} {v w after : Text}
    (ha : Matches a before v (w ++ after))
    (hmore : Matches (.plus greedy a) (lastOf before v) w after) :
    Matches (.plus greedy a) before (v ++ w) after
  | group {i : Nat} {a : Expr} {before : Option Char} {word after : Text}
    (ha : Matches a before word after) : Matches (.group i a) before word after

namespace Program

variable {p : Program} {k m n : Nat}

theorem mem_next_loop {greedy : Bool} {d : Nat} {sides : Sides}
    (h : p[m]? = some (if greedy then .split k n else .split n k)) :
    d ∈ p.next sides m ↔ d = k ∨ d = n := by
  cases greedy with
  | true => rw [next_split h, List.mem_pair]
  | false => rw [next_split h, List.mem_pair, or_comm]

end Program

/-! ## From a match to a way -/

section

open Program

variable {p : Program} {k n : Nat}

/-- What the expression matches leads through its block. -/
theorem Expr.Matches.leads {rest : Text} (h : e.Matches before v rest) (hblock : p.Block e k n)
    (hrest : rest = w ++ after) (hleads : p.Leads n (lastOf before v) w after) :
    p.Leads k before (v ++ w) after := by
  induction h generalizing k n w with
  | empty =>
    cases hblock
    exact hleads
  | chars hc =>
    cases hblock with
    | chars hk => exact .read hk hc hleads
  | assert ha =>
    cases hblock with
    | assert hk =>
      refine .step ?_ hleads
      rw [hrest] at ha
      rw [List.nil_append, next_assert hk, if_pos ha]
      exact List.mem_singleton_self _
  | @seq a b before v v' rest ha hb iha ihb =>
    cases hblock with
    | seq hblocka hblockb =>
      rw [lastOf_append] at hleads
      rw [List.append_assoc]
      exact iha hblocka (by rw [hrest, List.append_assoc]) (ihb hblockb hrest hleads)
  | left ha iha =>
    cases hblock with
    | @alt _ _ _ middle _ hk hblocka hjump hblockb =>
      have hend : p.Leads middle (lastOf _ _) w after :=
        .step (next_jump hjump ▸ List.mem_singleton_self n) hleads
      exact .step (next_split hk ▸ List.mem_cons_self) (iha hblocka hrest hend)
  | right hb ihb =>
    cases hblock with
    | alt hk hblocka hjump hblockb =>
      exact .step (next_split hk ▸ List.mem_cons_of_mem _ (List.mem_singleton_self _))
        (ihb hblockb hrest hleads)
  | once ha iha =>
    cases hblock with
    | plus hblocka hloop =>
      exact iha hblocka hrest (.step ((mem_next_loop hloop).mpr (.inr rfl)) hleads)
  | @more greedy a before v v' rest ha hmore iha ihmore =>
    cases hblock with
    | plus hblocka hloop =>
      rw [lastOf_append] at hleads
      rw [List.append_assoc]
      have hagain := ihmore (.plus hblocka hloop) hrest hleads
      refine iha hblocka (by rw [hrest, List.append_assoc]) ?_
      exact .step ((mem_next_loop hloop).mpr (.inl rfl)) hagain
  | group ha iha =>
    cases hblock with
    | @group _ _ _ last hk hblocka hlast =>
      have hend : p.Leads last (lastOf _ _) w after :=
        .step (next_mark hlast ▸ List.mem_singleton_self _) hleads
      exact .step (next_mark hk ▸ List.mem_singleton_self _) (iha hblocka hrest hend)

end

/-! ## From a way to a match -/

namespace Program

variable {p : Program} {k n steps : Nat}

/-- A way through the program that takes so many steps (see `Leads`). -/
inductive LeadsIn (p : Program) :
    (steps k : Nat) → (before : Option Char) → (word after : Text) → Prop where
  | accept {k : Nat} {before : Option Char} {after : Text} (h : p[k]? = some .accept) :
    LeadsIn p 0 k before [] after
  | read {steps k : Nat} {before : Option Char} {word after : Text} {s : CharClass} {c : Char}
    (h : p[k]? = some (.chars s)) (hc : s.contains c)
    (hword : LeadsIn p steps (k + 1) (some c) word after) :
    LeadsIn p (steps + 1) k before (c :: word) after
  | step {steps k d : Nat} {before : Option Char} {word after : Text}
    (h : d ∈ p.next ⟨before, (word ++ after).head?⟩ k)
    (hword : LeadsIn p steps d before word after) :
    LeadsIn p (steps + 1) k before word after

theorem Leads.exists_leadsIn (h : p.Leads k before word after) :
    ∃ steps, p.LeadsIn steps k before word after := by
  induction h with
  | accept h => exact ⟨0, .accept h⟩
  | read h hc _ ih =>
    obtain ⟨steps, ih⟩ := ih
    exact ⟨steps + 1, .read h hc ih⟩
  | step h _ ih =>
    obtain ⟨steps, ih⟩ := ih
    exact ⟨steps + 1, .step h ih⟩

/-- A way from where no thread can stand goes on without reading. -/
theorem LeadsIn.exists_next (h : p.LeadsIn steps k before word after) (hk : p.stands k = false) :
    ∃ d ∈ p.next ⟨before, (word ++ after).head?⟩ k, ∃ fewer < steps,
      p.LeadsIn fewer d before word after := by
  cases h with
  | accept h =>
    rw [stands, h] at hk
    cases hk
  | read h =>
    rw [stands, h] at hk
    cases hk
  | step h hword => exact ⟨_, h, _, Nat.lt_succ_self _, hword⟩

theorem stands_assert {a : Assertion} (h : p[k]? = some (.assert a)) : p.stands k = false := by
  simp only [stands, h]

theorem stands_mark {slot : Nat} (h : p[k]? = some (.mark slot)) : p.stands k = false := by
  simp only [stands, h]

theorem stands_jump {target : Nat} (h : p[k]? = some (.jump target)) : p.stands k = false := by
  simp only [stands, h]

theorem stands_split {first second : Nat} (h : p[k]? = some (.split first second)) :
    p.stands k = false := by
  simp only [stands, h]

/-- A way that enters the block of the expression reads a match of it up to the end of the block,
and goes on from there. -/
theorem Block.exists_matches (hblock : p.Block e k n)
    (h : p.LeadsIn steps k before word after) :
    ∃ v w fewer, word = v ++ w ∧ fewer ≤ steps ∧ e.Matches before v (w ++ after) ∧
      p.LeadsIn fewer n (lastOf before v) w after := by
  induction hblock generalizing steps before word with
  | empty => exact ⟨[], word, steps, rfl, Nat.le_refl _, .empty, h⟩
  | chars hk =>
    cases h with
    | accept h => cases hk.symm.trans h
    | read h hc hword =>
      cases hk.symm.trans h
      exact ⟨[_], _, _, rfl, Nat.le_succ _, .chars hc, hword⟩
    | step h =>
      rw [next_chars hk] at h
      cases h
  | assert hk =>
    obtain ⟨d, hd, fewer, hfewer, hword⟩ := h.exists_next (stands_assert hk)
    rw [next_assert hk] at hd
    split at hd
    · rename_i ha
      cases List.mem_singleton.mp hd
      exact ⟨[], word, fewer, rfl, Nat.le_of_lt hfewer, .assert ha, hword⟩
    · cases hd
  | seq _ _ iha ihb =>
    obtain ⟨v, word', steps', rfl, hsteps', ha, hword'⟩ := iha h
    obtain ⟨v', w, fewer, rfl, hfewer, hb, hw⟩ := ihb hword'
    refine ⟨v ++ v', w, fewer, (List.append_assoc ..).symm, by omega, .seq ?_ hb, ?_⟩
    · rwa [← List.append_assoc]
    · rwa [lastOf_append]
  | alt hk _ hjump _ iha ihb =>
    obtain ⟨d, hd, steps', hsteps', hword⟩ := h.exists_next (stands_split hk)
    rw [next_split hk, List.mem_pair] at hd
    rcases hd with rfl | rfl
    · obtain ⟨v, w, steps'', rfl, hsteps'', ha, hw⟩ := iha hword
      obtain ⟨d, hd, fewer, hfewer, hw⟩ := hw.exists_next (stands_jump hjump)
      rw [next_jump hjump, List.mem_singleton] at hd
      exact ⟨v, w, fewer, rfl, by omega, .left ha, hd ▸ hw⟩
    · obtain ⟨v, w, fewer, rfl, hfewer, hb, hw⟩ := ihb hword
      exact ⟨v, w, fewer, rfl, by omega, .right hb, hw⟩
  | @plus greedy a k m _ hloop iha =>
    have hstands : p.stands m = false := by
      cases greedy
      · exact stands_split hloop
      · exact stands_split hloop
    -- the way comes back to the block, with fewer steps left
    induction steps using Nat.strongRecOn generalizing before word with
    | ind steps ih =>
      obtain ⟨v, word', steps', rfl, hsteps', ha, hword'⟩ := iha h
      obtain ⟨d, hd, steps'', hsteps'', hword'⟩ := hword'.exists_next hstands
      rcases (mem_next_loop hloop).mp hd with rfl | rfl
      · obtain ⟨v', w, fewer, rfl, hfewer, hmore, hw⟩ := ih steps'' (by omega) hword'
        refine ⟨v ++ v', w, fewer, (List.append_assoc ..).symm, by omega, .more ?_ hmore, ?_⟩
        · rwa [← List.append_assoc]
        · rwa [lastOf_append]
      · exact ⟨v, word', steps'', rfl, by omega, .once ha, hword'⟩
  | group hk _ hlast iha =>
    obtain ⟨d, hd, steps', hsteps', hword⟩ := h.exists_next (stands_mark hk)
    rw [next_mark hk, List.mem_singleton] at hd
    obtain ⟨v, w, steps'', rfl, hsteps'', ha, hw⟩ := iha (hd ▸ hword)
    obtain ⟨d, hd, fewer, hfewer, hw⟩ := hw.exists_next (stands_mark hlast)
    rw [next_mark hlast, List.mem_singleton] at hd
    exact ⟨v, w, fewer, rfl, by omega, .group ha, hd ▸ hw⟩

end Program

/-- The ways through the program of an expression read what the expression matches. -/
theorem Expr.leads_program_iff :
    e.program.Leads 0 before word after ↔ e.Matches before word after := by
  have hcode := e.lays_program
  have hblock : e.program.Block e 0 (0 + (e.code 0).length) := hcode.left.block
  have hexit : e.program[0 + (e.code 0).length]? = some .accept := hcode.right.head
  constructor
  · intro h
    obtain ⟨steps, h⟩ := h.exists_leadsIn
    obtain ⟨v, w, fewer, rfl, -, hmatches, hw⟩ := hblock.exists_matches h
    cases hw with
    | accept => rwa [List.append_nil]
    | read hread => cases hexit.symm.trans hread
    | step hd =>
      rw [Program.next_accept hexit] at hd
      cases hd
  · intro h
    have hleads := h.leads (w := []) hblock rfl (.accept hexit)
    rwa [List.append_nil] at hleads

/-! ## Anchors -/

theorem Expr.matches_textStart_iff : (seq (assert .textStart) e).Matches before word after ↔
    before = none ∧ e.Matches none word after := by
  constructor
  · intro h
    cases h with
    | seq hstart he =>
      cases hstart with
      | assert hholds =>
        obtain rfl := Option.isNone_iff_eq_none.mp hholds
        exact ⟨rfl, he⟩
  · rintro ⟨rfl, he⟩
    exact .seq (v := []) (.assert rfl) he

theorem Expr.matches_textEnd_iff : (seq e (assert .textEnd)).Matches before word after ↔
    after = [] ∧ e.Matches before word [] := by
  constructor
  · intro h
    cases h with
    | seq he hend =>
      cases hend with
      | assert hholds =>
        obtain rfl : after = [] := List.head?_eq_none_iff.mp (Option.isNone_iff_eq_none.mp hholds)
        rw [List.append_nil]
        exact ⟨rfl, he⟩
  · rintro ⟨rfl, he⟩
    have hboth : (seq e (assert .textEnd)).Matches before (word ++ []) [] := .seq he (.assert rfl)
    rwa [List.append_nil] at hboth

/-! ## Expressions without assertions -/

/-- Without assertions an expression does not see what is around it. -/
theorem Expr.Matches.elsewhere (h : e.Matches before word after) (he : e.hasAssertion = false)
    (before' : Option Char) (after' : Text) : e.Matches before' word after' := by
  induction h generalizing before' after' with
  | empty => exact .empty
  | chars hc => exact .chars hc
  | assert => cases he
  | seq _ _ iha ihb =>
    obtain ⟨ha, hb⟩ := Bool.or_eq_false_iff.mp he
    exact .seq (iha ha _ _) (ihb hb _ _)
  | left _ ih => exact .left (ih (Bool.or_eq_false_iff.mp he).1 _ _)
  | right _ ih => exact .right (ih (Bool.or_eq_false_iff.mp he).2 _ _)
  | once _ ih => exact .once (ih he _ _)
  | more _ _ iha ihmore => exact .more (iha he _ _) (ihmore he _ _)
  | group _ ih => exact .group (ih he _ _)

/-- Two runs of it side by side are a run. -/
theorem Expr.Matches.append_run {greedy : Bool} {before' : Option Char} {after' : Text}
    (hv : (plus greedy e).Matches before v after) (hw : (plus greedy e).Matches before' w after')
    (he : e.hasAssertion = false) : (plus greedy e).Matches before (v ++ w) after' := by
  generalize hrun : plus greedy e = run at hv
  induction hv with
  | empty | chars | assert | seq | left | right | group => cases hrun
  | once ha =>
    cases hrun
    exact .more (ha.elsewhere he _ _) (hw.elsewhere he _ _)
  | more ha _ _ ih =>
    cases hrun
    rw [List.append_assoc]
    exact .more (ha.elsewhere he _ _) (ih rfl)

/-- What reads nothing matches nothing but the empty text. -/
theorem Expr.Matches.eq_nil (h : e.Matches before word after) (he : e.readsNothing) :
    word = [] := by
  induction h with
  | empty | assert => rfl
  | chars => cases he
  | seq _ _ iha ihb =>
    obtain ⟨ha, hb⟩ := Bool.and_eq_true_iff.mp he
    rw [iha ha, ihb hb]
    rfl
  | left _ ih => exact ih (Bool.and_eq_true_iff.mp he).1
  | right _ ih => exact ih (Bool.and_eq_true_iff.mp he).2
  | once _ ih | group _ ih => exact ih he
  | more _ _ iha ihmore =>
    rw [iha he, ihmore he]
    rfl

/-! ## Searches -/

variable {pos : Nat} {rest : Text} {c : Captures}

theorem matches_of_matchAt? (h : (ofExpr e).matchAt? before pos rest = some c) :
    ∃ word after, rest = word ++ after ∧ c.whole = ⟨pos, pos + word.length⟩ ∧
      e.Matches before word after := by
  obtain ⟨word, after, hrest, hwhole, hleads⟩ := leads_of_matchAt? h
  exact ⟨word, after, hrest, hwhole, Expr.leads_program_iff.mp hleads⟩

theorem Expr.Matches.isSome_matchAt? (h : e.Matches before word after) (pos : Nat) :
    ((ofExpr e).matchAt? before pos (word ++ after)).isSome := by
  have hleads : (ofExpr e).program.Leads 0 before word after := Expr.leads_program_iff.mpr h
  exact Regex.isSome_matchAt? hleads pos

end Regex

end RegexText
