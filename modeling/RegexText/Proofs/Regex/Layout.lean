import RegexText.Proofs.Regex.Suffix
import RegexText.Proofs.Regex.Sweep

/-!
# Blocks of a program

A program is laid out in blocks (`Program.Lays`), one for each part of its expression. A block is
entered at its first instruction only and left at the one after its last (`Block.next_mem`), and
what cannot match the empty text is not left without reading (`Block.reaches_lt`).

For a sweep this means that a block that is fresh, and that can be left, is passed from its start to
its end (`Sweep.Passes`). The main statement, `Block.passes`, compares two sweeps. One has come to a
place behind the block and has visited the start of the block before. Then it has visited all
that the other one visits on its way through the fresh block.
-/

namespace RegexText.Regex

open Relation (ReflTransGen)
open Sweep (Reaches Around Steps Explored)

/-! ## Passing a stretch of places -/

namespace Sweep

variable {next : Nat → List Nat} {u : List Nat} {a d k m n : Nat} {ds : List Nat}

/-- Where no place from `k` up to `n` has been visited, a sweep that comes to `k` comes to `n`, and
on its way visits only such places that `u` holds. -/
def Passes (next : Nat → List Nat) (u : List Nat) (k n : Nat) : Prop :=
  ∀ ks v, (∀ i ∈ v, ¬ (k ≤ i ∧ i < n)) →
    ∃ more v', Steps next ⟨k :: ks, v⟩ ⟨n :: (more ++ ks), v'⟩ ∧
      (∀ i ∈ v', i ∈ v ∨ i ∈ u ∧ k ≤ i ∧ i < n) ∧ (k < n → k ∈ v')

theorem Passes.refl (next : Nat → List Nat) (u : List Nat) (k : Nat) : Passes next u k k :=
  fun _ v _ => ⟨[], v, .refl, fun _ hi => .inl hi, fun h => absurd h (Nat.lt_irrefl k)⟩

theorem Passes.trans (h₁ : Passes next u k m) (h₂ : Passes next u m n) (hkm : k ≤ m)
    (hmn : m ≤ n) : Passes next u k n := by
  intro ks v hfresh
  obtain ⟨more₁, v₁, hsteps₁, hvisited₁, hstart₁⟩ :=
    h₁ ks v fun i hi hlt => hfresh i hi ⟨hlt.1, by omega⟩
  have hfresh₁ : ∀ i ∈ v₁, ¬ (m ≤ i ∧ i < n) := by
    intro i hi hlt
    rcases hvisited₁ i hi with hv | ⟨-, -, him⟩
    · exact hfresh i hv ⟨by omega, hlt.2⟩
    · omega
  obtain ⟨more₂, v₂, hsteps₂, hvisited₂, hstart₂⟩ := h₂ (more₁ ++ ks) v₁ hfresh₁
  refine ⟨more₂ ++ more₁, v₂, ?_, ?_, ?_⟩
  · rw [List.append_assoc]
    exact hsteps₁.trans hsteps₂
  · intro i hi
    rcases hvisited₂ i hi with hi | ⟨hu, hmi, hin⟩
    · rcases hvisited₁ i hi with hv | ⟨hu, hki, him⟩
      · exact .inl hv
      · exact .inr ⟨hu, hki, by omega⟩
    · exact .inr ⟨hu, by omega, hin⟩
  · intro hkn
    rcases Nat.lt_or_ge k m with hlt | hge
    · exact hsteps₂.visited_subset (hstart₁ hlt)
    · obtain rfl : k = m := Nat.le_antisymm hkm hge
      exact hstart₂ hkn

/-- A sweep goes on at the first successor of a place. -/
theorem Passes.head (hk : k ∈ u) (hnext : next k = d :: ds) (hkd : k < d) (hdn : d ≤ n)
    (h : Passes next u d n) : Passes next u k n := by
  intro ks v hfresh
  have hvisit : Steps next ⟨k :: ks, v⟩ ⟨d :: (ds ++ ks), k :: v⟩ :=
    .visit (fun hmem => hfresh k hmem ⟨Nat.le_refl k, by omega⟩) hnext
  have hfresh' : ∀ i ∈ k :: v, ¬ (d ≤ i ∧ i < n) := by
    intro i hi hlt
    rcases List.mem_cons.mp hi with rfl | hi
    · omega
    · exact hfresh i hi ⟨by omega, hlt.2⟩
  obtain ⟨more, v', hsteps, hvisited, -⟩ := h (ds ++ ks) (k :: v) hfresh'
  refine ⟨more ++ ds, v', ?_, ?_, fun _ => hsteps.visited_subset List.mem_cons_self⟩
  · rw [List.append_assoc]
    exact hvisit.trans hsteps
  · intro i hi
    rcases hvisited i hi with hi | ⟨hu, hdi, hin⟩
    · rcases List.mem_cons.mp hi with rfl | hi
      · exact .inr ⟨hk, Nat.le_refl i, by omega⟩
      · exact .inl hi
    · exact .inr ⟨hu, by omega, hin⟩

/-- A sweep goes on at the second successor of a place after it has visited all that the first one
leads to. -/
theorem Passes.second (hk : k ∈ u) (hnext : next k = [a, d]) (hkd : k < d) (hdn : d ≤ n)
    (hfirst : ∀ i, Reaches next a i → i ∈ u ∧ k ≤ i ∧ i < d)
    (hend : ∀ v, ∃ v', Steps next ⟨[a], v⟩ ⟨[], v'⟩) (h : Passes next u d n) :
    Passes next u k n := by
  intro ks v hfresh
  have hvisit : Steps next ⟨k :: ks, v⟩ ⟨a :: d :: ks, k :: v⟩ :=
    .visit (fun hmem => hfresh k hmem ⟨Nat.le_refl k, by omega⟩) hnext
  obtain ⟨v₁, hsteps₁⟩ := hend (k :: v)
  have hvisited₁ : ∀ i ∈ v₁, i ∈ v ∨ i ∈ u ∧ k ≤ i ∧ i < d := by
    intro i hi
    rcases hsteps₁.reaches.1 i hi with hi | ⟨r, hr, hri⟩
    · rcases List.mem_cons.mp hi with rfl | hi
      · exact .inr ⟨hk, Nat.le_refl i, hkd⟩
      · exact .inl hi
    · exact .inr (hfirst i (List.mem_singleton.mp hr ▸ hri))
  have hfresh₁ : ∀ i ∈ v₁, ¬ (d ≤ i ∧ i < n) := by
    intro i hi hlt
    rcases hvisited₁ i hi with hv | ⟨-, -, hid⟩
    · exact hfresh i hv ⟨by omega, hlt.2⟩
    · omega
  obtain ⟨more, v', hsteps, hvisited, -⟩ := h ks v₁ hfresh₁
  refine ⟨more, v', hvisit.trans ((hsteps₁.append (d :: ks)).trans hsteps), ?_,
    fun _ => hsteps.visited_subset (hsteps₁.visited_subset List.mem_cons_self)⟩
  intro i hi
  rcases hvisited i hi with hi | ⟨hu, hdi, hin⟩
  · rcases hvisited₁ i hi with hv | ⟨hu, hki, hid⟩
    · exact .inl hv
    · exact .inr ⟨hu, hki, by omega⟩
  · exact .inr ⟨hu, by omega, hin⟩

/-- A loop that a sweep has passed leads back to its start, which has been visited, and then on. -/
theorem Passes.loop (h : Passes next u k n) (hkn : k ≤ n) (hn : n ∈ u)
    (hnext : next n = [k, n + 1]) : Passes next u k (n + 1) := by
  intro ks v hfresh
  obtain ⟨more, v', hsteps, hvisited, hstart⟩ :=
    h ks v fun i hi hlt => hfresh i hi ⟨hlt.1, by omega⟩
  have hnew : n ∉ v' := by
    intro hmem
    rcases hvisited n hmem with hmem | ⟨-, -, hlt⟩
    · exact hfresh n hmem ⟨hkn, Nat.lt_succ_self n⟩
    · exact Nat.lt_irrefl n hlt
  have hback : k ∈ n :: v' := by
    rcases Nat.lt_or_eq_of_le hkn with hlt | rfl
    · exact List.mem_cons_of_mem _ (hstart hlt)
    · exact List.mem_cons_self
  refine ⟨more, n :: v', ?_, ?_, fun _ => hback⟩
  · exact (hsteps.trans (Steps.visit hnew hnext)).tail (.skip hback)
  · intro i hi
    rcases List.mem_cons.mp hi with rfl | hi
    · exact .inr ⟨hn, hkn, Nat.lt_succ_self i⟩
    · rcases hvisited i hi with hv | ⟨hu, hki, hin⟩
      · exact .inl hv
      · exact .inr ⟨hu, hki, by omega⟩

/-- Places from `lo` up to `hi`, whose successors are none but these and `hi`, lead to nothing
else but what `hi` leads to. -/
theorem Reaches.within {lo hi : Nat} (h : Reaches next k d)
    (hstay : ∀ i, lo ≤ i → i < hi → ∀ d ∈ next i, lo ≤ d ∧ d ≤ hi) (hlo : lo ≤ k) (hhi : k ≤ hi) :
    lo ≤ d ∧ d < hi ∨ Reaches next hi d := by
  induction h with
  | refl =>
    rcases Nat.lt_or_eq_of_le hhi with hlt | rfl
    · exact .inl ⟨hlo, hlt⟩
    · exact .inr .refl
  | @tail c d _ hd ih =>
    rcases ih with ⟨hloc, hchi⟩ | hreaches
    · obtain ⟨hlod, hdhi⟩ := hstay c hloc hchi d hd
      rcases Nat.lt_or_eq_of_le hdhi with hlt | rfl
      · exact .inl ⟨hlod, hlt⟩
      · exact .inr .refl
    · exact .inr (hreaches.tail hd)

/-- Around `hi` they do not lead past it. -/
theorem Around.within {lo hi : Nat} (h : Around next hi k d)
    (hstay : ∀ i, lo ≤ i → i < hi → ∀ d ∈ next i, lo ≤ d ∧ d ≤ hi) (hlo : lo ≤ k) (hhi : k ≤ hi) :
    lo ≤ d ∧ d ≤ hi := by
  induction h with
  | refl => exact ⟨hlo, hhi⟩
  | @tail c d _ hd ih => exact hstay c ih.1 (Nat.lt_of_le_of_ne ih.2 hd.1) d hd.2

end Sweep

/-! ## Blocks -/

/-- The instructions `code` stand in the program from `k` on. -/
def Program.Lays (p : Program) (k : Nat) (code : List Instr) : Prop :=
  code <+: p.toList.drop k

namespace Program.Lays

variable {p : Program} {k : Nat} {i : Instr} {code code' : List Instr}

theorem head (h : p.Lays k (i :: code)) : p[k]? = some i := by
  obtain ⟨rest, h⟩ := h
  have hget : (p.toList.drop k)[0]? = some i := by
    rw [← h]
    rfl
  rwa [List.getElem?_drop, Nat.add_zero, Array.getElem?_toList] at hget

theorem tail (h : p.Lays k (i :: code)) : p.Lays (k + 1) code := by
  obtain ⟨rest, h⟩ := h
  refine ⟨rest, ?_⟩
  rw [← List.drop_drop, ← h]
  rfl

theorem left (h : p.Lays k (code ++ code')) : p.Lays k code :=
  (List.prefix_append code code').trans h

theorem right (h : p.Lays k (code ++ code')) : p.Lays (k + code.length) code' := by
  obtain ⟨rest, h⟩ := h
  refine ⟨rest, ?_⟩
  rw [← List.drop_drop, ← h, List.append_assoc, List.drop_left]

/-- Every place of the layout holds an instruction of the code. -/
theorem exists_mem (h : p.Lays k code) {n : Nat} (hk : k ≤ n) (hn : n < k + code.length) :
    ∃ i ∈ code, p[n]? = some i := by
  obtain ⟨rest, h⟩ := h
  have hlt : n - k < code.length := by omega
  refine ⟨code[n - k], List.getElem_mem hlt, ?_⟩
  have hget : (p.toList.drop k)[n - k]? = some code[n - k] := by
    rw [← h, List.getElem?_append_left hlt, List.getElem?_eq_getElem hlt]
  rwa [List.getElem?_drop, Nat.add_sub_cancel' hk, Array.getElem?_toList] at hget

end Program.Lays

theorem Expr.lays_program (e : Expr) : e.program.Lays 0 (e.code 0 ++ [.accept]) :=
  List.prefix_refl _

theorem Expr.accept_not_mem_code (e : Expr) (k : Nat) : Instr.accept ∉ e.code k := by
  induction e generalizing k with
  | empty | chars | assert => simp [code]
  | seq a b iha ihb => simp [code, iha, ihb]
  | alt a b iha ihb => simp [code, iha, ihb]
  | plus greedy a ih => cases greedy <;> simp [code, ih]
  | group i a ih => simp [code, ih]

namespace Program

variable {p : Program} {sides : Sides} {e : Expr} {u : List Nat} {k n d target : Nat}

/-- The instructions from `k` up to `n` are the block of the expression. -/
inductive Block (p : Program) : Expr → (k n : Nat) → Prop where
  | empty {k : Nat} : Block p .empty k k
  | chars {s : CharClass} {k : Nat} (h : p[k]? = some (.chars s)) : Block p (.chars s) k (k + 1)
  | assert {a : Assertion} {k : Nat} (h : p[k]? = some (.assert a)) : Block p (.assert a) k (k + 1)
  | seq {a b : Expr} {k m n : Nat} (ha : Block p a k m) (hb : Block p b m n) :
    Block p (.seq a b) k n
  | alt {a b : Expr} {k m n : Nat} (h : p[k]? = some (.split (k + 1) (m + 1)))
    (ha : Block p a (k + 1) m) (hm : p[m]? = some (.jump n)) (hb : Block p b (m + 1) n) :
    Block p (.alt a b) k n
  | plus {greedy : Bool} {a : Expr} {k m : Nat} (ha : Block p a k m)
    (hm : p[m]? = some (if greedy then .split k (m + 1) else .split (m + 1) k)) :
    Block p (.plus greedy a) k (m + 1)
  | group {i : Nat} {a : Expr} {k m : Nat} (h : p[k]? = some (.mark (startSlot i)))
    (ha : Block p a (k + 1) m) (hm : p[m]? = some (.mark (stopSlot i))) :
    Block p (.group i a) k (m + 1)

/-- What `Expr.code` lays out is the block of the expression. -/
theorem Lays.block (h : p.Lays k (e.code k)) : p.Block e k (k + (e.code k).length) := by
  induction e generalizing k with
  | empty => exact .empty
  | chars s => exact .chars h.head
  | assert a => exact .assert h.head
  | seq a b iha ihb =>
    rw [Expr.code, List.length_append, ← Nat.add_assoc]
    exact .seq (iha h.left) (ihb h.right)
  | alt a b iha ihb =>
    have hmiddle : k + (a.code (k + 1)).length.succ = k + 1 + (a.code (k + 1)).length := by omega
    have hsecond : k + 2 + (a.code (k + 1)).length = k + 1 + (a.code (k + 1)).length + 1 := by omega
    have hright := h.right
    rw [List.length_cons, hmiddle, hsecond] at hright
    have hb := ihb hright.tail
    have hend : k + (Expr.code k (.alt a b)).length =
        k + 1 + (a.code (k + 1)).length + 1 +
          (b.code (k + 1 + (a.code (k + 1)).length + 1)).length := by
      simp only [Expr.code, List.length_append, List.length_cons, hsecond]
      omega
    rw [hend]
    refine .alt ?_ (iha h.left.tail) hright.head hb
    rw [← hsecond]
    exact h.left.head
  | plus greedy a ih =>
    rw [Expr.code, List.length_append, List.length_singleton, ← Nat.add_assoc]
    have hm := h.right.head
    refine .plus (ih h.left) ?_
    cases greedy <;> exact hm
  | group i a ih =>
    have hmiddle : k + (a.code (k + 1)).length.succ = k + 1 + (a.code (k + 1)).length := by omega
    have hright := h.right
    rw [List.length_cons, hmiddle] at hright
    have hend : k + (Expr.code k (.group i a)).length = k + 1 + (a.code (k + 1)).length + 1 := by
      simp only [Expr.code, List.length_append, List.length_cons, List.length_nil]
      omega
    rw [hend]
    exact .group h.left.head (ih h.left.tail) hright.head

theorem Block.le (h : p.Block e k n) : k ≤ n := by
  induction h with
  | empty => exact Nat.le_refl _
  | chars | assert => exact Nat.le_succ _
  | seq | alt | plus | group => omega

/-- A block is left at its end only. -/
theorem Block.next_mem (h : p.Block e k n) :
    ∀ i, k ≤ i → i < n → ∀ d ∈ p.next sides i, k ≤ d ∧ d ≤ n := by
  induction h with
  | empty => intros; omega
  | @chars s k h =>
    intro i hlo hhi d hd
    obtain rfl : i = k := by omega
    rw [next_chars h] at hd
    cases hd
  | @assert a k h =>
    intro i hlo hhi d hd
    obtain rfl : i = k := by omega
    rw [next_assert h] at hd
    split at hd
    · rw [List.mem_singleton] at hd
      omega
    · cases hd
  | @seq a b k m n ha hb iha ihb =>
    intro i hlo hhi d hd
    have hkm := ha.le
    have hmn := hb.le
    rcases Nat.lt_or_ge i m with hlt | hge
    · have := iha i hlo hlt d hd
      omega
    · have := ihb i hge hhi d hd
      omega
  | @alt a b k m n h ha hm hb iha ihb =>
    intro i hlo hhi d hd
    have hkm := ha.le
    have hmn := hb.le
    rcases Nat.lt_or_eq_of_le hlo with hlo | rfl
    · rcases Nat.lt_trichotomy i m with hlt | rfl | hgt
      · have := iha i hlo hlt d hd
        omega
      · rw [next_jump hm, List.mem_singleton] at hd
        omega
      · have := ihb i hgt hhi d hd
        omega
    · rw [next_split h, List.mem_pair] at hd
      omega
  | @plus greedy a k m ha hm ih =>
    intro i hlo hhi d hd
    have hkm := ha.le
    rcases Nat.lt_or_eq_of_le (Nat.le_of_lt_succ hhi) with hlt | rfl
    · have := ih i hlo hlt d hd
      omega
    · cases greedy
      · rw [next_split hm, List.mem_pair] at hd
        omega
      · rw [next_split hm, List.mem_pair] at hd
        omega
  | @group j a k m h ha hm ih =>
    intro i hlo hhi d hd
    have hkm := ha.le
    rcases Nat.lt_or_eq_of_le hlo with hlo | rfl
    · rcases Nat.lt_or_eq_of_le (Nat.le_of_lt_succ hhi) with hlt | rfl
      · have := ih i hlo hlt d hd
        omega
      · rw [next_mark hm, List.mem_singleton] at hd
        omega
    · rw [next_mark h, List.mem_singleton] at hd
      omega

end Program

/-- Whether the expression can match the empty text, at least where its assertions hold. -/
def Expr.nullable : Expr → Bool
  | empty | assert _ => true
  | chars _ => false
  | seq a b => a.nullable && b.nullable
  | alt a b => a.nullable || b.nullable
  | plus _ a | group _ a => a.nullable

namespace Program

variable {p : Program} {sides : Sides} {e : Expr} {u : List Nat} {k n d target : Nat}

/-- The block of what cannot match the empty text is not left without reading. -/
theorem Block.reaches_lt (h : p.Block e k n) (hn : e.nullable = false)
    (hd : Reaches (p.next sides) k d) : k ≤ d ∧ d < n := by
  induction h generalizing d with
  | empty | assert => cases hn
  | @chars s k h =>
    rcases hd.cases_head with rfl | ⟨_, hstep, -⟩
    · omega
    · rw [next_chars h] at hstep
      cases hstep
  | @seq a b k m n ha hb iha ihb =>
    have hkm := ha.le
    have hmn := hb.le
    cases hna : a.nullable with
    | false =>
      have := iha hna hd
      omega
    | true =>
      have hnb : b.nullable = false := by simpa [Expr.nullable, hna] using hn
      rcases hd.within ha.next_mem (Nat.le_refl k) hkm with hin | hd
      · omega
      · have := ihb hnb hd
        omega
  | @alt a b k m n h ha hm hb iha ihb =>
    obtain ⟨hna, hnb⟩ := Bool.or_eq_false_iff.mp hn
    have hkm := ha.le
    have hmn := hb.le
    rcases hd.cases_head with rfl | ⟨c, hstep, hd⟩
    · omega
    · rw [next_split h, List.mem_pair] at hstep
      rcases hstep with rfl | rfl
      · have := iha hna hd
        omega
      · have := ihb hnb hd
        omega
  | @plus greedy a k m ha hm ih =>
    have := ih hn hd
    omega
  | @group j a k m h ha hm ih =>
    rcases hd.cases_head with rfl | ⟨c, hstep, hd⟩
    · have := ha.le
      omega
    · rw [next_mark h, List.mem_singleton] at hstep
      have := ih hn (hstep ▸ hd)
      omega

/-- Of a block whose start has been visited before `target`, which comes behind it, all has been
visited that a sweep visits on its way through. -/
theorem Block.passes (h : p.Block e k n) (hnull : e.nullable) (hassert : e.hasAssertion = false)
    (hu : Explored (p.next sides) target u) (htarget : n < target) (hk : k ∈ u) :
    n ∈ u ∧ Sweep.Passes (p.next sides) u k n := by
  induction h with
  | empty => exact ⟨hk, .refl _ _ _⟩
  | chars => cases hnull
  | assert => cases hassert
  | @seq a b k m n ha hb iha ihb =>
    obtain ⟨hna, hnb⟩ := Bool.and_eq_true_iff.mp hnull
    obtain ⟨hassa, hassb⟩ := Bool.or_eq_false_iff.mp hassert
    obtain ⟨hm, hpassa⟩ := iha hna hassa (Nat.lt_of_le_of_lt hb.le htarget) hk
    obtain ⟨hn, hpassb⟩ := ihb hnb hassb htarget hm
    exact ⟨hn, hpassa.trans hpassb ha.le hb.le⟩
  | @alt a b k m n h ha hm hb iha ihb =>
    obtain ⟨hassa, hassb⟩ := Bool.or_eq_false_iff.mp hassert
    have hkm := ha.le
    have hmn := hb.le
    have hnext : p.next sides k = [k + 1, m + 1] := next_split h
    have hfirst : k + 1 ∈ u := hu.first hk hnext (by omega)
    cases hna : a.nullable with
    | true =>
      obtain ⟨hjump, hpass⟩ := iha hna hassa (by omega) hfirst
      have hn : n ∈ u := hu.first hjump (next_jump hm) (by omega)
      have hpassm : Sweep.Passes (p.next sides) u m n :=
        .head hjump (next_jump hm) (by omega) (Nat.le_refl n) (.refl _ _ _)
      exact ⟨hn, .head hk hnext (by omega) (by omega) (hpass.trans hpassm hkm (by omega))⟩
    | false =>
      -- nothing behind the first alternative is reached without reading, so it is gone through
      have hnb : b.nullable := by simpa [Expr.nullable, hna] using hnull
      have hnot : ¬ Reaches (p.next sides) (k + 1) target := fun hreaches => by
        have := ha.reaches_lt hna hreaches
        omega
      have hsecond : m + 1 ∈ u :=
        hu.second hk hnext (by omega) fun haround => hnot haround.reaches
      obtain ⟨hn, hpass⟩ := ihb hnb hassb htarget hsecond
      refine ⟨hn, .second hk hnext (by omega) (by omega) (fun i hi => ?_)
        (p.exists_sweep sides (k + 1)) hpass⟩
      have := ha.reaches_lt hna hi
      exact ⟨hu.of_reaches hfirst hnot hi, by omega, by omega⟩
  | @plus greedy a k m ha hm ih =>
    have hkm := ha.le
    obtain ⟨hend, hpass⟩ := ih hnull hassert (by omega) hk
    cases greedy with
    | true =>
      have hnext : p.next sides m = [k, m + 1] := next_split hm
      have haround : ¬ Around (p.next sides) m k target := fun haround => by
        have := haround.within ha.next_mem (Nat.le_refl k) hkm
        omega
      exact ⟨hu.second hend hnext (by omega) haround, hpass.loop hkm hend hnext⟩
    | false =>
      have hnext : p.next sides m = [m + 1, k] := next_split hm
      have hpassm : Sweep.Passes (p.next sides) u m (m + 1) :=
        .head hend hnext (Nat.lt_succ_self m) (Nat.le_refl _) (.refl _ _ _)
      exact ⟨hu.first hend hnext (by omega), hpass.trans hpassm hkm (Nat.le_succ m)⟩
  | @group i a k m h ha hm ih =>
    have hkm := ha.le
    have hnext : p.next sides k = [k + 1] := next_mark h
    have hnextm : p.next sides m = [m + 1] := next_mark hm
    have hfirst : k + 1 ∈ u := hu.first hk hnext (by omega)
    obtain ⟨hend, hpass⟩ := ih hnull hassert (by omega) hfirst
    have hpassm : Sweep.Passes (p.next sides) u m (m + 1) :=
      .head hend hnextm (Nat.lt_succ_self m) (Nat.le_refl _) (.refl _ _ _)
    exact ⟨hu.first hend hnextm (by omega),
      .head hk hnext (by omega) (by omega) (hpass.trans hpassm hkm (Nat.le_succ m))⟩

/-- Without an assertion the sides of a position do not count. -/
theorem next_congr (h : ∀ a, p[k]? ≠ some (.assert a)) (sides sides' : Sides) :
    p.next sides k = p.next sides' k := by
  unfold next
  split
  · exact absurd ‹_› (h _)
  all_goals rfl

/-- The body of a run of `e` stands from `k` up to `m`. -/
structure Body (p : Program) (e : Expr) (k m : Nat) : Prop where
  block : p.Block e k m
  loop : p[m]? = some (.split k (m + 1))
  not_accept : ∀ i, k ≤ i → i < m → p[i]? ≠ some .accept
  not_assert : ∀ i, k ≤ i → i < m → ∀ a, p[i]? ≠ some (.assert a)

theorem Lays.body (h : p.Lays k ((Expr.plus true e).code k)) (he : e.hasAssertion = false) :
    p.Body e k (k + (e.code k).length) := by
  have hcode : p.Lays k (e.code k) := h.left
  refine ⟨hcode.block, h.right.head, fun i hlo hhi hi => ?_, fun i hlo hhi a hi => ?_⟩
  · obtain ⟨instr, hmem, hinstr⟩ := hcode.exists_mem hlo hhi
    cases hinstr.symm.trans hi
    exact e.accept_not_mem_code k hmem
  · obtain ⟨instr, hmem, hinstr⟩ := hcode.exists_mem hlo hhi
    cases hinstr.symm.trans hi
    exact Expr.not_assert_mem_code he k a hmem

end Program

end RegexText.Regex
