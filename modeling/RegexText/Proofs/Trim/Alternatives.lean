import RegexText.Proofs.Pattern.Occurrences
import RegexText.Proofs.Regex.Priority
import RegexText.Proofs.Trim.Head
import RegexText.Proofs.Trim.Reading

/-!
# Trimming literal alternatives

A trim pattern without backslashes is a list of texts. Trimming takes off the front, as long as one
of them stands there, the first listed one that does (`withoutFront`), and then off the end the
longest row of them (`trimRuns_literal`).

The two ends follow different rules. At the front the loop prefers the alternatives in their order
and never comes back to a choice that can go on, which is what backtracking finds
(`Program.HeadRun.finds_loop`). At the end the search takes the leftmost start from which some
row reaches the end of the text, so there it only counts what the alternatives match
(`Expr.matches_row_iff`).
-/

namespace RegexText

/-! ## Rows and fronts -/

/-- `w` consists of texts of `alts`, one after the other. -/
def IsRow (alts : List Text) (w : Text) : Prop :=
  ∃ ws : List Text, (∀ u ∈ ws, u ∈ alts) ∧ w = ws.flatten

theorem isRow_nil (alts : List Text) : IsRow alts [] :=
  ⟨[], fun _ hu => (List.not_mem_nil hu).elim, rfl⟩

/-- `t` without up to `steps` texts of `alts` at its front, each time the first listed one that
stands there. -/
def dropFront (alts : List Text) : (steps : Nat) → Text → Text
  | 0, t => t
  | steps + 1, t =>
    match alts.find? (·.isPrefixOf t) with
    | none => t
    | some u => dropFront alts steps (t.drop u.length)

/-- `t` without texts of `alts` at its front, as long as one stands there. Each has a character, so
the length of the text bounds their number. -/
def withoutFront (alts : List Text) (t : Text) : Text := dropFront alts t.length t

section

variable {alts : List Text} {u t : Text}

theorem prefix_of_find? (hu : alts.find? (·.isPrefixOf t) = some u) : u ∈ alts ∧ u <+: t := by
  have hbegins := List.find?_some hu
  exact ⟨List.mem_of_find?_eq_some hu, List.isPrefixOf_iff_prefix.mp hbegins⟩

theorem length_drop_lt (halts : ∀ u ∈ alts, u ≠ []) (hu : u ∈ alts) (hbegins : u <+: t) :
    (t.drop u.length).length < t.length := by
  have hpos := List.length_pos_iff.mpr (halts u hu)
  have hle := hbegins.length_le
  rw [List.length_drop]
  omega

theorem dropFront_nil (halts : ∀ u ∈ alts, u ≠ []) (steps : Nat) :
    dropFront alts steps [] = [] := by
  cases steps with
  | zero => rfl
  | succ steps =>
    rw [dropFront]
    split
    · rfl
    · rename_i u hu
      obtain ⟨hmem, hbegins⟩ := prefix_of_find? hu
      exact absurd (length_drop_lt halts hmem hbegins) (Nat.not_lt_zero _)

/-- More steps than the text has characters are as good as any. -/
theorem dropFront_eq_of_le (halts : ∀ u ∈ alts, u ≠ []) {steps steps' : Nat}
    (h : t.length ≤ steps) (h' : t.length ≤ steps') :
    dropFront alts steps t = dropFront alts steps' t := by
  induction steps generalizing t steps' with
  | zero =>
    rw [List.length_eq_zero_iff.mp (Nat.le_zero.mp h), dropFront_nil halts, dropFront_nil halts]
  | succ steps ih =>
    cases steps' with
    | zero =>
      rw [List.length_eq_zero_iff.mp (Nat.le_zero.mp h'), dropFront_nil halts, dropFront_nil halts]
    | succ steps' =>
      rw [dropFront, dropFront]
      split
      · rfl
      · rename_i u hu
        obtain ⟨hmem, hbegins⟩ := prefix_of_find? hu
        have hlt := length_drop_lt halts hmem hbegins
        exact ih (by omega) (by omega)

theorem withoutFront_of_none (halts : ∀ u ∈ alts, u ≠ [])
    (h : alts.find? (·.isPrefixOf t) = none) : withoutFront alts t = t := by
  rw [withoutFront, dropFront_eq_of_le halts (Nat.le_refl _) (Nat.le_succ _), dropFront, h]

theorem withoutFront_of_some (halts : ∀ u ∈ alts, u ≠ [])
    (h : alts.find? (·.isPrefixOf t) = some u) :
    withoutFront alts t = withoutFront alts (t.drop u.length) := by
  obtain ⟨hmem, hbegins⟩ := prefix_of_find? h
  have hlt := length_drop_lt halts hmem hbegins
  rw [withoutFront, dropFront_eq_of_le halts (Nat.le_refl _) (Nat.le_succ _), dropFront, h]
  exact dropFront_eq_of_le halts (Nat.le_of_lt hlt) (Nat.le_refl _)

theorem withoutFront_suffix (alts : List Text) (t : Text) : withoutFront alts t <:+ t := by
  have hdrop (steps : Nat) (t : Text) : dropFront alts steps t <:+ t := by
    induction steps generalizing t with
    | zero => exact List.suffix_rfl
    | succ steps ih =>
      rw [dropFront]
      split
      · exact List.suffix_rfl
      · exact (ih _).trans (List.drop_suffix _ t)
  exact hdrop t.length t

end

namespace Regex

open Text (lastOf lastOf_cons)

variable {e : Expr} {before : Option Char} {word after rest u : Text} {alts : List Text}

/-! ## What the alternatives match -/

theorem matches_literal_iff : (Expr.literal u).Matches before word after ↔ word = u := by
  unfold Expr.literal
  induction u generalizing before word with
  | nil =>
    constructor
    · intro h
      cases h
      rfl
    · rintro rfl
      exact .empty
  | cons c u ih =>
    have hchar {before : Option Char} {word after : Text} :
        (Expr.chars (.single c)).Matches before word after ↔ word = [c] := by
      constructor
      · intro h
        cases h with
        | chars hc =>
          rw [CharClass.contains_single, beq_iff_eq] at hc
          rw [hc]
      · rintro rfl
        exact .chars (by rw [CharClass.contains_single, beq_self_eq_true])
    cases u with
    | nil => exact hchar
    | cons d u =>
      constructor
      · intro h
        cases h with
        | seq hc hu =>
          rw [hchar.mp hc, ih.mp hu]
          rfl
      · rintro rfl
        exact .seq (v := [c]) (hchar.mpr rfl) (ih.mpr rfl)

theorem matches_firstOf_iff (hne : alts ≠ []) :
    (Expr.firstOf (alts.map Expr.literal)).Matches before word after ↔ word ∈ alts := by
  induction alts with
  | nil => exact absurd rfl hne
  | cons u alts ih =>
    cases alts with
    | nil =>
      rw [List.mem_singleton]
      exact matches_literal_iff
    | cons u' alts =>
      rw [List.mem_cons, ← ih (List.cons_ne_nil _ _)]
      constructor
      · intro h
        cases h with
        | left hu => exact .inl (matches_literal_iff.mp hu)
        | right hrest => exact .inr hrest
      · rintro (rfl | hrest)
        · exact .left (matches_literal_iff.mpr rfl)
        · exact .right hrest

/-- A loop over the alternatives matches the rows of them that are not empty. -/
theorem matches_row_iff (hne : alts ≠ []) (halts : ∀ u ∈ alts, u ≠ []) :
    (Expr.plus true (.firstOf (alts.map Expr.literal))).Matches before word after ↔
      word ≠ [] ∧ IsRow alts word := by
  constructor
  · intro h
    generalize hloop : Expr.plus true (.firstOf (alts.map Expr.literal)) = loop at h
    induction h with
    | empty | chars | assert | seq | left | right | group => cases hloop
    | once ha =>
      cases hloop
      have hmem := (matches_firstOf_iff hne).mp ha
      refine ⟨halts _ hmem, [_], fun u hu => List.mem_singleton.mp hu ▸ hmem, ?_⟩
      rw [List.flatten_singleton]
    | more ha _ _ ih =>
      cases hloop
      have hmem := (matches_firstOf_iff hne).mp ha
      obtain ⟨-, ws, hws, rfl⟩ := ih rfl
      refine ⟨List.append_ne_nil_of_left_ne_nil (halts _ hmem) _, _ :: ws, fun u hu => ?_, rfl⟩
      rcases List.mem_cons.mp hu with rfl | hu
      · exact hmem
      · exact hws u hu
  · rintro ⟨hword, ws, hws, rfl⟩
    induction ws generalizing before with
    | nil => exact absurd rfl hword
    | cons u ws ih =>
      have hu {before : Option Char} {after : Text} :
          (Expr.firstOf (alts.map Expr.literal)).Matches before u after :=
        (matches_firstOf_iff hne).mpr (hws u List.mem_cons_self)
      cases ws with
      | nil =>
        rw [List.flatten_singleton]
        exact .once hu
      | cons u' ws =>
        have hu' := hws u' (List.mem_cons_of_mem _ List.mem_cons_self)
        rw [List.flatten_cons]
        refine .more hu (ih (fun v hv => hws v (List.mem_cons_of_mem _ hv)) ?_)
        exact List.append_ne_nil_of_left_ne_nil (halts u' hu') _

/-! ## What backtracking finds among the alternatives -/

namespace Program

variable {p : Program} {k m n l : Nat}

theorem block_literal_cons {c : Char} (h : p.Block (.literal (c :: u)) k n) :
    p[k]? = some (.chars (.single c)) ∧ p.Block (.literal u) (k + 1) n := by
  cases u with
  | nil =>
    cases h with
    | chars hk => exact ⟨hk, .empty⟩
  | cons d u =>
    cases h with
    | seq hc hu =>
      cases hc with
      | chars hk => exact ⟨hk, hu⟩

/-- A literal text finds what is found behind it, where the text begins with it. -/
theorem Block.finds_literal (h : p.Block (.literal u) k n)
    (hn : u <+: rest → p.Finds n (lastOf before u) (rest.drop u.length) (some l)) :
    p.Finds k before rest (if u.isPrefixOf rest then some (l + u.length) else none) := by
  induction u generalizing k before rest with
  | nil =>
    cases h
    exact hn List.nil_prefix
  | cons c u ih =>
    obtain ⟨hk, hu⟩ := block_literal_cons h
    cases rest with
    | nil => exact .stuck hk fun _ hd => nomatch hd
    | cons d rest =>
      by_cases hc : c = d
      · subst hc
        have hbehind : p.Finds (k + 1) (some c) rest
            (if u.isPrefixOf rest then some (l + u.length) else none) := by
          refine ih hu fun hbegins => ?_
          rw [← lastOf_cons before c u]
          exact hn (List.cons_prefix_cons.mpr ⟨rfl, hbegins⟩)
        have hc : (CharClass.single c).contains c := by
          rw [CharClass.contains_single, beq_self_eq_true]
        have hread : p.Finds k before (c :: rest) _ := .read hk hc hbehind
        rw [List.isPrefixOf_cons_cons, beq_self_eq_true, Bool.true_and]
        cases hbegins : u.isPrefixOf rest with
        | true =>
          rw [hbegins] at hread
          exact hread
        | false =>
          rw [hbegins] at hread
          exact hread
      · have hnot : (CharClass.single c).contains d = false := by
          rw [CharClass.contains_single, beq_eq_false_iff_ne]
          exact hc
        rw [List.isPrefixOf_cons_cons, beq_eq_false_iff_ne.mpr hc, Bool.false_and]
        refine .stuck hk fun x hx => ?_
        cases hx
        exact hnot

/-- Alternatives find what is found behind the first one that the text begins with. -/
theorem Block.finds_firstOf (hne : alts ≠ [])
    (h : p.Block (.firstOf (alts.map Expr.literal)) k n) (before : Option Char) (rest : Text)
    (length : Text → Nat) (hn : ∀ u ∈ alts, u <+: rest →
      p.Finds n (lastOf before u) (rest.drop u.length) (some (length u))) :
    p.Finds k before rest
      ((alts.find? (·.isPrefixOf rest)).map fun u => length u + u.length) := by
  have hfirst (u : Text) (alts : List Text) :
      ((u :: alts).find? (·.isPrefixOf rest)).map (fun u => length u + u.length) =
        (if u.isPrefixOf rest then some (length u + u.length) else none).or
          ((alts.find? (·.isPrefixOf rest)).map fun u => length u + u.length) := by
    rw [List.find?_cons]
    cases u.isPrefixOf rest <;> rfl
  induction alts generalizing k with
  | nil => exact absurd rfl hne
  | cons u alts ih =>
    have hu := hn u List.mem_cons_self
    rw [hfirst]
    cases alts with
    | nil =>
      rw [List.find?_nil, Option.map_none, Option.or_none]
      exact h.finds_literal hu
    | cons u' alts =>
      cases h with
      | alt hsplit hblocku hjump hblock =>
        refine .split (hblocku.finds_literal fun hbegins => (hu hbegins).jump hjump) ?_ hsplit
        exact ih (List.cons_ne_nil _ _) hblock fun v hv => hn v (List.mem_cons_of_mem u hv)

/-- From the loop of a run on, backtracking takes off what `withoutFront` does. -/
theorem HeadRun.finds_loop (h : p.HeadRun (.firstOf (alts.map Expr.literal)) m) (hne : alts ≠ [])
    (halts : ∀ u ∈ alts, u ≠ []) (before : Option Char) (t : Text) :
    p.Finds m before t (some (t.length - (withoutFront alts t).length)) := by
  generalize hlength : t.length = len
  induction len using Nat.strongRecOn generalizing before t with
  | ind len ih =>
    subst hlength
    have hbody := Block.finds_firstOf hne h.body.block before t
      (fun u => (t.drop u.length).length - (withoutFront alts (t.drop u.length)).length)
      fun u hu hbegins => ih _ (length_drop_lt halts hu hbegins) _ _ rfl
    have hexit : p.Finds (m + 1) before t (some 0) := .accept h.exit
    have hloop := hbody.split hexit h.body.loop
    cases hfind : alts.find? (·.isPrefixOf t) with
    | none =>
      rw [withoutFront_of_none halts hfind, Nat.sub_self]
      rw [hfind] at hloop
      exact hloop
    | some u =>
      obtain ⟨-, hbegins⟩ := prefix_of_find? hfind
      have hle := hbegins.length_le
      have hsuffix := (withoutFront_suffix alts (t.drop u.length)).length_le
      rw [List.length_drop] at hsuffix
      rw [hfind] at hloop
      have hsum : t.length - (withoutFront alts t).length =
          (t.drop u.length).length - (withoutFront alts (t.drop u.length)).length + u.length := by
        rw [withoutFront_of_some halts hfind, List.length_drop]
        omega
      rw [hsum]
      exact hloop

end Program

/-! ## The two ends of a text -/

variable {t : Text}

theorem Expr.hasAssertion_alternatives (alts : List Text) :
    (firstOf (alts.map literal)).hasAssertion = false := by
  induction alts with
  | nil => rfl
  | cons u alts ih =>
    cases alts with
    | nil => exact hasAssertion_literal u
    | cons u' alts => exact Bool.or_eq_false_iff.mpr ⟨hasAssertion_literal u, ih⟩

theorem Expr.readsNothing_literal (hu : u ≠ []) : (literal u).readsNothing = false := by
  cases u with
  | nil => exact absurd rfl hu
  | cons c u => cases u <;> rfl

theorem Expr.readsNothing_alternatives (hne : alts ≠ []) (halts : ∀ u ∈ alts, u ≠ []) :
    (firstOf (alts.map literal)).readsNothing = false := by
  cases alts with
  | nil => exact absurd rfl hne
  | cons u alts =>
    have hu := readsNothing_literal (halts u List.mem_cons_self)
    cases alts with
    | nil => exact hu
    | cons u' alts => exact Bool.and_eq_false_imp.mpr fun he => by rw [hu] at he; cases he

/-- What a run of the alternatives leaves at the front of a text. -/
theorem Program.HeadRun.erase_eq {re : Regex} {m : Nat}
    (h : re.program.HeadRun (.firstOf (alts.map Expr.literal)) m) (hne : alts ≠ [])
    (halts : ∀ u ∈ alts, u ≠ []) (t : Text) : re.erase t = withoutFront alts t := by
  have hbody := Block.finds_firstOf hne h.body.block none t
    (fun u => (t.drop u.length).length - (withoutFront alts (t.drop u.length)).length)
    fun u _ _ => h.finds_loop hne halts _ _
  have hwhole := (hbody.assert h.start rfl).matchAt? 0
  cases hfind : alts.find? (·.isPrefixOf t) with
  | none =>
    rw [hfind] at hwhole
    rw [h.atStart.erase_of_none (Option.map_eq_none_iff.mp hwhole),
      withoutFront_of_none halts hfind]
  | some u =>
    rw [hfind] at hwhole
    obtain ⟨c, hc, hspan⟩ := Option.map_eq_some_iff.mp hwhole
    obtain ⟨-, hbegins⟩ := prefix_of_find? hfind
    have hle := hbegins.length_le
    have hshort := (withoutFront_suffix alts (t.drop u.length)).length_le
    rw [List.length_drop] at hshort
    have hstop : c.whole.stop = t.length - (withoutFront alts t).length := by
      rw [hspan, withoutFront_of_some halts hfind]
      simp only [List.length_drop, Nat.zero_add]
      omega
    rw [h.atStart.erase_of_some hc, hstop]
    exact (List.suffix_iff_eq_drop.mp (withoutFront_suffix alts t)).symm

/-- What a run of the alternatives takes off the end of a text is the longest row there. -/
theorem exists_longest_row (hne : alts ≠ []) (halts : ∀ u ∈ alts, u ≠ []) (t : Text) :
    ∃ row, t = (ofExpr (.seq (.plus true (.firstOf (alts.map Expr.literal)))
        (.assert .textEnd))).erase t ++ row ∧
      IsRow alts row ∧ ∀ w, w <:+ t → IsRow alts w → w.length ≤ row.length := by
  obtain ⟨row, ht, hrow, hlongest⟩ :=
    exists_back (.plus true (.firstOf (alts.map Expr.literal))) t
  refine ⟨row, ht, ?_, ?_⟩
  · by_cases hnil : row = []
    · rw [hnil]
      exact isRow_nil alts
    · exact ((matches_row_iff hne halts).mp (hrow hnil)).2
  · rintro w ⟨v, hv⟩ hw
    by_cases hnil : w = []
    · rw [hnil]
      exact Nat.zero_le _
    · exact hlongest v w hv.symm ((matches_row_iff hne halts).mpr ⟨hnil, hw⟩)

end Regex

/-! ## Trimming -/

theorem alternatives_ne_nil (p : Text) : alternatives p ≠ [] := by
  unfold alternatives
  split
  · exact List.cons_ne_nil _ _
  · exact List.splitOn_ne_nil _ _

/-- Trimming with a pattern that has no backslashes, and no empty alternatives, takes off the front
the first listed alternative that stands there, as long as one does, and then off the end the
longest row of alternatives. -/
theorem trimRuns_literal (t p : Text) (hbackslash : '\\' ∉ p)
    (halts : ∀ u ∈ alternatives p, u ≠ []) :
    ∃ row, withoutFront (alternatives p) t = trimRuns t (some p) ++ row ∧
      IsRow (alternatives p) row ∧
      ∀ w, w <:+ withoutFront (alternatives p) t → IsRow (alternatives p) w →
        w.length ≤ row.length := by
  have hne := alternatives_ne_nil p
  have hp : p ≠ [] := by
    rintro rfl
    exact halts [] (List.mem_singleton_self _) rfl
  have hruns : EdgeRuns.ofPattern p =
      .around (.firstOf ((alternatives p).map Regex.Expr.literal)) := by
    rw [EdgeRuns.ofPattern, EdgeRuns.compile_eq_around (EdgeRuns.noQuestion_escapeOperators p)
      (EdgeRuns.parse_escapeOperators hbackslash)]
  have hloop : (Regex.Expr.firstOf ((alternatives p).map Regex.Expr.literal)).repeated true
      ⟨1, none⟩ = .plus true (.firstOf ((alternatives p).map Regex.Expr.literal)) := by
    rw [Regex.Expr.repeated_run, Regex.Expr.readsNothing_alternatives hne halts]
    rfl
  obtain ⟨m, hhead⟩ := Regex.Expr.exists_headRun
    (Regex.Expr.hasAssertion_alternatives (alternatives p))
  rw [trimRuns_eq_erase hp, hruns, EdgeRuns.around, hloop, hhead.erase_eq hne halts]
  exact Regex.exists_longest_row hne halts _

/-- At the front of `aabab.xab.ab` the alternative `a` is taken where `ab` would reach further, and
at the end `ab.` and `ab` are a longer row than `ab` alone. -/
theorem trimRuns_literal_overlapping :
    '\\' ∉ "a|ab.|ab".toList ∧ (∀ u ∈ alternatives "a|ab.|ab".toList, u ≠ []) ∧
      trimRuns "aabab.xab.ab".toList (some "a|ab.|ab".toList) = "bab.x".toList ∧
      ∃ row, withoutFront (alternatives "a|ab.|ab".toList) "aabab.xab.ab".toList =
          trimRuns "aabab.xab.ab".toList (some "a|ab.|ab".toList) ++ row ∧
        IsRow (alternatives "a|ab.|ab".toList) row ∧
        ∀ w, w <:+ withoutFront (alternatives "a|ab.|ab".toList) "aabab.xab.ab".toList →
          IsRow (alternatives "a|ab.|ab".toList) w → w.length ≤ row.length :=
  ⟨by decide, by decide, by decide, trimRuns_literal _ _ (by decide) (by decide)⟩

end RegexText
