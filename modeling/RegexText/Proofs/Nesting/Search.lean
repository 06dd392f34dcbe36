import RegexText.Proofs.Nesting.Mark
import RegexText.Proofs.Pattern.Literal

/-!
# Marks found by a search

`nextSymbol?` looks for a mark character by character. A search for any number of backslashes and a
mark after them finds the same: it reports where the backslashes start and where the mark ends, the
backslashes as its first group and the mark as its second (`nextSymbol?_eq_search`).

The program of the search is deterministic: after some backslashes it waits for one more or for the
mark (`markThreads`), so it matches where backslashes lead to a mark (`run_markProgram`).
-/

namespace RegexText.Nesting

open Regex

/-- Backslashes, as group 1, and a bracket or quote mark, as group 2. -/
def markPattern : Text := "(\\\\*)([()\\[\\]\x7b\x7d\"'])".toList

/-- The class of the brackets and quote marks, as they are listed in the pattern. -/
def markClass : CharClass :=
  "()[]\x7b\x7d\"'".toList.foldl (fun s c => .union s (.single c)) .empty

/-- What the pattern is read as. -/
def markExpr : Expr :=
  .seq (.group 1 (.repeated true ⟨0, none⟩ (.chars (.single '\\')))) (.group 2 (.chars markClass))

/-- The search for backslashes and a mark. -/
def markSearch : Pattern := ⟨markPattern, {}, .ofExpr markExpr⟩

theorem compile_markPattern : Pattern.compile markPattern [] = .ok markSearch := rfl

theorem contains_markClass (c : Char) : markClass.contains c = isPairing c := by
  have hunion (cs : Text) (s : CharClass) :
      (cs.foldl (fun s c => CharClass.union s (.single c)) s).contains c =
        (s.contains c || cs.contains c) := by
    induction cs generalizing s with
    | nil => rw [List.foldl_nil, List.contains_nil, Bool.or_false]
    | cons d ds ih =>
      rw [List.foldl_cons, ih, CharClass.contains, CharClass.contains_single, List.contains_cons,
        Bool.or_assoc, BEq.comm]
  rw [markClass, hunion, Bool.eq_iff_iff]
  unfold isPairing closerOf?
  split <;> simp_all [CharClass.contains, or_assoc]

/-! ## The program -/

/-- The number of backslashes that `t` starts with and the mark after them, if there is one. -/
def markAfter? : Text → Option (Nat × Char)
  | [] => none
  | c :: cs =>
    if c == '\\' then (markAfter? cs).map fun y => (y.1 + 1, y.2)
    else if isPairing c then some (0, c)
    else none

/-- The threads at position `q` of a match that started at `p` and has read backslashes since. -/
def markThreads (p q : Nat) : List Thread :=
  [⟨2, [(2, p)]⟩, ⟨7, [(4, q), (3, q), (2, p)]⟩]

theorem threadsFrom_start (sides : Sides) (p : Nat) :
    markExpr.program.threadsFrom sides p [⟨0, []⟩] = markThreads p p := by
  cbv

theorem threadsFrom_backslash (sides : Sides) (p q : Nat) :
    markExpr.program.threadsFrom sides q [⟨3, [(2, p)]⟩] = markThreads p q := by
  cbv

theorem threadsFrom_mark (sides : Sides) (q : Nat) (marks : Marks) :
    markExpr.program.threadsFrom sides q [⟨8, marks⟩] = [⟨9, (5, q) :: marks⟩] := by
  cbv

theorem advance_markThreads (c : Char) (p q : Nat) :
    markExpr.program.advance c (markThreads p q) =
      if c == '\\' then [⟨3, [(2, p)]⟩]
      else if isPairing c then [⟨8, [(4, q), (3, q), (2, p)]⟩]
      else [] := by
  have h₂ : markExpr.program[2]? = some (.chars (.single '\\')) := rfl
  have h₇ : markExpr.program[7]? = some (.chars markClass) := rfl
  simp only [Program.advance, markThreads, List.filterMap_cons, List.filterMap_nil, h₂, h₇,
    CharClass.contains_single, contains_markClass]
  by_cases hc : c = '\\'
  · rw [hc]
    rfl
  · rw [beq_false_of_ne hc, beq_false_of_ne (Ne.symm hc)]
    cases isPairing c <;> rfl

theorem accepts_markThreads (p q : Nat) :
    (markThreads p q).find? markExpr.program.accepts = none := by
  cbv

theorem run_markThreads_cons (p q : Nat) (c : Char) (cs : Text) :
    markExpr.program.run q (markThreads p q) (c :: cs) =
      if c == '\\' then markExpr.program.run (q + 1) (markThreads p (q + 1)) cs
      else if isPairing c then some (q + 1, [(5, q + 1), (4, q), (3, q), (2, p)])
      else none := by
  have hwait : (markThreads p q).takeWhile (!markExpr.program.accepts ·) = markThreads p q := by cbv
  have haccept : markExpr.program[9]? = some .accept := rfl
  rw [Program.run, hwait, accepts_markThreads, advance_markThreads]
  cases c == '\\' with
  | true => simp only [if_true, threadsFrom_backslash, Option.map_none, Option.or_none]
  | false =>
    cases isPairing c with
    | true =>
      simp only [Bool.false_eq_true, if_false, if_true, threadsFrom_mark,
        Program.run_of_accept haccept]
      rfl
    | false => rfl

/-- From a place in the backslashes the program matches up to the mark that they lead to. -/
theorem run_markProgram (p q : Nat) (rest : Text) :
    markExpr.program.run q (markThreads p q) rest =
      (markAfter? rest).map fun y =>
        (q + y.1 + 1, [(5, q + y.1 + 1), (4, q + y.1), (3, q + y.1), (2, p)]) := by
  induction rest generalizing q with
  | nil => rw [Program.run, accepts_markThreads]; rfl
  | cons c cs ih =>
    rw [run_markThreads_cons, markAfter?, ih]
    split
    · rw [Option.map_map]
      congr 1
      funext y
      simp only [Function.comp_apply, Nat.add_right_comm q 1 y.1, Nat.add_assoc q y.1 1]
    · split <;> rfl

/-! ## The search -/

/-- The match that ends with the mark `y`. -/
def Symbol.captures (y : Symbol) : Captures :=
  ⟨⟨y.start, y.stop⟩, [some ⟨y.start, y.stop - 1⟩, some ⟨y.stop - 1, y.stop⟩]⟩

theorem matchAt?_mark (before : Option Char) (p : Nat) (rest : Text) :
    (ofExpr markExpr).matchAt? before p rest =
      (markAfter? rest).map fun y =>
        Symbol.captures ⟨p, p + y.1 + 1, y.2, y.1 % 2 == 1⟩ := by
  rw [matchAt?, ofExpr, threadsFrom_start, run_markProgram, Option.map_map]
  rfl

/-- A mark that a scan finds after backslashes only. -/
theorem Symbol.scan_of_markAfter? {t : Text} {n : Nat} {c : Char} (h : markAfter? t = some (n, c))
    (i k : Nat) : Symbol.scan i k t = some ⟨i - k, i + n + 1, c, (k + n) % 2 == 1⟩ := by
  induction t generalizing i k n with
  | nil => cases h
  | cons d ds ih =>
    unfold markAfter? at h
    unfold Symbol.scan
    split at h
    · rename_i hd
      obtain ⟨⟨n', c'⟩, h', heq⟩ := Option.map_eq_some_iff.mp h
      cases heq
      rw [if_pos hd, ih h', Nat.add_sub_add_right, Nat.add_right_comm i 1 n',
        Nat.add_right_comm k 1 n']
      rfl
    · rename_i hd
      split at h
      · rename_i hp
        cases h
        rw [if_neg hd, if_pos hp]
        rfl
      · cases h

/-- Where no mark follows the backslashes at the start of a text, they do not matter. -/
theorem Symbol.scan_of_markAfter?_eq_none {t : Text} (h : markAfter? t = none) (i k : Nat) :
    Symbol.scan i k t = Symbol.scan i 0 t := by
  induction t generalizing i k with
  | nil => rfl
  | cons d ds ih =>
    unfold markAfter? at h
    unfold Symbol.scan
    split at h
    · rename_i hd
      have h' := Option.map_eq_none_iff.mp h
      rw [if_pos hd, if_pos hd, ih h', ih h' (i + 1) (0 + 1)]
    · rename_i hd
      split at h
      · cases h
      · rename_i hp
        rw [if_neg hd, if_neg hd, if_neg hp, if_neg hp]

/-- Then the scan goes on at the next character. -/
theorem Symbol.scan_cons_of_markAfter?_eq_none {c : Char} {cs : Text}
    (h : markAfter? (c :: cs) = none) (i : Nat) :
    Symbol.scan i 0 (c :: cs) = Symbol.scan (i + 1) 0 cs := by
  unfold markAfter? at h
  rw [Symbol.scan]
  split at h
  · rename_i hc
    rw [if_pos hc, Symbol.scan_of_markAfter?_eq_none (Option.map_eq_none_iff.mp h)]
  · rename_i hc
    split at h
    · cases h
    · rename_i hp
      rw [if_neg hc, if_neg hp]

theorem scan_mark (before : Option Char) (p : Nat) (t : Text) :
    (ofExpr markExpr).scan before p t = (Symbol.scan p 0 t).map Symbol.captures := by
  induction t generalizing before p with
  | nil => rw [Regex.scan, matchAt?_mark]; rfl
  | cons c cs ih =>
    rw [Regex.scan, matchAt?_mark]
    cases h : markAfter? (c :: cs) with
    | none => rw [Symbol.scan_cons_of_markAfter?_eq_none h]; exact ih (some c) (p + 1)
    | some found =>
      obtain ⟨n, y⟩ := found
      rw [Symbol.scan_of_markAfter? h, Nat.zero_add]
      rfl

/-- The mark that a match ends with, after the backslashes of its first group. -/
def Symbol.ofMatch (m : Match) : Symbol where
  start := m.index
  stop := m.stop
  char := ((m.value? 2).bind (·.head?)).getD '\\'
  escaped := ((m.value? 1).getD []).length % 2 == 1

/-- What the match says of a mark that has been found in `t`. -/
theorem Symbol.ofMatch_captures {t : Text} {y : Symbol} (h : nextSymbol? t 0 = some y) (i : Nat)
    (hw : y.captures.Within 0 t.length) :
    Symbol.ofMatch (.ofCaptures t i y.captures) = y.shift i := by
  obtain ⟨gap, n, hf⟩ := nextSymbol?_found h
  obtain ⟨tail, ht⟩ := hf.text_eq
  have hstart := hf.start_eq
  have hstop := hf.stop_eq
  rw [List.drop_zero, Nat.zero_add] at *
  have hdrop : t.drop y.start = List.replicate n '\\' ++ y.char :: tail := by
    rw [ht, hstart, List.drop_left]
  have hslashes : t.slice y.start (y.stop - 1) = List.replicate n '\\' := by
    rw [Text.slice, hdrop, List.take_append_of_le_length (by rw [List.length_replicate]; omega),
      List.take_of_length_le (by rw [List.length_replicate]; omega)]
  have hchar : t.slice (y.stop - 1) y.stop = [y.char] := by
    have hlast : y.stop - 1 = y.start + n := by omega
    have hone : y.stop - (y.start + n) = 1 := by omega
    rw [Text.slice, hlast, hone, ← List.drop_drop, hdrop, List.drop_left' List.length_replicate]
    rfl
  have hfirst : (Match.ofCaptures t i y.captures).value? 1 = some (List.replicate n '\\') :=
    congrArg some hslashes
  have hsecond : (Match.ofCaptures t i y.captures).value? 2 = some [y.char] := congrArg some hchar
  rw [ofMatch, Match.stop_ofCaptures t i hw, hfirst, hsecond, Option.getD_some,
    List.length_replicate, ← hf.escaped_eq]
  rfl

/-- The next mark is what the search finds. -/
theorem nextSymbol?_eq_search (t : Text) (i : Nat) :
    nextSymbol? t i = (markSearch.matchFirst t i).map Symbol.ofMatch := by
  have hshift : nextSymbol? t i = (nextSymbol? (t.drop i) 0).map (Symbol.shift i) :=
    Symbol.scan_add i 0 0 (t.drop i) (Nat.le_refl 0)
  have hfind : markSearch.regex.find? (t.drop i) 0 =
      (nextSymbol? (t.drop i) 0).map Symbol.captures := by
    rw [Regex.find?, if_pos (Nat.zero_le _)]
    exact scan_mark _ 0 _
  unfold Pattern.matchFirst
  split
  · rename_i hle
    rw [nextSymbol?, List.drop_eq_nil_of_le hle]
    rfl
  · show _ = ((markSearch.regex.find? (t.drop i) 0).map _).map _
    rw [hshift, hfind, Option.map_map, Option.map_map]
    cases hy : nextSymbol? (t.drop i) 0 with
    | none => rfl
    | some y =>
      rw [hy] at hfind
      exact congrArg some (Symbol.ofMatch_captures hy i (find?_within hfind)).symm

end RegexText.Nesting
