import RegexText.Proofs.Pattern.Literal
import RegexText.Proofs.Trim.Erase
import RegexText.Proofs.Trim.Reading

/-!
# Operators in a trim pattern

An operator in a trim pattern is to stand for itself, so what trimming takes off either end of a
text is to hold every operator of a pattern that has no alternatives. It does
(`trimRuns_holds_operator`), whatever backslashes the pattern has, as long as none stands before an
operator: such a pattern either cannot be read, and then it is taken as plain text
(`EdgeRuns.literal`), or is a row of items, and its operators are among them
(`EdgeRuns.exists_rows`).

The escaping gives every operator a backslash of its own and does not see one that stands there
already. Together they are an escaped backslash, and the operator acts
(`not_forall_trimRuns_holds_operator`).
-/

namespace RegexText

open Regex (Expr ofExpr)

namespace Regex

variable {e : Expr} {es : List Expr} {before : Option Char} {word after : Text} {c : Char}

/-- What a row of items matches holds each character that is an item. -/
theorem Expr.Matches.mem_of_concat (h : (Expr.concat es).Matches before word after)
    (hc : .chars (.single c) ∈ es) : c ∈ word := by
  have hitem {before : Option Char} {word after : Text}
      (h : (Expr.chars (.single c)).Matches before word after) : c ∈ word := by
    cases h with
    | chars hd =>
      rw [CharClass.contains_single, beq_iff_eq] at hd
      exact List.mem_singleton.mpr hd
  induction es generalizing before word with
  | nil => cases hc
  | cons e es ih =>
    cases es with
    | nil =>
      cases List.mem_singleton.mp hc
      exact hitem h
    | cons e' es =>
      cases h with
      | seq he hes =>
        rcases List.mem_cons.mp hc with rfl | hc
        · exact List.mem_append_left _ (hitem he)
        · exact List.mem_append_right _ (ih hes hc)

/-- So does a run of the row. -/
theorem Expr.Matches.mem_of_run
    (h : ((Expr.concat es).repeated true ⟨1, none⟩).Matches before word after)
    (hc : .chars (.single c) ∈ es) : c ∈ word := by
  rw [Expr.repeated_run] at h
  split at h
  · exact h.mem_of_concat hc
  · cases h with
    | once hrow => exact hrow.mem_of_concat hc
    | more hrow _ => exact List.mem_append_left _ (hrow.mem_of_concat hc)

end Regex

namespace EdgeRuns

variable {p : Text} {runs : EdgeRuns}

theorem exists_parse_of_compile {inner : Text} (h : compile inner = .ok runs) :
    ∃ head tail, Regex.parse {} ("^(?:".toList ++ inner ++ ")+".toList) = .ok head ∧
      Regex.parse {} ("(?:".toList ++ inner ++ ")+$".toList) = .ok tail ∧
      runs = ⟨ofExpr head, ofExpr tail⟩ := by
  obtain ⟨re, hhead, h⟩ := Regex.bind_eq_ok.mp h
  obtain ⟨re', htail, h⟩ := Regex.bind_eq_ok.mp h
  obtain ⟨head, hparse, rfl⟩ := Regex.map_eq_ok.mp hhead
  obtain ⟨tail, hparse', rfl⟩ := Regex.map_eq_ok.mp htail
  cases h
  exact ⟨head, tail, hparse, hparse', rfl⟩

/-- The runs of a pattern that has neither alternatives nor an escaped operator are those of rows of
items, and its operators are among the items. -/
theorem exists_rows (hbar : '|' ∉ p)
    (hescapes : ∀ runs, compile (escapeOperators p) = .ok runs → escapesOperator p = false) :
    ∃ es es' : List Expr,
      ofPattern p =
        ⟨ofExpr (.seq (.assert .textStart) ((Expr.concat es).repeated true ⟨1, none⟩)),
          ofExpr (.seq ((Expr.concat es').repeated true ⟨1, none⟩) (.assert .textEnd))⟩ ∧
      ∀ c ∈ p, isTrimOperator c → .chars (.single c) ∈ es ∧ .chars (.single c) ∈ es' := by
  have hp : p ≠ ['|'] := fun he => hbar (he ▸ List.mem_singleton_self _)
  unfold ofPattern
  split
  · rename_i runs hruns
    obtain ⟨head, tail, hhead, htail, rfl⟩ := exists_parse_of_compile hruns
    rw [escapeOperators_eq hp] at hhead htail
    obtain ⟨es, rfl, hes⟩ := exists_parse_head hbar (hescapes _ hruns) hhead
    obtain ⟨es', rfl, hes'⟩ := exists_parse_tail hbar (hescapes _ hruns) htail
    exact ⟨es, es', rfl, fun c hc hop => ⟨hes c hc hop, hes' c hc hop⟩⟩
  · have hitem (c : Char) (hc : c ∈ p) :
        Expr.chars (.single c) ∈ p.map fun c => .chars (.single c) := List.mem_map_of_mem hc
    exact ⟨p.map _, p.map _, rfl, fun c hc _ => ⟨hitem c hc, hitem c hc⟩⟩

end EdgeRuns

/-- What trimming takes off an end of a text holds every operator of the pattern, where the pattern
has no alternatives and, unless it is taken as plain text, no backslash before an operator. -/
theorem trimRuns_holds_operator (t p : Text) (c : Char) (hbar : '|' ∉ p) (hop : isTrimOperator c)
    (hc : c ∈ p)
    (hescapes : ∀ runs, EdgeRuns.compile (escapeOperators p) = .ok runs →
      escapesOperator p = false) :
    ∃ front back, t = front ++ (EdgeRuns.ofPattern p).head.erase t ∧
      (EdgeRuns.ofPattern p).head.erase t = trimRuns t (some p) ++ back ∧
      (front ≠ [] → c ∈ front) ∧ (back ≠ [] → c ∈ back) := by
  obtain ⟨es, es', hruns, hes⟩ := EdgeRuns.exists_rows hbar hescapes
  obtain ⟨hhead, htail⟩ := hes c hc hop
  rw [trimRuns_eq_erase (List.ne_nil_of_mem hc), hruns]
  obtain ⟨front, ht, hfront⟩ := Regex.exists_front ((Expr.concat es).repeated true ⟨1, none⟩) t
  obtain ⟨back, hleft, hback, -⟩ := Regex.exists_back ((Expr.concat es').repeated true ⟨1, none⟩)
    ((ofExpr (.seq (.assert .textStart) ((Expr.concat es).repeated true ⟨1, none⟩))).erase t)
  exact ⟨front, back, ht, hleft, fun hne => (hfront hne).mem_of_run hhead,
    fun hne => (hback hne).mem_of_run htail⟩

/-- The pattern `\d.` takes digits with a dot behind them off both ends of `1.2.ab3.`. -/
theorem trimRuns_holds_operator_digits :
    '|' ∉ "\\d.".toList ∧ isTrimOperator '.' ∧ '.' ∈ "\\d.".toList ∧
      escapesOperator "\\d.".toList = false ∧
      trimRuns "1.2.ab3.".toList (some "\\d.".toList) = "ab".toList ∧
      ∃ front back,
        "1.2.ab3.".toList =
          front ++ (EdgeRuns.ofPattern "\\d.".toList).head.erase "1.2.ab3.".toList ∧
        (EdgeRuns.ofPattern "\\d.".toList).head.erase "1.2.ab3.".toList =
          trimRuns "1.2.ab3.".toList (some "\\d.".toList) ++ back ∧
        (front ≠ [] → '.' ∈ front) ∧ (back ≠ [] → '.' ∈ back) :=
  ⟨by decide, by decide, by decide, by decide, by decide,
    trimRuns_holds_operator _ _ _ (by decide) (by decide) (by decide) fun _ _ => by decide⟩

/-- With the pattern `\.` the run `\x` is taken off the front of `\xa`. -/
theorem not_forall_trimRuns_holds_operator :
    ¬ ∀ (t p : Text) (c : Char), '|' ∉ p → isTrimOperator c → c ∈ p →
      ∃ front back, t = front ++ (EdgeRuns.ofPattern p).head.erase t ∧
        (EdgeRuns.ofPattern p).head.erase t = trimRuns t (some p) ++ back ∧
        (front ≠ [] → c ∈ front) ∧ (back ≠ [] → c ∈ back) := by
  intro h
  obtain ⟨front, back, hfront, -, hc, -⟩ :=
    h "\\xa".toList "\\.".toList '.' (by decide) (by decide) (by decide)
  have herase : (EdgeRuns.ofPattern "\\.".toList).head.erase "\\xa".toList = "a".toList := by decide
  rw [herase] at hfront
  have htaken : "\\x".toList ++ "a".toList = front ++ "a".toList := hfront
  obtain rfl : "\\x".toList = front := List.append_cancel_right htaken
  exact absurd (hc (by decide)) (by decide)

end RegexText
