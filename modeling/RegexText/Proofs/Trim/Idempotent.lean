import RegexText.Proofs.Pattern.Occurrences
import RegexText.Proofs.Text.Trimming
import RegexText.Proofs.Trim.Head
import RegexText.Proofs.Trim.Reading
import RegexText.Proofs.Trim.Tail

/-!
# Trimming twice

Trimming a trimmed text changes nothing (`trimRuns_trimRuns`), unless the pattern sees more than the
characters that it takes off.

* Without a pattern, and with the empty one, that is a fact about dropping characters.
* A pattern that can be read by itself has the runs of its expression
  (`EdgeRuns.compile_eq_around`), and one that is taken as plain text has those of its characters
  (`EdgeRuns.literal_eq_around`). The runs of an expression that reads nothing, or has no assertions,
  leave nothing to remove (`EdgeRuns.remove_remove`).

An assertion can come to hold when the end of the text moves, and so a second trimming can take off
what the first has left (`not_forall_trimRuns_trimRuns`). The other exception is a pattern that
closes the group it is put into and opens another. It cannot be read by itself, but in the two runs
it can, and there it writes something else.
-/

namespace RegexText

namespace Regex

/-- What reads nothing erases nothing. -/
theorem erase_of_readsNothing {e : Expr} (h : e.readsNothing) (t : Text) :
    (ofExpr e).erase t = t := by
  refine erase_of_empty fun i c hc => ?_
  obtain ⟨word, after, -, hwhole, hmatches⟩ := matches_of_matchAt? (find?_eq_some hc).1
  rw [hwhole, hmatches.eq_nil h]
  rfl

end Regex

/-! ## The runs of a pattern -/

namespace EdgeRuns

open Regex (Expr ofExpr)

/-- What is left when the runs of an expression have been removed has none, if the expression reads
nothing or has no assertions. -/
theorem remove_remove {e : Expr} (h : e.readsNothing ∨ e.hasAssertion = false) (t : Text) :
    (around e).remove ((around e).remove t) = (around e).remove t := by
  cases hreads : e.readsNothing with
  | true =>
    have hself (t : Text) : (around e).remove t = t := by
      have hrun : e.repeated true ⟨1, none⟩ = e := by rw [e.repeated_run, if_pos hreads]
      rw [remove_eq, around, hrun, Regex.erase_of_readsNothing, Regex.erase_of_readsNothing]
      · exact hreads
      · exact (Bool.and_true _).trans hreads
    rw [hself, hself]
  | false =>
    have he : e.hasAssertion = false := h.resolve_left (by simp [hreads])
    have hrun : e.repeated true ⟨1, none⟩ = e.plus true := by
      rw [e.repeated_run, hreads]
      rfl
    obtain ⟨m, hhead⟩ := Expr.exists_headRun he
    have hfront := (e.plus true).erase_textEnd_front
      ((ofExpr (.seq (.assert .textStart) (e.plus true))).erase t)
    rw [remove_eq, remove_eq, around, hrun, hhead.erase_of_prefix he hfront,
      Expr.erase_run_erase_run he]

end EdgeRuns

/-! ## Trimming -/

/-- The runs of a trim pattern are those of the expression that it writes by itself, or of its
characters if it is taken as plain text. -/
theorem EdgeRuns.exists_ofPattern_eq (p : Text)
    (h : ∀ runs, EdgeRuns.compile (escapeOperators p) = .ok runs →
      ∃ e, Regex.parse {} (escapeOperators p) = .ok e ∧ (e.readsNothing ∨ e.hasAssertion = false)) :
    ∃ e, EdgeRuns.ofPattern p = .around e ∧ (e.readsNothing ∨ e.hasAssertion = false) := by
  unfold ofPattern
  split
  · rename_i runs hruns
    obtain ⟨e, hparse, he⟩ := h runs hruns
    have haround := compile_eq_around (noQuestion_escapeOperators p) hparse
    exact ⟨e, Except.ok.inj (hruns.symm.trans haround), he⟩
  · exact ⟨.literal p, literal_eq_around p, .inr (Regex.Expr.hasAssertion_literal p)⟩

/-- Trimming a trimmed text changes nothing, where a pattern that is not taken as plain text can be
read by itself and, unless it reads nothing at all, has no assertions. -/
theorem trimRuns_trimRuns (t : Text) (pattern : Option Text)
    (h : ∀ p ∈ pattern, ∀ runs, EdgeRuns.compile (escapeOperators p) = .ok runs →
      ∃ e, Regex.parse {} (escapeOperators p) = .ok e ∧ (e.readsNothing ∨ e.hasAssertion = false)) :
    trimRuns (trimRuns t pattern) pattern = trimRuns t pattern := by
  match pattern with
  | none => exact Text.trimBoth_trimBoth _ t
  | some [] => rfl
  | some (c :: cs) =>
    obtain ⟨e, hruns, he⟩ := EdgeRuns.exists_ofPattern_eq (c :: cs) (h (c :: cs) rfl)
    show ((EdgeRuns.ofPattern (c :: cs)).remove ((EdgeRuns.ofPattern (c :: cs)).remove t)) = _
    rw [hruns, EdgeRuns.remove_remove he, ← hruns]
    rfl

theorem trimRuns_trimRuns_alternatives :
    trimRuns (trimRuns " abxab  ".toList (some "\\s|ab".toList)) (some "\\s|ab".toList) =
      trimRuns " abxab  ".toList (some "\\s|ab".toList) := by
  refine trimRuns_trimRuns _ _ fun p hp runs _ => ?_
  cases hp
  exact ⟨.alt (.chars .space) (.literal "ab".toList), rfl, .inr rfl⟩

/-- At the end of `xaa` the pattern takes off one `a`, and then the other stands at the end. -/
theorem not_forall_trimRuns_trimRuns :
    ¬ ∀ (t : Text) (pattern : Option Text),
      trimRuns (trimRuns t pattern) pattern = trimRuns t pattern := by
  intro h
  exact absurd (h "xaa".toList (some "a\\z".toList)) (by decide)

end RegexText
