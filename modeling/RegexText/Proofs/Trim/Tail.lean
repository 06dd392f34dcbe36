import RegexText.Proofs.Trim.Erase

/-!
# The run at the end of a text

The run of an expression at the end of a text is the longest row of it there, and two such rows side
by side are one, if the expression has no assertions. So what is left of a text without the run at
its end does not end in a run (`Expr.erase_run_erase_run`).
-/

namespace RegexText.Regex

variable {e : Expr} {t : Text}

theorem Expr.erase_textEnd_front (e : Expr) (t : Text) :
    (ofExpr (seq e (assert .textEnd))).erase t <+: t := by
  obtain ⟨back, ht, -⟩ := exists_back e t
  exact ⟨back, ht.symm⟩

/-- What is left of a text without the run at its end does not end in a run. -/
theorem Expr.erase_run_erase_run (he : e.hasAssertion = false) (t : Text) :
    (ofExpr (seq (plus true e) (assert .textEnd))).erase
        ((ofExpr (seq (plus true e) (assert .textEnd))).erase t) =
      (ofExpr (seq (plus true e) (assert .textEnd))).erase t := by
  obtain ⟨back, ht, hback, hlongest⟩ := exists_back (plus true e) t
  obtain ⟨again, hleft, hagain, -⟩ :=
    exists_back (plus true e) ((ofExpr (seq (plus true e) (assert .textEnd))).erase t)
  generalize (ofExpr (seq (plus true e) (assert .textEnd))).erase t = left at *
  generalize (ofExpr (seq (plus true e) (assert .textEnd))).erase left = last at *
  subst hleft
  by_cases hne : again = []
  · rw [hne, List.append_nil]
  · -- the two rows side by side are one that is longer than the longest
    have hboth : (plus true e).Matches (Text.lastOf none last) (again ++ back) [] := by
      by_cases hnil : back = []
      · rw [hnil, List.append_nil]
        exact hagain hne
      · exact (hagain hne).append_run (hback hnil) he
    have hle := hlongest last (again ++ back) (by rw [ht, List.append_assoc]) hboth
    have hpos := List.length_pos_iff.mpr hne
    rw [List.length_append] at hle
    omega

end RegexText.Regex
