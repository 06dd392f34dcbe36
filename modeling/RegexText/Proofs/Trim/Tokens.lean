import RegexText.Lexer.Tokens
import RegexText.Pattern.Split
import RegexText.Proofs.Text.Trimming

/-!
# Trimmed tokens

Every token is trimmed and holds a character, however it is made: trimmed as a whole, trimmed with
what was put in front of it, or trimmed and then lengthened by a separator that is trimmed too. All
steps keep that every token made so far is trimmed (`Cutting.forall_cut`, `Lexer.State.forall_step`),
since trimmed texts put together are trimmed. Empty tokens are left out in the end.

The main statement is `tokens_trimmed`.
-/

namespace RegexText

variable {trim : TrimSet} {t : Text} {tok : Text}

namespace Cutting

variable {c : Cutting}

theorem forall_push (h : ∀ tok ∈ c.tokens, trim.Trimmed tok) (t : Text) :
    ∀ tok ∈ (c.push trim t).tokens, trim.Trimmed tok :=
  List.forall_mem_cons.mpr ⟨trim.trimmed_trim t, h⟩

theorem forall_append (h : ∀ tok ∈ c.tokens, trim.Trimmed tok) (t : Text) :
    ∀ tok ∈ (c.append trim t).tokens, trim.Trimmed tok := by
  unfold append
  split
  · exact forall_push h t
  · rename_i latest earlier htokens
    rw [htokens] at h
    obtain ⟨hlatest, hearlier⟩ := List.forall_mem_cons.mp h
    exact List.forall_mem_cons.mpr ⟨hlatest.append (trim.trimmed_trim t), hearlier⟩

/-- A cut at a separator keeps all tokens trimmed. -/
theorem forall_cut (h : ∀ tok ∈ c.tokens, trim.Trimmed tok) (policy : SeparatorPolicy) (t : Text)
    (s : Span) : ∀ tok ∈ (c.cut policy trim t s).tokens, trim.Trimmed tok := by
  have hgap : ∀ tok ∈ (c.pushUpTo trim t s.start).tokens, trim.Trimmed tok := by
    unfold pushUpTo
    split
    · exact h
    · exact forall_push h _
  cases policy with
  | drop | withNext => exact hgap
  | alone => exact forall_push hgap _
  | withPrevious => exact forall_append hgap _

end Cutting

namespace Lexer.State

variable {o : Options} {s s' : State} {sep : Pattern}

theorem forall_push (h : ∀ tok ∈ s.tokens, o.trim.Trimmed tok) (t : Text) :
    ∀ tok ∈ (s.push o t).tokens, o.trim.Trimmed tok :=
  List.forall_mem_cons.mpr ⟨o.trim.trimmed_trim t, h⟩

theorem forall_append (h : ∀ tok ∈ s.tokens, o.trim.Trimmed tok) (t : Text) :
    ∀ tok ∈ (s.append o t).tokens, o.trim.Trimmed tok := by
  unfold append
  split
  · exact h
  · rename_i latest earlier htokens
    rw [htokens] at h
    obtain ⟨hlatest, hearlier⟩ := List.forall_mem_cons.mp h
    exact List.forall_mem_cons.mpr ⟨hlatest.append (o.trim.trimmed_trim t), hearlier⟩

/-- A step keeps all tokens trimmed. -/
theorem forall_step (h : ∀ tok ∈ s.tokens, o.trim.Trimmed tok) (hs : s.step sep o = some s') :
    ∀ tok ∈ s'.tokens, o.trim.Trimmed tok := by
  obtain ⟨move, -, rfl⟩ := Option.map_eq_some_iff.mp hs
  cases move with
  | pass y => exact h
  | resync y => exact h
  | cut m =>
    have hgap := forall_push h (s.text.take m.index)
    show ∀ tok ∈ ((s.push o (s.text.take m.index)).keep o (o.display m)).tokens, _
    unfold keep
    split
    · exact hgap
    · exact hgap
    · exact forall_push hgap _
    · exact forall_append hgap _

theorem forall_run (h : ∀ tok ∈ s.tokens, o.trim.Trimmed tok) (sep : Pattern) (steps : Nat) :
    ∀ tok ∈ (s.run sep o steps).tokens, o.trim.Trimmed tok := by
  induction steps generalizing s with
  | zero => exact h
  | succ steps ih =>
    unfold run
    split
    · exact h
    · exact ih (forall_step h ‹_›)

end Lexer.State

theorem Pattern.trimmed_of_mem_explode {p : Pattern} {policy : SeparatorPolicy} {offset : Nat}
    (h : tok ∈ p.explode policy trim t offset) : tok ≠ [] ∧ trim.Trimmed tok := by
  have hfold (spans : List Span) (c : Cutting) (h : ∀ tok ∈ c.tokens, trim.Trimmed tok) :
      ∀ tok ∈ (spans.foldl (Cutting.cut policy trim t) c).tokens, trim.Trimmed tok := by
    induction spans generalizing c with
    | nil => exact h
    | cons s spans ih => exact ih _ (Cutting.forall_cut h policy t s)
  have hcut := hfold (p.spansFrom t offset) {} fun tok htok => nomatch htok
  obtain ⟨hmem, hne⟩ := List.mem_filter.mp h
  refine ⟨by simpa using hne, ?_⟩
  split at hmem
  · exact Cutting.forall_push hcut _ tok (List.mem_reverse.mp hmem)
  · exact hcut tok (List.mem_reverse.mp hmem)

theorem Lexer.trimmed_of_mem_lex {sep : Pattern} {o : Options} {code : Text}
    (h : tok ∈ lex sep o code) : tok ≠ [] ∧ o.trim.Trimmed tok := by
  have hrun := State.forall_run (s := { text := code }) (fun tok htok => nomatch htok) sep
    (stepBound code.length) (o := o)
  obtain ⟨hmem, hne⟩ := List.mem_filter.mp h
  refine ⟨by simpa using hne, ?_⟩
  have hmem : tok ∈ (process sep o code).tokens := List.mem_reverse.mp hmem
  unfold process State.finish at hmem
  split at hmem
  · exact hrun tok hmem
  · exact State.forall_push hrun _ tok hmem

/-- Every token of a text, cut at the matches of a pattern or by the lexer, holds a character, and
neither its first nor its last is one that is trimmed: trimming it again changes nothing. -/
theorem tokens_trimmed (p : Pattern) (t : Text) :
    (∀ policy trim offset, ∀ tok ∈ p.explode policy trim t offset,
        tok ≠ [] ∧ trim.Trimmed tok ∧ trim.trim tok = tok) ∧
      (∀ trim offset, ∀ tok ∈ p.split trim t offset,
        tok ≠ [] ∧ trim.Trimmed tok ∧ trim.trim tok = tok) ∧
      ∀ o : Lexer.Options, ∀ tok ∈ Lexer.lex p o t,
        tok ≠ [] ∧ o.trim.Trimmed tok ∧ o.trim.trim tok = tok := by
  have htrim {trim : TrimSet} {tok : Text} (h : tok ≠ [] ∧ trim.Trimmed tok) :
      tok ≠ [] ∧ trim.Trimmed tok ∧ trim.trim tok = tok := ⟨h.1, h.2, h.2.trim_eq⟩
  refine ⟨fun policy trim offset tok h => ?_, fun trim offset tok h => ?_, fun o tok h => ?_⟩
  · exact htrim (Pattern.trimmed_of_mem_explode h)
  · exact htrim (Pattern.trimmed_of_mem_explode h)
  · exact htrim (Lexer.trimmed_of_mem_lex h)

/-- A gap and the separator after it are trimmed one by one, and what is kept of a separator is
trimmed with the text that it starts. -/
theorem tokens_trimmed_with_separators :
    "a;".toList ∈ (Pattern.literal " ; ".toList).explode .withPrevious ⟨[.newline], [' ']⟩
        "\n a ; b".toList 0 ∧
      "=\n b".toList ∈ Lexer.lex (.literal [';']) ⟨.withNext, ⟨[.newline], [' ']⟩, some " =\n".toList⟩
        "a; b ".toList ∧
      (⟨[.newline], [' ']⟩ : TrimSet).trim "a;".toList = "a;".toList ∧
      (⟨[.newline], [' ']⟩ : TrimSet).trim "=\n b".toList = "=\n b".toList := by
  have hexploded : "a;".toList ∈ (Pattern.literal " ; ".toList).explode .withPrevious
      ⟨[.newline], [' ']⟩ "\n a ; b".toList 0 := by decide
  have hlexed : "=\n b".toList ∈ Lexer.lex (.literal [';'])
      ⟨.withNext, ⟨[.newline], [' ']⟩, some " =\n".toList⟩ "a; b ".toList := by decide
  exact ⟨hexploded, hlexed, ((tokens_trimmed _ _).1 _ _ 0 _ hexploded).2.2,
    ((tokens_trimmed _ _).2.2 _ _ hlexed).2.2⟩

end RegexText
