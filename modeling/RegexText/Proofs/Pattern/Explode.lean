import RegexText.Proofs.Pattern.Successive

/-!
# Splitting at matches is one segmentation

`Pattern.explode` moves an index through the text, and what it leaves behind the index depends on
the policy: past the separator, or on it if the separator is to start the next token. The tokens
are nevertheless those of one segmentation, the text cut at its successive matches, which each
policy reads in its own way (`Segmentation.exploded`). For every policy one invariant of the moving
index carries the proof: which tokens the cutting so far and the pieces that are left make together
(`finish_foldl_drop`, `finish_foldl_alone`, `finish_foldl_withNext`, `finish_foldl_withPrevious`).

The main statement is `explode_segmentation`.
-/

namespace RegexText

/-! ## What the policies read off a segmentation -/

namespace Segmentation

/-- The gaps that hold text, each with the separators after it up to the next of them, where `gap`
and the separators `seps` after it have been read. -/
def runsFrom (gap : Text) (seps : List Match) : List (Match × Text) → List (Text × List Match)
  | [] => [(gap, seps)]
  | (m, next) :: tail =>
    if next.isEmpty then runsFrom gap (seps ++ [m]) tail
    else (gap, seps ++ [m]) :: runsFrom next [] tail

/-- The gaps that hold text, each with the separators after it up to the next of them. Separators
before the first of them come after an empty gap. -/
def runs (g : Segmentation) : List (Text × List Match) := runsFrom g.head [] g.tail

/-- The run of `gap` and `seps` and those after it, where a segmentation comes next. -/
def runsAfter (gap : Text) (seps : List Match) (g : Segmentation) : List (Text × List Match) :=
  if g.head.isEmpty then runsFrom gap seps g.tail else (gap, seps) :: g.runs

/-- A gap and the separators after it, each trimmed, as one token. -/
def runToken (trim : TrimSet) (run : Text × List Match) : Text :=
  trim.trim run.1 ++ run.2.flatMap fun m => trim.trim m.text

/-- The tokens that the gaps and the separators make. -/
def exploded (policy : SeparatorPolicy) (trim : TrimSet) (g : Segmentation) : List Text :=
  match policy with
  | .drop => g.pieces.map trim.trim
  | .alone =>
    trim.trim g.head :: g.tail.flatMap fun (m, gap) => [trim.trim m.text, trim.trim gap]
  | .withNext => trim.trim g.head :: g.tail.map fun (m, gap) => trim.trim (m.text ++ gap)
  | .withPrevious => g.runs.map (runToken trim)

theorem runToken_nil (trim : TrimSet) (gap : Text) : runToken trim (gap, []) = trim.trim gap :=
  List.append_nil _

theorem runToken_concat (trim : TrimSet) (gap : Text) (seps : List Match) (m : Match) :
    runToken trim (gap, seps ++ [m]) = runToken trim (gap, seps) ++ trim.trim m.text := by
  simp only [runToken, List.flatMap_append, List.flatMap_singleton, List.append_assoc]

theorem runsAfter_of_nil {g : Segmentation} (h : g.head = []) (gap : Text) (seps : List Match) :
    runsAfter gap seps g = runsFrom gap seps g.tail := by
  rw [runsAfter, h, List.isEmpty_nil, if_pos rfl]

theorem runsAfter_of_ne_nil {g : Segmentation} (h : g.head ≠ []) (gap : Text) (seps : List Match) :
    runsAfter gap seps g = (gap, seps) :: g.runs :=
  if_neg fun he => h (List.isEmpty_iff.mp he)

end Segmentation

namespace Cutting

open Segmentation

variable {trim : TrimSet} {t : Text} {ms : List Match}

/-- The text between the index and `stop` becomes a token, which is left out in the end if it is
empty. -/
theorem filter_pushUpTo (trim : TrimSet) (t : Text) (stop : Nat) (c : Cutting) (later : List Text) :
    ((c.pushUpTo trim t stop).tokens.reverse ++ later).filter (!·.isEmpty) =
      (c.tokens.reverse ++ trim.trim (t.slice c.index stop) :: later).filter (!·.isEmpty) := by
  unfold pushUpTo
  split
  · rename_i h
    rw [h, Text.slice_self, List.filter_append, List.filter_append]
    rfl
  · rw [push, List.reverse_cons, List.append_assoc]
    rfl

/-- So does what is left of the text in the end. -/
theorem finish_eq (trim : TrimSet) (t : Text) (c : Cutting) :
    c.finish trim t = (c.tokens.reverse ++ [trim.trim (t.drop c.index)]).filter (!·.isEmpty) := by
  unfold finish
  split
  · exact congrArg (List.filter _) List.reverse_cons
  · rename_i h
    rw [List.drop_eq_nil_of_le (Nat.le_of_not_lt h), List.filter_append]
    exact (List.append_nil _).symm

/-- Dropped separators leave the pieces. -/
theorem finish_foldl_drop (trim : TrimSet) (t : Text) (ms : List Match) (c : Cutting) :
    ((ms.map Match.span).foldl (cut .drop trim t) c).finish trim t =
      (c.tokens.reverse ++ (ofMatches t c.index ms).pieces.map trim.trim).filter (!·.isEmpty) := by
  induction ms generalizing c with
  | nil => exact finish_eq trim t c
  | cons m ms ih =>
    rw [List.map_cons, List.foldl_cons, ih]
    exact filter_pushUpTo trim t m.index c _

/-- Separators that are tokens of their own stand between the pieces. -/
theorem finish_foldl_alone {c : Cutting} (h : Laid t c.index ms) :
    ((ms.map Match.span).foldl (cut .alone trim t) c).finish trim t =
      (c.tokens.reverse ++ (ofMatches t c.index ms).exploded .alone trim).filter (!·.isEmpty) := by
  induction ms generalizing c with
  | nil => exact finish_eq trim t c
  | cons m ms ih =>
    obtain ⟨hm, hlater⟩ := h
    rw [List.map_cons, List.foldl_cons, ih (c := cut .alone trim t c m.span) hlater, cut, push,
      hm.span_text, List.reverse_cons, List.append_assoc]
    exact filter_pushUpTo trim t m.index c _

/-- The index stays on a separator that starts the next token: what comes after index `i` is then
cut, and the text from the index up to `i` comes in front of it. -/
theorem finish_foldl_withNext (trim : TrimSet) {c : Cutting} {i : Nat} (hi : c.index ≤ i)
    (h : Laid t i ms) :
    ((ms.map Match.span).foldl (cut .withNext trim t) c).finish trim t =
      (c.tokens.reverse ++ (Segmentation.mk (t.slice c.index i ++ (ofMatches t i ms).head)
        (ofMatches t i ms).tail).exploded .withNext trim).filter (!·.isEmpty) := by
  induction ms generalizing c i with
  | nil =>
    rw [ofMatches, Text.slice_append_drop t hi]
    exact finish_eq trim t c
  | cons m ms ih =>
    obtain ⟨hm, hlater⟩ := h
    rw [List.map_cons, List.foldl_cons,
      ih (c := cut .withNext trim t c m.span) (i := m.stop) hm.index_le hlater]
    simp only [ofMatches, Text.slice_append_slice t hi hm.lo_le]
    have htext : t.slice (cut .withNext trim t c m.span).index m.stop = m.text := hm.text_eq.symm
    rw [htext]
    exact filter_pushUpTo trim t m.index c _

/-! ## Separators that end the token before them -/

theorem tokens_append {c : Cutting} {latest : Text} {earlier : List Text}
    (hc : c.tokens = latest :: earlier) (u : Text) :
    (c.append trim u).tokens = (latest ++ trim.trim u) :: earlier := by
  unfold append
  split
  · rename_i hnil
    rw [hnil] at hc
    cases hc
  · rename_i hcons
    rw [hcons, List.cons.injEq] at hc
    rw [hc.1, hc.2]

/-- The tokens after a separator that has no text before it. -/
theorem tokens_cut_of_eq {c : Cutting} {m : Match} {i : Nat} (hm : m.Placed t i)
    (hgap : c.index = m.index) :
    (cut .withPrevious trim t c m.span).tokens = (c.append trim m.text).tokens := by
  have hpush : c.pushUpTo trim t m.index = c := if_pos hgap
  show ((c.pushUpTo trim t m.index).append trim (m.span.text t)).tokens = _
  rw [hpush, hm.span_text]

/-- The tokens after a separator that has text before it. -/
theorem tokens_cut_of_ne {c : Cutting} {m : Match} {i : Nat} (hm : m.Placed t i)
    (hgap : c.index ≠ m.index) :
    (cut .withPrevious trim t c m.span).tokens =
      runToken trim (t.slice c.index m.index, [m]) :: c.tokens := by
  have hpush : c.pushUpTo trim t m.index = c.push trim (t.slice c.index m.index) := if_neg hgap
  show ((c.pushUpTo trim t m.index).append trim (m.span.text t)).tokens = _
  rw [hpush, hm.span_text, tokens_append rfl]
  simp only [runToken, List.flatMap_singleton]

theorem slice_ne_nil {i j : Nat} (hij : i < j) (hj : j ≤ t.length) : t.slice i j ≠ [] := by
  rw [← List.length_pos_iff, Text.length_slice t hj]
  omega

/-- A separator goes to the latest token, and a gap that holds text starts a new one. Of a cutting
whose latest token is made of a gap and the separators after it, the pieces that are left continue
that run or start the next. -/
theorem finish_foldl_withPrevious {c : Cutting} {gap : Text} {seps : List Match}
    {earlier : List Text} (hc : c.tokens = runToken trim (gap, seps) :: earlier)
    (h : Laid t c.index ms) :
    ((ms.map Match.span).foldl (cut .withPrevious trim t) c).finish trim t =
      (earlier.reverse ++ (runsAfter gap seps (ofMatches t c.index ms)).map
        (runToken trim)).filter (!·.isEmpty) := by
  induction ms generalizing c gap seps earlier with
  | nil =>
    refine (finish_eq trim t c).trans ?_
    rw [hc, List.reverse_cons, List.append_assoc]
    by_cases hrest : t.drop c.index = []
    · rw [runsAfter_of_nil hrest, hrest, TrimSet.trim_nil, ← List.append_assoc, List.filter_append]
      exact List.append_nil _
    · rw [runsAfter_of_ne_nil hrest]
      simp only [Segmentation.runs, ofMatches, runsFrom, List.map_cons, List.map_nil,
        runToken_nil]
      rfl
  | cons m ms ih =>
    obtain ⟨hm, hlater⟩ := h
    rw [List.map_cons, List.foldl_cons]
    by_cases hgap : c.index = m.index
    · -- The separator joins the run.
      have htokens : (cut .withPrevious trim t c m.span).tokens =
          runToken trim (gap, seps ++ [m]) :: earlier := by
        rw [tokens_cut_of_eq hm hgap, tokens_append hc, runToken_concat]
      have hhead : (ofMatches t c.index (m :: ms)).head = [] := by
        rw [ofMatches, hgap, Text.slice_self]
      rw [ih htokens hlater, runsAfter_of_nil hhead]
      rfl
    · -- The text before the separator starts the next run.
      have htokens : (cut .withPrevious trim t c m.span).tokens =
          runToken trim (t.slice c.index m.index, [m]) :: c.tokens := tokens_cut_of_ne hm hgap
      have hhead : (ofMatches t c.index (m :: ms)).head ≠ [] :=
        slice_ne_nil (Nat.lt_of_le_of_ne hm.lo_le hgap) (Nat.le_trans hm.index_le hm.stop_le)
      rw [ih htokens hlater, hc, List.reverse_cons, List.append_assoc, runsAfter_of_ne_nil hhead]
      rfl

/-- A separator before all text is a token of its own, which further ones join. -/
theorem finish_foldl_withPrevious_start (h : Laid t 0 ms) :
    ((ms.map Match.span).foldl (cut .withPrevious trim t) {}).finish trim t =
      ((ofMatches t 0 ms).exploded .withPrevious trim).filter (!·.isEmpty) := by
  cases ms with
  | nil =>
    refine (finish_eq trim t {}).trans ?_
    simp only [exploded, runs, ofMatches, runsFrom, List.map_cons, List.map_nil, runToken_nil]
    rfl
  | cons m ms =>
    obtain ⟨hm, hlater⟩ := h
    rw [List.map_cons, List.foldl_cons]
    have htokens : (cut .withPrevious trim t {} m.span).tokens =
        [runToken trim (t.slice 0 m.index, [m])] := by
      by_cases hgap : 0 = m.index
      · rw [tokens_cut_of_eq hm hgap, ← hgap, Text.slice_self]
        simp only [runToken, List.flatMap_singleton, TrimSet.trim_nil]
        rfl
      · exact tokens_cut_of_ne hm hgap
    rw [finish_foldl_withPrevious htokens hlater]
    rfl

end Cutting

namespace Segmentation

/-- Put together, runs are what they are made of. -/
theorem flatten_runsFrom (gap : Text) (seps : List Match) (tail : List (Match × Text)) :
    ((runsFrom gap seps tail).map (runToken {})).flatten =
      runToken {} (gap, seps) ++ tail.flatMap fun (m, piece) => m.text ++ piece := by
  induction tail generalizing gap seps with
  | nil => simp only [runsFrom, List.map_cons, List.map_nil, List.flatten_cons, List.flatten_nil,
      List.flatMap_nil]
  | cons cut tail ih =>
    obtain ⟨m, next⟩ := cut
    rw [runsFrom, List.flatMap_cons, ← List.append_assoc, ← List.append_assoc,
      ← TrimSet.trim_empty m.text, ← runToken_concat]
    split
    · rename_i hnext
      rw [ih, List.isEmpty_iff.mp hnext, List.append_nil]
    · rw [List.map_cons, List.flatten_cons, ih, runToken_nil, TrimSet.trim_empty,
        List.append_assoc]

/-- A policy other than to drop the separators keeps all of the text. -/
theorem flatten_exploded {policy : SeparatorPolicy} (hp : policy ≠ .drop) (g : Segmentation) :
    (g.exploded policy {}).flatten = g.text := by
  cases policy with
  | drop => exact absurd rfl hp
  | alone =>
    simp only [exploded, TrimSet.trim_empty, List.flatten_cons]
    rw [← List.flatMap_id, List.flatMap_assoc]
    simp only [List.flatMap_cons, List.flatMap_nil, id, List.append_nil]
    rfl
  | withNext =>
    simp only [exploded, TrimSet.trim_empty, List.flatten_cons]
    rfl
  | withPrevious =>
    rw [exploded, runs, flatten_runsFrom, runToken_nil, TrimSet.trim_empty]
    rfl

end Segmentation

namespace Pattern

/-- The tokens of a text are those of its segmentation at the successive matches. -/
theorem explode_eq_exploded (p : Pattern) (policy : SeparatorPolicy) (trim : TrimSet) (t : Text)
    (offset : Nat) :
    p.explode policy trim t offset =
      ((Segmentation.ofMatches t 0 (p.matchesFrom t offset)).exploded policy trim).filter
        (!·.isEmpty) := by
  have hlaid : Laid t 0 (p.matchesFrom t offset) :=
    (p.laid_matchesFrom t offset).mono (Nat.zero_le _)
  rw [explode, spansFrom_eq]
  cases policy with
  | drop => exact Cutting.finish_foldl_drop trim t _ {}
  | alone => exact Cutting.finish_foldl_alone hlaid
  | withPrevious => exact Cutting.finish_foldl_withPrevious_start hlaid
  | withNext =>
    have h := Cutting.finish_foldl_withNext trim (c := {}) (Nat.le_refl 0) hlaid
    rwa [Text.slice_self, List.nil_append, List.reverse_nil, List.nil_append] at h

/-- `explode` reads one segmentation of a text: the text cut at the successive matches from the
offset on, the first piece with what comes before the offset. Each policy makes of the pieces and
the separators what `Segmentation.exploded` says, up to empty tokens, and `split` gives the pieces.
Where nothing is trimmed and separators are kept, the tokens put together are the text. -/
theorem explode_segmentation (p : Pattern) (t : Text) (offset : Nat) :
    ∃ g : Segmentation, g = .ofMatches t 0 (p.matchesFrom t offset) ∧ g.text = t ∧
      Laid t (min offset t.length) g.found ∧
      (∀ policy trim,
        p.explode policy trim t offset = (g.exploded policy trim).filter (!·.isEmpty)) ∧
      (∀ trim, p.split trim t offset = (g.pieces.map trim.trim).filter (!·.isEmpty)) ∧
      ∀ policy, policy ≠ .drop → (p.explode policy {} t offset).flatten = t := by
  have hlaid := p.laid_matchesFrom t offset
  have htext := Segmentation.text_ofMatches (hlaid.mono (Nat.zero_le _))
  have hexplode policy trim := p.explode_eq_exploded policy trim t offset
  refine ⟨_, rfl, htext, ?_, hexplode, hexplode .drop, fun policy hp => ?_⟩
  · rw [Segmentation.found_ofMatches]
    exact hlaid
  · rw [hexplode, List.flatten_filter_not_isEmpty, Segmentation.flatten_exploded hp, htext]
    rfl

example : (literal [',']).explode .withPrevious {} ",a,,b".toList 0 =
    [",".toList, "a,,".toList, "b".toList] := by decide

end Pattern

end RegexText
