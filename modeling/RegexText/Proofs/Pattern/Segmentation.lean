import Mathlib.Data.List.ModifyLast
import RegexText.Proofs.Pattern.Found

/-!
# Texts cut at matches

Matches that lie one after the other in a text (`Laid`) cut it into pieces. Cutting loses nothing:
the pieces and the texts of the matches, put together again, are the text
(`Segmentation.text_ofMatches`). Where the cutting starts earlier, only the first piece is longer
(`Segmentation.ofMatches_of_le`), and where more text comes in the end, only the last
(`Segmentation.pieces_append`).
-/

namespace RegexText

/-- A text cut at matches: what comes before the first of them, and each of them with what follows
it, up to the next. -/
structure Segmentation where
  head : Text
  tail : List (Match × Text)

namespace Segmentation

/-- `t` from index `i` on, cut at the matches. -/
def ofMatches (t : Text) (i : Nat) : List Match → Segmentation
  | [] => ⟨t.drop i, []⟩
  | m :: ms =>
    let later := ofMatches t m.stop ms
    ⟨t.slice i m.index, (m, later.head) :: later.tail⟩

/-- The text that is cut. -/
def text (g : Segmentation) : Text :=
  g.head ++ g.tail.flatMap fun (m, piece) => m.text ++ piece

/-- The pieces between the matches, before the first of them and after the last. -/
def pieces (g : Segmentation) : List Text := g.head :: g.tail.map (·.2)

/-- The matches at which the text is cut. -/
def found (g : Segmentation) : List Match := g.tail.map (·.1)

/-- The text with each match replaced by what `f` makes of it and of its number. -/
def replaced (f : Nat → Match → Text) (g : Segmentation) : Text :=
  g.head ++ (g.tail.mapIdx fun n cut => f n cut.1 ++ cut.2).flatten

end Segmentation

/-- The matches lie one after the other in `t` from index `i` on. -/
def Laid (t : Text) : (i : Nat) → List Match → Prop
  | _, [] => True
  | i, m :: ms => m.Placed t i ∧ Laid t m.stop ms

theorem Laid.mono {t : Text} {i j : Nat} {ms : List Match} (h : Laid t j ms) (hij : i ≤ j) :
    Laid t i ms := by
  cases ms with
  | nil => trivial
  | cons m ms => exact ⟨h.1.mono hij, h.2⟩

theorem Match.Placed.length_text {t : Text} {lo : Nat} {m : Match} (h : m.Placed t lo) :
    m.text.length = m.stop - m.index := by
  rw [h.text_eq, Text.length_slice t h.stop_le]

namespace Segmentation

theorem found_ofMatches (t : Text) (i : Nat) (ms : List Match) :
    (ofMatches t i ms).found = ms := by
  induction ms generalizing i with
  | nil => rfl
  | cons m ms ih => exact congrArg (m :: ·) (ih m.stop)

theorem text_cons (head : Text) (m : Match) (piece : Text) (tail : List (Match × Text)) :
    (mk head ((m, piece) :: tail)).text = head ++ (m.text ++ (mk piece tail).text) := by
  simp only [text, List.flatMap_cons, List.append_assoc]

/-- Cutting a text at matches that lie one after the other loses nothing. -/
theorem text_ofMatches {t : Text} {i : Nat} {ms : List Match} (h : Laid t i ms) :
    (ofMatches t i ms).text = t.drop i := by
  induction ms generalizing i with
  | nil => exact List.append_nil _
  | cons m ms ih =>
    obtain ⟨hm, hms⟩ := h
    rw [ofMatches, text_cons, ih hms, hm.text_eq, Text.slice_append_drop t hm.index_le,
      Text.slice_append_drop t hm.lo_le]

theorem replaced_cons (f : Nat → Match → Text) (head : Text) (m : Match) (piece : Text)
    (tail : List (Match × Text)) :
    (mk head ((m, piece) :: tail)).replaced f =
      head ++ (f 0 m ++ (mk piece tail).replaced fun n => f (n + 1)) := by
  simp only [replaced, List.mapIdx_cons, List.flatten_cons, List.append_assoc]

/-- Replaced by their own texts, the matches leave the text as it was. -/
theorem replaced_text (g : Segmentation) : (g.replaced fun _ m => m.text) = g.text := by
  obtain ⟨head, tail⟩ := g
  induction tail generalizing head with
  | nil => rfl
  | cons cut tail ih => rw [replaced_cons, text_cons, ih]

/-- Cut from an earlier index on, a text has a longer first piece. -/
theorem ofMatches_of_le {t : Text} {i j : Nat} {ms : List Match} (h : Laid t j ms) (hij : i ≤ j) :
    ofMatches t i ms =
      ⟨t.slice i j ++ (ofMatches t j ms).head, (ofMatches t j ms).tail⟩ := by
  cases ms with
  | nil => rw [ofMatches, ofMatches, Text.slice_append_drop t hij]
  | cons m ms => rw [ofMatches, ofMatches, Text.slice_append_slice t hij h.1.lo_le]

theorem replaced_ofMatches_of_le {t : Text} {i j : Nat} {ms : List Match} (h : Laid t j ms)
    (hij : i ≤ j) (f : Nat → Match → Text) :
    (ofMatches t i ms).replaced f = t.slice i j ++ (ofMatches t j ms).replaced f := by
  rw [ofMatches_of_le h hij]
  exact List.append_assoc ..

/-- With more text in the end a text has a longer last piece. -/
theorem pieces_append {t : Text} {i : Nat} {ms : List Match} (h : Laid t i ms)
    (hi : i ≤ t.length) (w : Text) :
    (ofMatches (t ++ w) i ms).pieces = (ofMatches t i ms).pieces.modifyLast (· ++ w) := by
  induction ms generalizing i with
  | nil =>
    show [(t ++ w).drop i] = [t.drop i].modifyLast (· ++ w)
    rw [List.drop_append_of_le_length hi]
    rfl
  | cons m ms ih =>
    obtain ⟨hm, hms⟩ := h
    have hne : (ofMatches t m.stop ms).pieces ≠ [] := List.cons_ne_nil _ _
    show (t ++ w).slice i m.index :: (ofMatches (t ++ w) m.stop ms).pieces =
      ([t.slice i m.index] ++ (ofMatches t m.stop ms).pieces).modifyLast (· ++ w)
    rw [List.modifyLast_append_of_right_ne_nil _ _ _ hne, ← ih hms hm.stop_le,
      Text.slice_append t w (Nat.le_trans hm.index_le hm.stop_le)]
    rfl

end Segmentation

end RegexText
