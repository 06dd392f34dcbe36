/-!
# Texts

A text is a list of characters, and an index into it is a number of characters: neither bytes nor
drawn symbols. Positions past the end stand for the end.
-/

namespace RegexText

/-- A text, character by character. -/
abbrev Text := List Char

namespace Text

/-- The characters of `t` from index `start` up to, and without, index `stop`. -/
def slice (t : Text) (start stop : Nat) : Text :=
  (t.drop start).take (stop - start)

/-- A slice with what comes after it. -/
theorem slice_append_drop (t : Text) {i j : Nat} (hij : i ≤ j) :
    t.slice i j ++ t.drop j = t.drop i := by
  rw [slice, ← Nat.add_sub_cancel' hij, ← List.drop_drop, Nat.add_sub_cancel_left,
    List.take_append_drop]

/-- A slice with the one that comes after it. -/
theorem slice_append_slice (t : Text) {i j k : Nat} (hij : i ≤ j) (hjk : j ≤ k) :
    t.slice i j ++ t.slice j k = t.slice i k := by
  have hlast : k - i = (j - i) + (k - j) := by omega
  rw [slice, slice, slice, hlast, List.take_add, List.drop_drop, Nat.add_sub_cancel' hij]

theorem slice_self (t : Text) (i : Nat) : t.slice i i = [] := by
  rw [slice, Nat.sub_self, List.take_zero]

theorem length_slice (t : Text) {i j : Nat} (hj : j ≤ t.length) : (t.slice i j).length = j - i := by
  rw [slice, List.length_take, List.length_drop]
  omega

/-- A slice of what is left from index `k` on. -/
theorem slice_drop (t : Text) (k i j : Nat) : slice (t.drop k) i j = t.slice (k + i) (k + j) := by
  rw [slice, slice, List.drop_drop, Nat.add_sub_add_left]

/-- A slice does not change where more text comes after it. -/
theorem slice_append (t w : Text) {i j : Nat} (hj : j ≤ t.length) :
    slice (t ++ w) i j = t.slice i j := by
  rw [slice, slice]
  rcases Nat.le_total i j with hij | hij
  · rw [List.drop_append_of_le_length (Nat.le_trans hij hj),
      List.take_append_of_le_length (by rw [List.length_drop]; omega)]
  · rw [Nat.sub_eq_zero_of_le hij, List.take_zero, List.take_zero]

/-- A slice of a part of another slice stands in that slice. -/
theorem slice_infix (t : Text) {i j k l : Nat} (hik : i ≤ k) (hlj : l ≤ j) :
    t.slice k l <:+: t.slice i j := by
  rcases Nat.le_total k l with hkl | hkl
  · refine ⟨t.slice i k, t.slice l j, ?_⟩
    rw [slice_append_slice t hik hkl, slice_append_slice t (Nat.le_trans hik hkl) hlj]
  · rw [slice, Nat.sub_eq_zero_of_le hkl, List.take_zero]
    exact List.nil_infix

/-- The character just before index `i`, if there is one. -/
def before? (t : Text) (i : Nat) : Option Char :=
  if i = 0 then none else t[i - 1]?

/-- `t` without the leading and the trailing characters that satisfy `p`. -/
def trimBoth (p : Char → Bool) (t : Text) : Text :=
  ((t.dropWhile p).reverse.dropWhile p).reverse

end Text

end RegexText
