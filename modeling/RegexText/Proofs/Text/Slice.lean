import RegexText.Text.Slice

/-!
# Slices between places

A signed position names a place in a text: negative positions count from the end, and what lies
outside is moved to the nearer end (`place`). A signed slice holds the characters between the places
of its two positions, and none if they are the wrong way round (`sliceSigned_eq_slice`). The two
parts of a text that is cut at a position are the text when they are put together
(`sliceSigned_append`).

`sliceInWords?` takes the same steps in signed words of 64 bits. It has no result where a sum does
not fit in a word, where a number is clamped between bounds that are the wrong way round, or where
a negative number is taken for a count. Of a text whose length fits in a word, as that of a text in
memory does, it gives the slice (`sliceInWords?_eq`), so none of this ever happens.

The main statement is `sliceSigned_places`.
-/

namespace RegexText.Text

variable {t : Text} {start i lo hi : Int} {stop : Option Int}

/-! ## Slices in words -/

/-- The least number above all signed words of 64 bits. -/
def wordLimit : Int := 9223372036854775808

/-- The number fits in a signed word of 64 bits. -/
def InWord (i : Int) : Prop := -wordLimit ≤ i ∧ i < wordLimit

instance (i : Int) : Decidable (InWord i) := inferInstanceAs (Decidable (_ ∧ _))

/-- The number as a signed word, unless it does not fit. -/
def word? (i : Int) : Option Int := if InWord i then some i else none

/-- The number moved to the nearer of two bounds if it lies outside them, unless the bounds are the
wrong way round. -/
def clamp? (lo hi i : Int) : Option Int := if lo ≤ hi then some (min (max i lo) hi) else none

/-- Where position `i` lies in a text of `n` characters, worked out in words. -/
def resolveInWords? (n i : Int) : Option Int := if i < 0 then word? (n + i) else some i

/-- The slice by signed positions, worked out in words. -/
def sliceInWords? (t : Text) (start : Int) (stop : Option Int) : Option Text := do
  let n ← word? t.length
  let first ← resolveInWords? n start
  if n < first then some []
  else
    let first := max first 0
    let last ← stop.elim (some n) (resolveInWords? n)
    let last ← clamp? first n last
    let count ← word? (last - first)
    some ((t.drop (← first.toNat?)).take (← count.toNat?))

theorem word?_eq (h : InWord i) : word? i = some i := if_pos h

theorem clamp?_eq (h : lo ≤ hi) : clamp? lo hi i = some (min (max i lo) hi) := if_pos h

theorem toNat?_eq (h : 0 ≤ i) : i.toNat? = some i.toNat :=
  Int.mem_toNat?.mpr (Int.toNat_of_nonneg h).symm

/-- The sum of a length and a negative word is a word. -/
theorem resolveInWords?_eq {n : Nat} (hn : InWord n) (hi : InWord i) :
    resolveInWords? n i = some (resolve n i) := by
  unfold resolveInWords? resolve
  split
  · refine word?_eq ?_
    simp only [InWord, wordLimit] at hn hi ⊢
    omega
  · rfl

/-- In words the slice is the same. -/
theorem sliceInWords?_eq (ht : InWord t.length) (hstart : InWord start)
    (hstop : ∀ i ∈ stop, InWord i) : t.sliceInWords? start stop = some (t.sliceSigned start stop) := by
  have hlast : stop.elim (some (t.length : Int)) (resolveInWords? t.length) =
      some ((stop.map (resolve t.length)).getD t.length) := by
    cases stop with
    | none => rfl
    | some i => exact resolveInWords?_eq ht (hstop i rfl)
  simp only [sliceInWords?, sliceSigned, word?_eq ht, resolveInWords?_eq ht hstart, hlast,
    Option.bind_eq_bind, Option.bind_some]
  generalize resolve t.length start = first
  generalize (stop.map (resolve t.length)).getD (t.length : Int) = last
  split
  · rfl
  · have hfirst : max first 0 ≤ t.length := by omega
    have hcount : InWord (min (max last (max first 0)) t.length - max first 0) := by
      simp only [InWord, wordLimit] at ht ⊢
      omega
    rw [clamp?_eq hfirst, Option.bind_some, word?_eq hcount, Option.bind_some,
      toNat?_eq (by omega), Option.bind_some, toNat?_eq (by omega), Option.bind_some]

/-! ## Places -/

/-- The place that position `i` names in a text of `n` characters. -/
def place (n : Nat) (i : Int) : Nat := (max 0 (min (if i < 0 then i + n else i) n)).toNat

theorem place_le (n : Nat) (i : Int) : place n i ≤ n := by
  unfold place
  omega

theorem place_zero (n : Nat) : place n 0 = 0 := by
  unfold place
  omega

theorem place_eq (n : Nat) (i : Int) : (place n i : Int) = max 0 (min (resolve n i) n) := by
  unfold place resolve
  omega

/-- A slice holds the characters from the place of its start up to the place of its end. -/
theorem sliceSigned_eq_slice (t : Text) (start : Int) (stop : Option Int) :
    t.sliceSigned start stop =
      t.slice (place t.length start)
        (max (place t.length start) (stop.elim t.length (place t.length))) := by
  have hfirst := place_eq t.length start
  have hlast : ((stop.elim t.length (place t.length) : Nat) : Int) =
      max 0 (min ((stop.map (resolve t.length)).getD t.length) t.length) := by
    cases stop with
    | none =>
      rw [Option.elim_none, Option.map_none, Option.getD_none]
      omega
    | some i => exact place_eq t.length i
  unfold sliceSigned slice
  generalize resolve t.length start = first at hfirst ⊢
  generalize (stop.map (resolve t.length)).getD (t.length : Int) = last at hlast ⊢
  dsimp only
  split
  · rw [List.drop_eq_nil_of_le (by omega), List.take_nil]
  · congr 1
    · omega
    · congr 1
      omega

/-- The parts before and after a position make up the text. -/
theorem sliceSigned_append (t : Text) (k : Int) :
    t.sliceSigned 0 (some k) ++ t.sliceSigned k none = t := by
  have hk := place_le t.length k
  rw [sliceSigned_eq_slice, sliceSigned_eq_slice, place_zero, Nat.zero_max]
  show t.slice 0 (place t.length k) ++ t.slice (place t.length k) (max _ t.length) = t
  rw [Nat.max_eq_right hk, slice_append_slice t (Nat.zero_le _) hk, slice, List.drop_zero,
    Nat.sub_zero, List.take_length]

/-- A signed slice is worked out without overflow and without bounds that are the wrong way round,
for all positions that are words and every text whose length is one. It holds the characters between
the places of its positions, and cutting a text at a position loses nothing. -/
theorem sliceSigned_places (t : Text) :
    (∀ start stop, InWord t.length → InWord start → (∀ i ∈ stop, InWord i) →
        t.sliceInWords? start stop = some (t.sliceSigned start stop)) ∧
      (∀ start stop,
        let a := place t.length start
        let b := stop.elim t.length (place t.length)
        t.sliceSigned start stop = t.slice a (max a b)) ∧
      ∀ k, t.sliceSigned 0 (some k) ++ t.sliceSigned k none = t :=
  ⟨fun _ _ => sliceInWords?_eq, sliceSigned_eq_slice t, sliceSigned_append t⟩

/-- The least word names the start of a text, and the greatest one its end. -/
theorem sliceSigned_places_extremes :
    InWord (['ñ', '€'] : Text).length ∧ InWord (-9223372036854775808) ∧
      InWord 9223372036854775807 ∧
      sliceInWords? ['ñ', '€'] (-9223372036854775808) (some 9223372036854775807) =
        some ['ñ', '€'] := by
  have hlength : InWord (['ñ', '€'] : Text).length := by decide +kernel
  have hleast : InWord (-9223372036854775808) := by decide +kernel
  have hgreatest : InWord 9223372036854775807 := by decide +kernel
  have hslice := (sliceSigned_places ['ñ', '€']).1 _ (some 9223372036854775807) hlength hleast
    fun i hi => Option.some.inj hi ▸ hgreatest
  exact ⟨hlength, hleast, hgreatest, hslice⟩

end RegexText.Text
