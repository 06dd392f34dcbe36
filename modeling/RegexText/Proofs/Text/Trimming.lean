import Mathlib.Data.List.DropRight
import RegexText.TrimSet

/-!
# Trimmed texts

A text is trimmed when neither its first nor its last character is to be taken off
(`TrimSet.Trimmed`). So is what trimming leaves (`TrimSet.trimmed_trim`), and trimming a trimmed
text changes nothing (`TrimSet.Trimmed.trim_eq`). Trimmed texts put together are a trimmed text
(`TrimSet.Trimmed.append`).
-/

namespace RegexText

variable {p : Char → Bool} {t u v : Text}

theorem Text.trimBoth_eq (p : Char → Bool) (t : Text) :
    t.trimBoth p = (t.dropWhile p).rdropWhile p := rfl

theorem head?_of_prefix_dropWhile (h : v <+: t.dropWhile p) : ∀ c ∈ v.head?, p c = false := by
  cases v with
  | nil => exact fun c hc => nomatch hc
  | cons a v =>
    obtain ⟨rest, hrest⟩ := h
    have ha := List.head?_dropWhile_not p t
    rw [← hrest] at ha
    rintro c ⟨⟩
    simpa using ha

theorem dropWhile_of_head? (h : ∀ c ∈ t.head?, p c = false) : t.dropWhile p = t := by
  cases t with
  | nil => rfl
  | cons c t => exact List.dropWhile_cons_of_neg (by simp [h c rfl])

theorem rdropWhile_of_getLast? (h : ∀ c ∈ t.getLast?, p c = false) : t.rdropWhile p = t := by
  refine List.rdropWhile_eq_self_iff.mpr fun ht => ?_
  simp [h _ (List.getLast?_eq_some_getLast ht)]

theorem Text.trimBoth_trimBoth (p : Char → Bool) (t : Text) :
    (t.trimBoth p).trimBoth p = t.trimBoth p := by
  have hfront : t.trimBoth p <+: t.dropWhile p := List.rdropWhile_prefix p _
  rw [trimBoth_eq p (t.trimBoth p), dropWhile_of_head? (head?_of_prefix_dropWhile hfront),
    trimBoth_eq, List.rdropWhile_idempotent]

namespace TrimSet

variable {s : TrimSet}

/-- Neither the first nor the last character of the text is to be trimmed. -/
structure Trimmed (s : TrimSet) (t : Text) : Prop where
  first : ∀ c ∈ t.head?, s.contains c = false
  last : ∀ c ∈ t.getLast?, s.contains c = false

theorem trimmed_trim (s : TrimSet) (t : Text) : s.Trimmed (s.trim t) where
  first := head?_of_prefix_dropWhile (List.rdropWhile_prefix s.contains _)
  last c hc := by
    obtain ⟨hne, rfl⟩ := List.mem_getLast?_eq_getLast hc
    exact Bool.eq_false_iff.mpr (List.rdropWhile_last_not s.contains _ hne)

theorem Trimmed.trim_eq (h : s.Trimmed t) : s.trim t = t := by
  rw [trim, Text.trimBoth_eq, dropWhile_of_head? h.first, rdropWhile_of_getLast? h.last]

/-- Trimmed texts put together are trimmed, even where one of them is empty. -/
theorem Trimmed.append (ht : s.Trimmed t) (hu : s.Trimmed u) : s.Trimmed (t ++ u) where
  first c hc := by
    rw [List.head?_append] at hc
    rcases Option.or_eq_some_iff.mp hc with hc | ⟨-, hc⟩
    · exact ht.first c hc
    · exact hu.first c hc
  last c hc := by
    rw [List.getLast?_append] at hc
    rcases Option.or_eq_some_iff.mp hc with hc | ⟨-, hc⟩
    · exact hu.last c hc
    · exact ht.last c hc

end TrimSet

end RegexText
