import RegexText.Proofs.Pattern.Gathered
import RegexText.Proofs.Text.Quoted
import RegexText.Proofs.Text.Slice

/-!
# What a match is shown as

A match is shown as its two indices and its values, which can be read off again one after the other:
the indices up to the comma behind them, and the values because each tells where it ends, whatever
characters it holds (`selfDelimiting_displayValue`). An absent last index is no number and an absent
value is not quoted, so neither is taken for one that is present. Two matches that are shown as the
same are therefore the same (`Match.eq_of_display_eq`).

The last index is written as a signed word of 64 bits, where `-1` stands for none, and a number that
does not fit would be written as another one. Every match that is found in a text lies in it
(`Pattern.lastIndex_lt_of_matchWith`), so in a text whose length is a word this makes no difference
(`Match.displayInWords_eq`).

The main statement is `Match.display_injective`.
-/

namespace RegexText

namespace Match

variable {m m' : Match}

/-! ## Read off again -/

/-- The match as it is shown, with `last` for its last index. -/
def displayWith (last : Text) (m : Match) : Text :=
  "<Re.Result index: ".toList ++ Text.decimal m.index ++ ", lastIndex: ".toList ++ last ++
    ", values: [".toList ++ Text.commaSeparated (m.values.map display.displayValue) ++ "]>".toList

/-- The last index as it is shown. -/
def displayLast (last : Option Nat) : Text := (last.map Text.decimal).getD ['-', '1']

theorem display_eq (m : Match) : m.display = m.displayWith (displayLast m.lastIndex) := rfl

theorem decimal_inj {i j : Nat} (h : Text.decimal i = Text.decimal j) : i = j :=
  Text.toDigits_inj (by decide) (by decide) h

theorem not_mem_decimal {c : Char} (h : c.isDigit = false) (i : Nat) : c ∉ Text.decimal i := by
  intro hc
  rw [Nat.isDigit_of_mem_toDigits (by decide) (by decide) hc] at h
  cases h

theorem displayLast_inj {last last' : Option Nat} (h : displayLast last = displayLast last') :
    last = last' := by
  -- What is shown for none is no number.
  have hnone (i : Nat) : Text.decimal i ≠ ['-', '1'] := fun h =>
    not_mem_decimal (c := '-') rfl i (h ▸ List.mem_cons_self)
  cases last with
  | none =>
    cases last' with
    | none => rfl
    | some j => exact absurd h.symm (hnone j)
  | some i =>
    cases last' with
    | none => exact absurd h (hnone i)
    | some j => exact congrArg some (decimal_inj h)

theorem comma_not_mem_displayLast (last : Option Nat) : ',' ∉ displayLast last := by
  cases last with
  | none => decide
  | some i => exact not_mem_decimal rfl i

theorem selfDelimiting_displayValue : Text.SelfDelimiting display.displayValue := by
  intro v v' x y h
  cases v with
  | none =>
    cases v' with
    | none => exact ⟨rfl, List.append_cancel_left h⟩
    | some t => exact absurd (List.cons.inj h).1 (by decide)
  | some t =>
    cases v' with
    | none => exact absurd (List.cons.inj h).1 (by decide)
    | some u =>
      obtain ⟨rfl, hend⟩ := Text.selfDelimiting_quoted h
      exact ⟨rfl, hend⟩

theorem head?_displayValue_append (v : Option Text) (x : Text) :
    (display.displayValue v ++ x).head? ≠ some ']' := by
  cases v with
  | none => exact fun h => nomatch h
  | some t => exact fun h => nomatch h

/-- The parts of what is shown, each with the mark that ends it. -/
theorem displayWith_eq (last : Text) (m : Match) :
    m.displayWith last =
      "<Re.Result index: ".toList ++ (Text.decimal m.index ++ [','] ++
        (" lastIndex: ".toList ++ (last ++ [','] ++ (" values: [".toList ++
          (Text.commaSeparated (m.values.map display.displayValue) ++ [']'] ++ ['>']))))) := by
  have hlast : ", lastIndex: ".toList = [','] ++ " lastIndex: ".toList := by decide
  have hvalues : ", values: [".toList = [','] ++ " values: [".toList := by decide
  have hend : "]>".toList = [']'] ++ ['>'] := by decide
  unfold displayWith
  rw [hlast, hvalues, hend]
  simp only [List.append_assoc]

/-- Matches that are shown as the same are the same. -/
theorem eq_of_display_eq (h : m.display = m'.display) : m = m' := by
  have hindex :=
    Text.selfDelimiting_marked (fun _ _ => decimal_inj) (not_mem_decimal (c := ',') rfl)
  have hlast := Text.selfDelimiting_marked (fun _ _ => displayLast_inj) comma_not_mem_displayLast
  have hvalues := selfDelimiting_displayValue.listed head?_displayValue_append (by decide)
  rw [display_eq, display_eq, displayWith_eq, displayWith_eq] at h
  obtain ⟨values, index, last⟩ := m
  obtain ⟨values', index', last'⟩ := m'
  obtain ⟨rfl, h⟩ := hindex (List.append_cancel_left h)
  obtain ⟨rfl, h⟩ := hlast (List.append_cancel_left h)
  obtain ⟨rfl, -⟩ := hvalues (List.append_cancel_left h)
  rfl

/-! ## The last index in a word -/

/-- A signed number in decimal digits. -/
def signedDecimal (i : Int) : Text :=
  if i < 0 then '-' :: Text.decimal i.natAbs else Text.decimal i.natAbs

/-- The last index as a signed word of 64 bits: `-1` if it is absent, and else the number that the
last 64 of its bits write. -/
def lastInWord (m : Match) : Int :=
  match m.lastIndex with
  | none => -1
  | some last => Int.bmod last 18446744073709551616

/-- The match as it is shown where the last index is written as a signed word. -/
def displayInWords (m : Match) : Text := m.displayWith (signedDecimal m.lastInWord)

theorem displayInWords_eq (h : ∀ last ∈ m.lastIndex, Text.InWord last) :
    m.displayInWords = m.display := by
  rw [displayInWords, display_eq]
  congr 1
  unfold lastInWord
  cases hlast : m.lastIndex with
  | none => decide
  | some last =>
    have hword : Int.bmod last 18446744073709551616 = last := by
      have hfits := h last hlast
      simp only [Text.InWord, Text.wordLimit] at hfits
      exact Int.bmod_eq_of_le (by omega) (by omega)
    show signedDecimal (Int.bmod last 18446744073709551616) = Text.decimal last
    rw [hword, signedDecimal, if_neg (by omega)]
    rfl

end Match

namespace Pattern

variable {p : Pattern} {t : Text} {offset : Nat} {single : Bool} {m : Match}

/-- The last character of a match is one of the text that it is found in. -/
theorem lastIndex_lt_of_matchWith (h : p.matchWith t offset single = some m) :
    ∀ last ∈ m.lastIndex, last < t.length := by
  intro last hlast
  rw [Option.mem_def] at hlast
  unfold matchWith at h
  split at h
  · rcases Nat.lt_or_ge offset t.length with hlt | hge
    · rw [matchAll_eq p hlt] at h
      obtain ⟨first, -, rfl⟩ := Option.map_eq_some_iff.mp h
      obtain ⟨m', hm', rfl⟩ := Option.map_eq_some_iff.mp hlast
      obtain ⟨hmem, hne⟩ := List.mem_filter.mp (List.mem_of_getLast? hm')
      have hplaced := (p.laid_matchesFrom t offset).placed m' hmem
      have hpos := hplaced.index_lt_stop (by simpa using hne)
      have hle := hplaced.stop_le
      omega
    · rw [matchAll, if_pos hge] at h
      cases h
  · have hstop : m.stop = last + 1 := by rw [Match.stop, hlast]
    have hle := (matchFirst_placed h).stop_le
    omega

end Pattern

namespace Match

/-- What a match is shown as loses nothing: matches are shown as the same if and only if they are
the same, whatever their values hold. For every match found in a text whose length is a word, to
write the last index as a signed word changes nothing. -/
theorem display_injective :
    (∀ m m' : Match, m.display = m'.display ↔ m = m') ∧
      ∀ (p : Pattern) (t : Text) (offset : Nat) (single : Bool) (m : Match),
        Text.InWord t.length → p.matchWith t offset single = some m →
          m.displayInWords = m.display := by
  refine ⟨fun m m' => ⟨eq_of_display_eq, congrArg display⟩, fun p t offset single m ht hm => ?_⟩
  refine displayInWords_eq fun last hlast => ?_
  have hlt := Pattern.lastIndex_lt_of_matchWith hm last hlast
  simp only [Text.InWord, Text.wordLimit] at ht ⊢
  omega

/-- A quote mark and what follows it in the line, and then perhaps an `x`. -/
def quoteAndRest : Pattern :=
  ⟨"(\".*)(x)?".toList, {}, .ofExpr (.seq
    (.group 1 (.seq (.chars (.single '"'))
      (.repeated true ⟨0, none⟩ (.chars (.compl (.single '\n'))))))
    (.repeated true ⟨0, some 1⟩ (.group 2 (.chars (.single 'x')))))⟩

theorem compile_quoteAndRest : Pattern.compile "(\".*)(x)?".toList [] = .ok quoteAndRest := rfl

/-- A value may hold the marks that end it, and `nil` may be a value or stand for none. -/
theorem display_injective_quote :
    (⟨[none], 0, none⟩ : Match).display ≠ (⟨[some "nil".toList], 0, none⟩ : Match).display ∧
      ∃ m : Match, m = ⟨[some "\"]\u0301".toList, some "\"]\u0301".toList, none], 1, some 3⟩ ∧
        Text.InWord "é\"]\u0301".toList.length ∧
        quoteAndRest.matchWith "é\"]\u0301".toList 0 false = some m ∧
        m.displayInWords =
          ("<Re.Result index: 1, lastIndex: 3, values: [\"\\\"]\\u\x7b301\x7d\", " ++
            "\"\\\"]\\u\x7b301\x7d\", nil]>").toList := by
  have hnil : (⟨[none], 0, none⟩ : Match) ≠ ⟨[some "nil".toList], 0, none⟩ := by simp
  have hword : Text.InWord "é\"]\u0301".toList.length := by decide
  have hm : quoteAndRest.matchWith "é\"]\u0301".toList 0 false =
      some ⟨[some "\"]\u0301".toList, some "\"]\u0301".toList, none], 1, some 3⟩ := by rfl
  refine ⟨fun h => hnil ((display_injective.1 _ _).mp h), _, rfl, hword, hm, ?_⟩
  rw [display_injective.2 _ _ _ _ _ hword hm]
  decide +kernel

end Match

end RegexText
