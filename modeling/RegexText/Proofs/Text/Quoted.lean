import RegexText.Text.Quoted

/-!
# Writings that tell where they end

A writing is self-delimiting if a text begins with what it writes of one value at most, so that the
value can be read off the text, and with it what comes after (`SelfDelimiting`). Such is any
writing with an end mark that it does not use itself (`selfDelimiting_marked`), and so are rows of
self-delimiting writings up to an end mark that none of them begins with, without anything between
them (`SelfDelimiting.row`) or with commas (`SelfDelimiting.listed`).

A character is escaped in one of three ways, which the first two characters tell apart
(`escapes_escapeChar`). Escaped characters are therefore self-delimiting
(`selfDelimiting_escapeChar`), and quoted texts, which are rows of them, are too
(`selfDelimiting_quoted`).
-/

namespace RegexText.Text

variable {α : Type} {f : α → Text} {mark : Char}

/-- What `f` writes tells where it ends. -/
def SelfDelimiting (f : α → Text) : Prop :=
  ∀ ⦃a b : α⦄ ⦃x y : Text⦄, f a ++ x = f b ++ y → a = b ∧ x = y

/-- An end mark that is not used before it shows where a writing ends. -/
theorem selfDelimiting_marked (hf : ∀ a b, f a = f b → a = b) (hmark : ∀ a, mark ∉ f a) :
    SelfDelimiting fun a => f a ++ [mark] := by
  intro a b x y h
  have hbefore (a : α) (x : Text) : (f a ++ [mark] ++ x).takeWhile (· != mark) = f a := by
    have hne : ∀ c ∈ f a, (c != mark) = true := fun c hc =>
      bne_iff_ne.mpr fun he => hmark a (he ▸ hc)
    rw [List.append_assoc, List.takeWhile_append_of_pos hne, List.singleton_append,
      List.takeWhile_cons_of_neg (by simp), List.append_nil]
  have hab : f a = f b := by rw [← hbefore a x, ← hbefore b y, h]
  refine ⟨hf a b hab, ?_⟩
  dsimp only at h
  rw [hab] at h
  exact List.append_cancel_left h

/-- An end mark that no entry begins with shows where a row ends. -/
theorem SelfDelimiting.row (hf : SelfDelimiting f) (hmark : ∀ a x, (f a ++ x).head? ≠ some mark) :
    SelfDelimiting fun as : List α => as.flatMap f ++ [mark] := by
  intro as bs x y h
  simp only [List.append_assoc, List.singleton_append] at h
  induction as generalizing bs with
  | nil =>
    cases bs with
    | nil => exact ⟨rfl, (List.cons.inj h).2⟩
    | cons b bs =>
      rw [List.flatMap_cons, List.append_assoc] at h
      exact absurd (congrArg List.head? h).symm (hmark b _)
  | cons a as ih =>
    rw [List.flatMap_cons, List.append_assoc] at h
    cases bs with
    | nil => exact absurd (congrArg List.head? h) (hmark a _)
    | cons b bs =>
      rw [List.flatMap_cons, List.append_assoc] at h
      obtain ⟨rfl, hlater⟩ := hf h
      obtain ⟨rfl, hend⟩ := ih hlater
      exact ⟨rfl, hend⟩

theorem commaSeparated_cons (t : Text) (ts : List Text) :
    commaSeparated (t :: ts) = t ++ ts.flatMap ([',', ' '] ++ ·) := by
  induction ts generalizing t with
  | nil =>
    rw [commaSeparated, List.intercalate_singleton, List.flatMap_nil, List.append_nil]
  | cons u ts ih =>
    have hlater : commaSeparated (t :: u :: ts) = t ++ [',', ' '] ++ commaSeparated (u :: ts) :=
      List.intercalate_cons_cons
    rw [hlater, ih, List.flatMap_cons, List.append_assoc, List.append_assoc]

/-- Commas between its entries do not make a row harder to read. -/
theorem SelfDelimiting.listed (hf : SelfDelimiting f)
    (hmark : ∀ a x, (f a ++ x).head? ≠ some mark) (hcomma : ',' ≠ mark) :
    SelfDelimiting fun as : List α => commaSeparated (as.map f) ++ [mark] := by
  have hlater : SelfDelimiting fun as : List α => as.flatMap ([',', ' '] ++ f ·) ++ [mark] := by
    refine SelfDelimiting.row (fun a b x y h => ?_) fun a x h => hcomma (Option.some.inj h)
    rw [List.append_assoc, List.append_assoc] at h
    exact hf (List.append_cancel_left h)
  have hcons (a : α) (as : List α) (x : Text) :
      commaSeparated ((a :: as).map f) ++ [mark] ++ x =
        f a ++ (as.flatMap ([',', ' '] ++ f ·) ++ [mark] ++ x) := by
    rw [List.map_cons, commaSeparated_cons, List.flatMap_map]
    simp only [List.append_assoc]
  intro as bs x y h
  dsimp only at h
  cases as with
  | nil =>
    cases bs with
    | nil => exact ⟨rfl, List.append_cancel_left h⟩
    | cons b bs =>
      rw [hcons] at h
      exact absurd (congrArg List.head? h).symm (hmark b _)
  | cons a as =>
    rw [hcons] at h
    cases bs with
    | nil => exact absurd (congrArg List.head? h) (hmark a _)
    | cons b bs =>
      rw [hcons] at h
      obtain ⟨rfl, hrest⟩ := hf h
      obtain ⟨rfl, hend⟩ := hlater hrest
      exact ⟨rfl, hend⟩

/-! ## Digits -/

theorem exists_of_mem_toDigits {base n : Nat} (hbase : 1 < base) {c : Char}
    (h : c ∈ Nat.toDigits base n) : ∃ d, c = Nat.digitChar d := by
  induction n using Nat.base_induction base hbase with
  | single m hm =>
    rw [Nat.toDigits_of_lt_base hm] at h
    exact ⟨m, List.mem_singleton.mp h⟩
  | digit m k hk hm ih =>
    rw [← Nat.toDigits_append_toDigits hbase hm hk, Nat.toDigits_of_lt_base hk] at h
    rcases List.mem_append.mp h with h | h
    · exact ih h
    · exact ⟨k, List.mem_singleton.mp h⟩

/-- Up to base 16, different digits have different characters. -/
theorem digitChar_inj {m n : Nat} (hm : m < 16) (hn : n < 16)
    (h : Nat.digitChar m = Nat.digitChar n) : m = n := by
  have hall : ∀ m < 16, ∀ n < 16, Nat.digitChar m = Nat.digitChar n → m = n := by decide
  exact hall m hm n hn h

/-- Up to base 16, a number can be read off its digits. -/
theorem toDigits_inj {base m n : Nat} (hbase : 1 < base) (hle : base ≤ 16)
    (h : Nat.toDigits base m = Nat.toDigits base n) : m = n := by
  induction m using Nat.strongRecOn generalizing n with
  | _ m ih =>
    have hlen (k : Nat) : k < base ↔ (Nat.toDigits base k).length ≤ 1 := by
      rw [Nat.length_toDigits_le_iff hbase Nat.one_pos, Nat.pow_one]
    have hone : m < base ↔ n < base := by rw [hlen, hlen, h]
    rcases Nat.lt_or_ge m base with hm | hm
    · have hn := hone.mp hm
      rw [Nat.toDigits_of_lt_base hm, Nat.toDigits_of_lt_base hn] at h
      exact digitChar_inj (by omega) (by omega) (List.singleton_inj.mp h)
    · have hn : base ≤ n := Nat.le_of_not_lt fun hn => Nat.not_lt.mpr hm (hone.mpr hn)
      rw [Nat.toDigits_of_base_le hbase hm, Nat.toDigits_of_base_le hbase hn] at h
      obtain ⟨hfirst, hlast⟩ := List.append_inj' h rfl
      have hdiv := ih (m / base) (Nat.div_lt_self (by omega) hbase) hfirst
      have hdigit (k : Nat) : k % base < 16 :=
        Nat.lt_of_lt_of_le (Nat.mod_lt k (by omega)) hle
      have hmod := digitChar_inj (hdigit m) (hdigit n) (List.singleton_inj.mp hlast)
      rw [← Nat.div_add_mod m base, hdiv, hmod, Nat.div_add_mod]

/-! ## Escaped characters -/

/-- The characters that are written as another one after a backslash, and that other one. -/
def shortEscapes (quote : Char) : List (Char × Char) :=
  [('\x00', '0'), ('\t', 't'), ('\r', 'r'), ('\n', 'n'), (quote, quote), ('\\', '\\')]

/-- The ways to write a character between two `quote` marks. -/
inductive Escapes (quote c : Char) : Text → Prop where
  | short {letter : Char} (h : (c, letter) ∈ shortEscapes quote) : Escapes quote c ['\\', letter]
  | codePoint : Escapes quote c (codePointEscape c)
  | plain (hquote : c ≠ quote) (hbackslash : c ≠ '\\') : Escapes quote c [c]

theorem escapes_escapeChar (quote c : Char) : Escapes quote c (escapeChar quote c) := by
  unfold escapeChar
  simp only [beq_iff_eq, Bool.or_eq_true]
  split
  next h => exact .short (by simp [shortEscapes, h])
  split
  next h => exact .short (by simp [shortEscapes, h])
  split
  next h => exact .short (by simp [shortEscapes, h])
  split
  next h => exact .short (by simp [shortEscapes, h])
  split
  next h => rcases h with rfl | rfl <;> exact .short (by simp [shortEscapes])
  next hself =>
    obtain ⟨hquote, hbackslash⟩ := not_or.mp hself
    split
    · exact .codePoint
    · exact .plain hquote hbackslash

theorem shortEscapes_inj {c d letter : Char} (hc : (c, letter) ∈ shortEscapes '"')
    (hd : (d, letter) ∈ shortEscapes '"') : c = d := by
  have hall : ∀ p ∈ shortEscapes '"', ∀ q ∈ shortEscapes '"', p.2 = q.2 → p.1 = q.1 := by decide
  exact hall _ hc _ hd rfl

/-- No other letter stands before the code point. -/
theorem ne_of_mem_shortEscapes {c letter : Char} (h : (c, letter) ∈ shortEscapes '"') :
    letter ≠ 'u' := by
  have hall : ∀ p ∈ shortEscapes '"', p.2 ≠ 'u' := by decide
  exact hall _ h

theorem selfDelimiting_codePointEscape : SelfDelimiting codePointEscape := by
  have hdigits : SelfDelimiting fun c : Char => Nat.toDigits 16 c.toNat ++ ['\x7d'] := by
    refine selfDelimiting_marked (fun c d h => ?_) fun c hc => ?_
    · exact Char.toNat_inj.mp (toDigits_inj (by decide) (by decide) h)
    · obtain ⟨d, hd⟩ := exists_of_mem_toDigits (by decide) hc
      exact Nat.digitChar_ne _ (by decide) hd.symm
  intro c d x y h
  refine hdigits ?_
  simpa [codePointEscape] using h

/-- What a character is escaped to tells where it ends. -/
theorem selfDelimiting_escapeChar : SelfDelimiting (escapeChar '"') := by
  intro c d x y h
  have hc := escapes_escapeChar '"' c
  have hd := escapes_escapeChar '"' d
  generalize escapeChar '"' c = s at h hc
  generalize escapeChar '"' d = t at h hd
  cases hc with
  | short hc =>
    cases hd with
    | short hd =>
      obtain ⟨rfl, rfl⟩ : _ = _ ∧ x = y := by simpa using h
      exact ⟨shortEscapes_inj hc hd, rfl⟩
    | codePoint => exact absurd (List.cons.inj (List.cons.inj h).2).1 (ne_of_mem_shortEscapes hc)
    | plain _ hd => exact absurd (List.cons.inj h).1.symm hd
  | codePoint =>
    cases hd with
    | short hd =>
      exact absurd (List.cons.inj (List.cons.inj h).2).1.symm (ne_of_mem_shortEscapes hd)
    | codePoint => exact selfDelimiting_codePointEscape h
    | plain _ hd => exact absurd (List.cons.inj h).1.symm hd
  | plain _ hc =>
    cases hd with
    | short hd => exact absurd (List.cons.inj h).1 hc
    | codePoint => exact absurd (List.cons.inj h).1 hc
    | plain _ _ => exact List.cons.inj h

/-- No escaped character begins with the quote mark. -/
theorem head?_escapeChar_append (c : Char) (x : Text) :
    (escapeChar '"' c ++ x).head? ≠ some '"' := by
  have hc := escapes_escapeChar '"' c
  generalize escapeChar '"' c = s at hc
  cases hc with
  | short _ => simp
  | codePoint => simp [codePointEscape]
  | plain hquote _ => simpa using hquote

/-- A quoted text tells where it ends. -/
theorem selfDelimiting_quoted : SelfDelimiting quoted := by
  have hrow := selfDelimiting_escapeChar.row head?_escapeChar_append
  intro t u x y h
  exact hrow (List.cons.inj h).2

end RegexText.Text
