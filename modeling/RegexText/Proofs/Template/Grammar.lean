import RegexText.Proofs.Pattern.Progress
import RegexText.Template
import RegexText.Text.Quoted

/-!
# The grammar of templates

`Expands` says by rules what a template stands for. Its one rule with a choice is that for a `$` with
digits behind it, which refers to a group by as many of the digits as still give the number of a
group, or else by the first (`RefersBy`).

Digit by digit, `expand` takes in a further digit only while the number stays that of a group. A
number with more digits is no smaller (`number_le_append`), so the first digit that is left out ends
the longest such number (`exists_reference`). The rules therefore give what `expand` does
(`expands_expand`), and as there is never more than one of them to apply (`Expands.unique`), nothing
else.

No number on the way exceeds ten times the number of groups, or one hundred where there are fewer
than ten: `expandUpTo?` works with numbers up to a limit only and has the same result
(`expandFromUpTo?_eq`).

The main statement is `Template.expand_grammar`.
-/

namespace RegexText

namespace Template

/-! ## The rules -/

/-- The digits at the front of `t`. -/
def digitRun (t : Text) : Text := t.takeWhile Char.isDigit

/-- The number that digits write. -/
def number (ds : Text) : Nat := Nat.ofDigitChars 10 ds 0

/-- Of the digits `run`, the first ones `ds` refer to one of `k` groups, numbered from 0: they are
the longest beginning that writes a number below `k`, or the first digit alone if there is none. -/
structure RefersBy (k : Nat) (run ds : Text) : Prop where
  isPrefix : ds <+: run
  ne_nil : ds ≠ []
  longest :
    (number ds < k ∧ ∀ es, es <+: run → number es < k → es.length ≤ ds.length) ∨
      (ds.length = 1 ∧ ∀ es, es <+: run → es ≠ [] → k ≤ number es)

/-- What a template stands for, where `groups` are the texts of the groups. -/
inductive Expands (groups : List Text) : Text → Text → Prop where
  | nil : Expands groups [] []
  /-- A backslash makes the next character stand for itself. -/
  | escaped (c : Char) {rest out : Text} (h : Expands groups rest out) :
    Expands groups ('\\' :: c :: rest) (c :: out)
  | lastBackslash : Expands groups ['\\'] ['\\']
  /-- A `$` without a digit stands for itself. -/
  | dollar {rest out : Text} (hrest : digitRun rest = []) (h : Expands groups rest out) :
    Expands groups ('$' :: rest) ('$' :: out)
  /-- A `$` and a number stand for a group, and further digits for themselves. -/
  | reference {ds rest out : Text} (hds : RefersBy groups.length (digitRun (ds ++ rest)) ds)
    (h : Expands groups rest out) :
    Expands groups ('$' :: (ds ++ rest)) (groupText groups (number ds) ++ out)
  | copied {c : Char} {rest out : Text} (hbackslash : c ≠ '\\') (hdollar : c ≠ '$')
    (h : Expands groups rest out) : Expands groups (c :: rest) (c :: out)

/-! ## Numbers -/

theorem digitRun_cons {c : Char} (hc : c.isDigit = true) (t : Text) :
    digitRun (c :: t) = c :: digitRun t :=
  List.takeWhile_cons_of_pos hc

theorem digitRun_cons_of_not {c : Char} (hc : c.isDigit = false) (t : Text) :
    digitRun (c :: t) = [] :=
  List.takeWhile_cons_of_neg (by rw [hc]; exact Bool.false_ne_true)

theorem digitRun_append {ds : Text} (hds : ∀ c ∈ ds, c.isDigit = true) (t : Text) :
    digitRun (ds ++ t) = ds ++ digitRun t :=
  List.takeWhile_append_of_pos hds

theorem digitValue?_of_isDigit {c : Char} (hc : c.isDigit = true) :
    digitValue? c = some (c.toNat - '0'.toNat) :=
  if_pos hc

theorem digitValue?_of_not {c : Char} (hc : c.isDigit = false) : digitValue? c = none :=
  if_neg (by rw [hc]; exact Bool.false_ne_true)

theorem digitValue?_lt {c : Char} {d : Nat} (h : digitValue? c = some d) : d < 10 := by
  unfold digitValue? at h
  split at h
  · rename_i hc
    cases h
    simp only [Char.isDigit, Bool.and_eq_true, decide_eq_true_eq] at hc
    have hle : c.toNat ≤ '9'.toNat := hc.2
    have hnine : '9'.toNat - '0'.toNat = 9 := rfl
    omega
  · cases h

theorem number_concat (ds : Text) (c : Char) :
    number (ds ++ [c]) = number ds * 10 + (c.toNat - '0'.toNat) := by
  rw [number, Nat.ofDigitChars_append, Nat.mul_comm]
  rfl

/-- More digits give no smaller number. -/
theorem number_le_append (ds es : Text) : number ds ≤ number (ds ++ es) := by
  induction es generalizing ds with
  | nil => rw [List.append_nil]
  | cons c es ih =>
    have hstep := number_concat ds c
    have hmore := ih (ds ++ [c])
    rw [List.append_assoc, List.singleton_append] at hmore
    omega

theorem RefersBy.unique {k : Nat} {run ds ds' : Text} (h : RefersBy k run ds)
    (h' : RefersBy k run ds') : ds = ds' := by
  have hlen : ds.length = ds'.length := by
    rcases h.longest with ⟨hlt, hlong⟩ | ⟨hone, hnone⟩ <;>
      rcases h'.longest with ⟨hlt', hlong'⟩ | ⟨hone', hnone'⟩
    · exact Nat.le_antisymm (hlong' ds h.isPrefix hlt) (hlong ds' h'.isPrefix hlt')
    · exact absurd (hnone' ds h.isPrefix h.ne_nil) (Nat.not_le.mpr hlt)
    · exact absurd (hnone ds' h'.isPrefix h'.ne_nil) (Nat.not_le.mpr hlt')
    · rw [hone, hone']
  exact (List.prefix_of_prefix_length_le h.isPrefix h'.isPrefix (Nat.le_of_eq hlen)).eq_of_length
    hlen

/-- Digits refer to a group where no longer beginning of the run writes the number of one. -/
theorem refersBy_of_longest {k : Nat} {run ds : Text} (hpre : ds <+: run) (hne : ds ≠ [])
    (hds : number ds < k ∨ ds.length = 1)
    (hlonger : ∀ es, es <+: run → ds.length < es.length → k ≤ number es) : RefersBy k run ds := by
  refine ⟨hpre, hne, ?_⟩
  rcases Nat.lt_or_ge (number ds) k with hlt | hge
  · refine .inl ⟨hlt, fun es hes hnumber => Nat.le_of_not_lt fun hlong => ?_⟩
    exact absurd (hlonger es hes hlong) (Nat.not_le.mpr hnumber)
  · have hone : ds.length = 1 := hds.resolve_left (Nat.not_lt.mpr hge)
    refine .inr ⟨hone, fun es hes hnil => ?_⟩
    rcases Nat.lt_or_ge ds.length es.length with hlong | hle
    · exact hlonger es hes hlong
    · have hpos := List.length_pos_iff.mpr hnil
      have heq : es = ds :=
        (List.prefix_of_prefix_length_le hes hpre hle).eq_of_length (by omega)
      rw [heq]
      exact hge

/-! ## What is read -/

variable {groups : List Text}

/-- A character that settles what is open is then read as where nothing is open. -/
theorem expandFrom_of_settle {mode : Mode} {settled : Text} {c : Char}
    (h : mode.read groups c = settle settled c) (t : Text) :
    expandFrom groups mode (c :: t) = settled ++ expandFrom groups .plain (c :: t) := by
  rw [expandFrom, h]
  exact List.append_assoc ..

/-- After digits that refer to a group as far as they go, a template goes on with the further digits
that refer to it too. -/
theorem exists_reference {ds : Text} (hne : ds ≠ [])
    (hds : number ds < groups.length ∨ ds.length = 1) (t : Text) :
    ∃ more rest, t = more ++ rest ∧
      RefersBy groups.length (ds ++ digitRun t) (ds ++ more) ∧
      expandFrom groups (.group (number ds)) t =
        groupText groups (number (ds ++ more)) ++ expandFrom groups .plain rest := by
  induction t generalizing ds with
  | nil =>
    have hlonger : ∀ es, es <+: ds → ds.length < es.length → groups.length ≤ number es :=
      fun es hes hlong => absurd hes.length_le (Nat.not_le.mpr hlong)
    refine ⟨[], [], rfl, ?_, ?_⟩
    · simpa [digitRun] using refersBy_of_longest (List.prefix_refl ds) hne hds hlonger
    · rw [List.append_nil]
      exact (List.append_nil _).symm
  | cons c t ih =>
    cases hc : c.isDigit with
    | false =>
      -- No digit follows, so the run ends here.
      have hread : (Mode.group (number ds)).read groups c =
          settle (groupText groups (number ds)) c := by
        rw [Mode.read, digitValue?_of_not hc]
      have hlonger : ∀ es, es <+: ds → ds.length < es.length → groups.length ≤ number es :=
        fun es hes hlong => absurd hes.length_le (Nat.not_le.mpr hlong)
      refine ⟨[], c :: t, rfl, ?_, ?_⟩
      · rw [digitRun_cons_of_not hc, List.append_nil]
        exact refersBy_of_longest (List.prefix_refl ds) hne hds hlonger
      · rw [List.append_nil]
        exact expandFrom_of_settle hread t
    | true =>
      have hwider := number_concat ds c
      rw [digitRun_cons hc]
      by_cases hlt : number (ds ++ [c]) < groups.length
      · -- The digit is taken in.
        have hread : (Mode.group (number ds)).read groups c =
            ([], .group (number (ds ++ [c]))) := by
          rw [hwider] at hlt ⊢
          simp only [Mode.read, digitValue?_of_isDigit hc, if_pos hlt]
        obtain ⟨more, rest, rfl, hrefers, hexpand⟩ := ih (List.append_ne_nil_of_left_ne_nil hne [c])
          (.inl hlt)
        rw [List.append_assoc, List.append_assoc, List.singleton_append] at hrefers
        rw [List.append_assoc, List.singleton_append] at hexpand
        refine ⟨c :: more, rest, rfl, hrefers, ?_⟩
        rw [expandFrom, hread]
        exact hexpand
      · -- The digit is left out, and every longer number would hold it.
        have hread : (Mode.group (number ds)).read groups c =
            settle (groupText groups (number ds)) c := by
          rw [hwider] at hlt
          simp only [Mode.read, digitValue?_of_isDigit hc, if_neg hlt]
        have hlonger : ∀ es, es <+: ds ++ c :: digitRun t → ds.length < es.length →
            groups.length ≤ number es := by
          intro es hes hlong
          have hpre : ds ++ [c] <+: es := by
            refine List.prefix_of_prefix_length_le ⟨digitRun t, ?_⟩ hes ?_
            · rw [List.append_assoc, List.singleton_append]
            · rw [List.length_append]
              exact hlong
          obtain ⟨further, rfl⟩ := hpre
          exact Nat.le_trans (Nat.le_of_not_lt hlt) (number_le_append _ _)
        refine ⟨[], c :: t, rfl, ?_, ?_⟩
        · rw [List.append_nil]
          exact refersBy_of_longest (List.prefix_append ds _) hne hds hlonger
        · rw [List.append_nil]
          exact expandFrom_of_settle hread t

/-- A `$` and a digit refer to a group, possibly with further digits. -/
theorem expand_digit (groups : List Text) {d : Char} (hd : d.isDigit = true) (t : Text) :
    ∃ more rest, t = more ++ rest ∧
      RefersBy groups.length (digitRun ((d :: more) ++ rest)) (d :: more) ∧
      expand groups ('$' :: d :: t) =
        groupText groups (number (d :: more)) ++ expand groups rest := by
  have hnumber : number [d] = d.toNat - '0'.toNat := by
    rw [← List.nil_append [d], number_concat]
    exact Nat.zero_add _
  have hread : Mode.dollar.read groups d = ([], .group (number [d])) := by
    rw [Mode.read, digitValue?_of_isDigit hd, hnumber]
  obtain ⟨more, rest, rfl, hrefers, hexpand⟩ := exists_reference (List.cons_ne_nil d []) (.inr rfl) t
  have hrun : digitRun ((d :: more) ++ rest) = [d] ++ digitRun (more ++ rest) := digitRun_cons hd _
  refine ⟨more, rest, rfl, hrun ▸ hrefers, ?_⟩
  show (Mode.dollar.read groups d).1 ++
    expandFrom groups (Mode.dollar.read groups d).2 (more ++ rest) = _
  rw [hread]
  exact hexpand

/-- The rules give what `expand` does. -/
theorem expands_expand (groups : List Text) (t : Text) : Expands groups t (expand groups t) := by
  induction h : t.length using Nat.strong_induction_on generalizing t with
  | _ n ih =>
    cases t with
    | nil => exact .nil
    | cons c t =>
      rw [List.length_cons] at h
      by_cases hbackslash : c = '\\'
      · subst hbackslash
        cases t with
        | nil => exact .lastBackslash
        | cons c rest =>
          rw [List.length_cons] at h
          exact .escaped c (ih rest.length (by omega) rest rfl)
      by_cases hdollar : c = '$'
      · subst hdollar
        cases t with
        | nil => exact .dollar rfl .nil
        | cons d t =>
          cases hd : d.isDigit with
          | false =>
            have hread : Mode.dollar.read groups d = settle ['$'] d := by
              rw [Mode.read, digitValue?_of_not hd]
            have hexpand : expand groups ('$' :: d :: t) = '$' :: expand groups (d :: t) :=
              expandFrom_of_settle hread t
            rw [hexpand]
            exact .dollar (digitRun_cons_of_not hd t) (ih (d :: t).length (by omega) (d :: t) rfl)
          | true =>
            obtain ⟨more, rest, rfl, hrefers, hexpand⟩ := expand_digit groups hd t
            rw [List.length_cons, List.length_append] at h
            rw [hexpand]
            exact .reference hrefers (ih rest.length (by omega) rest rfl)
      · have hread : Mode.plain.read groups c = ([c], .plain) := by
          simp [Mode.read, readPlain, hbackslash, hdollar]
        have hexpand : expand groups (c :: t) = c :: expand groups t := by
          rw [expand, expandFrom, hread]
          rfl
        rw [hexpand]
        exact .copied hbackslash hdollar (ih t.length (by omega) t rfl)

/-- Only the two rules for a `$` apply where one comes first. -/
theorem Expands.of_dollar {t out : Text} (h : Expands groups ('$' :: t) out) :
    (digitRun t = [] ∧ ∃ out', out = '$' :: out' ∧ Expands groups t out') ∨
      ∃ ds rest out', t = ds ++ rest ∧ RefersBy groups.length (digitRun t) ds ∧
        out = groupText groups (number ds) ++ out' ∧ Expands groups rest out' := by
  generalize hwhole : '$' :: t = whole at h
  cases h with
  | nil => cases hwhole
  | escaped c h => cases hwhole
  | lastBackslash => cases hwhole
  | dollar hrest h =>
    cases hwhole
    exact .inl ⟨hrest, _, rfl, h⟩
  | reference hds h =>
    cases hwhole
    exact .inr ⟨_, _, _, rfl, hds, rfl, h⟩
  | copied hbackslash hdollar h =>
    cases hwhole
    exact absurd rfl hdollar

/-- The rules say one thing only. -/
theorem Expands.unique {t out out' : Text} (h : Expands groups t out) (h' : Expands groups t out') :
    out = out' := by
  induction h generalizing out' with
  | nil => cases h' with | nil => rfl
  | escaped c h ih =>
    cases h' with
    | escaped _ h' => rw [ih h']
    | copied hbackslash => exact absurd rfl hbackslash
  | lastBackslash =>
    cases h' with
    | lastBackslash => rfl
    | copied hbackslash => exact absurd rfl hbackslash
  | dollar hrest h ih =>
    rcases h'.of_dollar with ⟨-, out', rfl, hrest'⟩ | ⟨ds, rest, out', -, hds, -⟩
    · rw [ih hrest']
    · rw [hrest] at hds
      exact absurd (List.prefix_nil.mp hds.isPrefix) hds.ne_nil
  | @reference ds rest out hds h ih =>
    rcases h'.of_dollar with ⟨hnone, -⟩ | ⟨ds', rest', out', hsame, hds', rfl, hrest'⟩
    · rw [hnone] at hds
      exact absurd (List.prefix_nil.mp hds.isPrefix) hds.ne_nil
    · obtain rfl := hds.unique hds'
      obtain rfl := List.append_cancel_left hsame
      rw [ih hrest']
  | copied hbackslash hdollar h ih =>
    cases h' with
    | escaped => exact absurd rfl hbackslash
    | lastBackslash => exact absurd rfl hbackslash
    | dollar => exact absurd rfl hdollar
    | reference => exact absurd rfl hdollar
    | copied _ _ h' => rw [ih h']

theorem expands_iff {t out : Text} : Expands groups t out ↔ expand groups t = out :=
  ⟨fun h => (expands_expand groups t).unique h, fun h => h ▸ expands_expand groups t⟩

/-! ## Writing templates -/

/-- A part of a template with `k` groups: text that stands for itself, or a group. -/
inductive Piece (k : Nat) where
  | literal (t : Text)
  | group (n : Fin k)

/-- How the part is written: each character of a text behind a backslash, and a group by its number
behind a `$`. -/
def Piece.written {k : Nat} : Piece k → Text
  | literal t => t.flatMap fun c => ['\\', c]
  | group n => '$' :: Text.decimal n

/-- What the part stands for. -/
def Piece.meaning (groups : List Text) : Piece groups.length → Text
  | literal t => t
  | group n => groups[n]

/-- No digit stands at the front of what is written. -/
theorem digitRun_written {k : Nat} (ps : List (Piece k)) :
    digitRun (ps.flatMap Piece.written) = [] := by
  induction ps with
  | nil => rfl
  | cons p ps ih =>
    cases p with
    | literal t =>
      cases t with
      | nil => exact ih
      | cons c t => exact digitRun_cons_of_not rfl _
    | group n => exact digitRun_cons_of_not rfl _

theorem number_decimal (n : Nat) : number (Text.decimal n) = n := Nat.ofDigitChars_ten_toDigits

/-- The digits of a group's number refer to it. -/
theorem refersBy_decimal {k n : Nat} (h : n < k) : RefersBy k (Text.decimal n) (Text.decimal n) :=
  ⟨List.prefix_refl _, Nat.toDigits_ne_nil,
    .inl ⟨by rwa [number_decimal], fun _ hes _ => hes.length_le⟩⟩

theorem expands_literal (t : Text) {rest out : Text} (h : Expands groups rest out) :
    Expands groups ((Piece.literal t : Piece groups.length).written ++ rest) (t ++ out) := by
  induction t with
  | nil => exact h
  | cons c t ih => exact .escaped c ih

/-- What is written out of parts stands for what the parts stand for. -/
theorem expands_written (ps : List (Piece groups.length)) :
    Expands groups (ps.flatMap Piece.written) (ps.flatMap (Piece.meaning groups)) := by
  induction ps with
  | nil => exact .nil
  | cons p ps ih =>
    rw [List.flatMap_cons, List.flatMap_cons]
    cases p with
    | literal t => exact expands_literal t ih
    | group n =>
      have hdigits : ∀ c ∈ Text.decimal n, c.isDigit = true :=
        fun c hc => Nat.isDigit_of_mem_toDigits (by decide) (by decide) hc
      have hrefers : RefersBy groups.length
          (digitRun (Text.decimal n ++ ps.flatMap Piece.written)) (Text.decimal n) := by
        rw [digitRun_append hdigits, digitRun_written, List.append_nil]
        exact refersBy_decimal n.isLt
      have htext : groupText groups (number (Text.decimal n)) = groups[n] := by
        rw [number_decimal, groupText, List.getD_eq_getElem?_getD,
          List.getElem?_eq_getElem n.isLt]
        rfl
      have h := Expands.reference hrefers ih
      rw [htext] at h
      exact h

/-! ## Numbers up to a limit -/

/-- The product of two numbers, unless it exceeds `limit`. -/
def mulUpTo? (limit a b : Nat) : Option Nat := if a * b ≤ limit then some (a * b) else none

/-- What `c` adds and leaves open, worked out in numbers up to `limit`. -/
def Mode.readUpTo? (limit : Nat) (groups : List Text) (c : Char) : Mode → Option (Text × Mode)
  | group n =>
    match digitValue? c with
    | some d => do
      let tens ← mulUpTo? limit n 10
      let wider ← addUpTo? limit tens d
      if wider < groups.length then some ([], group wider)
      else some (settle (groupText groups n) c)
    | none => some (settle (groupText groups n) c)
  | mode => some (mode.read groups c)

/-- Expands the rest of a template, with numbers up to `limit`. -/
def expandFromUpTo? (limit : Nat) (groups : List Text) : Mode → Text → Option Text
  | mode, [] => some (mode.finish groups)
  | mode, c :: cs => do
    let read ← mode.readUpTo? limit groups c
    let rest ← expandFromUpTo? limit groups read.2 cs
    some (read.1 ++ rest)

/-- The template `t` with the texts of `groups` put in, worked out in numbers up to `limit`. -/
def expandUpTo? (limit : Nat) (groups : List Text) (t : Text) : Option Text :=
  expandFromUpTo? limit groups .plain t

/-- A number that is open has one digit or is that of a group. -/
def Mode.Small (k : Nat) : Mode → Prop
  | group n => n < max 10 k
  | plain | escaped | dollar => True

theorem small_readPlain (k : Nat) (c : Char) : (readPlain c).2.Small k := by
  unfold readPlain
  split
  · trivial
  · split <;> trivial

theorem Mode.Small.read {mode : Mode} (h : mode.Small groups.length) (c : Char) :
    (mode.read groups c).2.Small groups.length ∧
      mode.readUpTo? (10 * max 10 groups.length) groups c = some (mode.read groups c) := by
  cases mode with
  | plain => exact ⟨small_readPlain _ c, rfl⟩
  | escaped => exact ⟨trivial, rfl⟩
  | dollar =>
    refine ⟨?_, rfl⟩
    cases hd : digitValue? c with
    | none =>
      rw [Mode.read, hd]
      exact small_readPlain _ c
    | some d =>
      have hlt := digitValue?_lt hd
      rw [Mode.read, hd]
      show d < max 10 groups.length
      omega
  | group n =>
    have hn : n < max 10 groups.length := h
    cases hd : digitValue? c with
    | none =>
      rw [Mode.read, Mode.readUpTo?, hd]
      exact ⟨small_readPlain _ c, rfl⟩
    | some d =>
      have hlt := digitValue?_lt hd
      have htens : mulUpTo? (10 * max 10 groups.length) n 10 = some (n * 10) := if_pos (by omega)
      have hwider : addUpTo? (10 * max 10 groups.length) (n * 10) d = some (n * 10 + d) :=
        addUpTo?_eq (by omega)
      rw [Mode.read, Mode.readUpTo?, hd]
      simp only [htens, hwider, Option.bind_eq_bind, Option.bind_some]
      split
      · refine ⟨?_, rfl⟩
        show n * 10 + d < max 10 groups.length
        omega
      · exact ⟨small_readPlain _ c, rfl⟩

/-- With numbers up to ten times the number of groups, or one hundred, a template expands alike. -/
theorem expandFromUpTo?_eq {mode : Mode} (h : mode.Small groups.length) (t : Text) :
    expandFromUpTo? (10 * max 10 groups.length) groups mode t =
      some (expandFrom groups mode t) := by
  induction t generalizing mode with
  | nil => rfl
  | cons c t ih =>
    obtain ⟨hsmall, hread⟩ := h.read c
    rw [expandFromUpTo?, hread]
    simp only [Option.bind_eq_bind, Option.bind_some, ih hsmall]
    rfl

/-- A template stands for what the rules say and for nothing else. What is written out of parts,
each character behind a backslash and each group by its number behind a `$`, stands for what the
parts stand for. No number on the way exceeds ten times the number of groups, or one hundred. -/
theorem expand_grammar (groups : List Text) :
    (∀ t out, Expands groups t out ↔ expand groups t = out) ∧
      (∀ ps : List (Piece groups.length),
        expand groups (ps.flatMap Piece.written) = ps.flatMap (Piece.meaning groups)) ∧
      ∀ t, expandUpTo? (10 * max 10 groups.length) groups t = some (expand groups t) := by
  have hplain : Mode.plain.Small groups.length := trivial
  exact ⟨fun _ _ => expands_iff, fun ps => expands_iff.mp (expands_written ps),
    fun t => expandFromUpTo?_eq hplain t⟩

example : expand ["m".toList, "a".toList] "$01-$12-$9-\\$1$".toList = "a-a2--$1$".toList := by
  decide

end Template

end RegexText
