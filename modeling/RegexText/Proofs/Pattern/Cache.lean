import Mathlib.Data.Finset.Card
import RegexText.Pattern.Cache

/-!
# What a cache gives away

A cache answers a request as if it compiled the pattern anew, and hands out one object for each
pattern until it is cleared. What counts as one pattern is said on the letters of its flags
(`Request.key`): the source and which of `i`, `m` and `s` are among them. The cache itself keeps
patterns under flags without `g`, and `keyOf` ties the two together.

`Reflects` is the invariant of a cache: its entries are compiled from their keys, have falling
numbers, and are those of the patterns obtained since it was cleared. A request either fails,
finds an entry or makes one (`answered`), and keeps the invariant (`Reflects.next`). An entry stays
until the cache is cleared (`mem_foldl_next`), and its number is not used again afterwards
(`gone_foldl_next`).

The main statement is `answer_after_history`.
-/

namespace RegexText

/-! ## The letters of flags -/

namespace Flags

/-- Whether `c` names a flag. -/
def isLetter (c : Char) : Bool := "imsg".toList.contains c

/-- The flags that are named in `t`. -/
def ofLetters (t : Text) : Flags :=
  ⟨t.contains 'i', t.contains 'm', t.contains 's', t.contains 'g'⟩

variable {f g : Flags} {t : Text} {c : Char}

theorem add?_of_not_isLetter (h : isLetter c = false) (f : Flags) : f.add? c = none := by
  unfold add?
  split
  iterate 4 exact absurd h (by decide)
  rfl

theorem add?_of_isLetter (h : isLetter c = true) (f : Flags) :
    f.add? c = some ⟨f.ignoreCase || 'i' == c, f.multiLine || 'm' == c, f.dotAll || 's' == c,
      f.global || 'g' == c⟩ := by
  have hmem : c = 'i' ∨ c = 'm' ∨ c = 's' ∨ c = 'g' := by
    simpa [isLetter] using h
  rcases hmem with rfl | rfl | rfl | rfl <;> simp [add?]

/-- Flags are read from all letters, or the first character that names no flag is reported. -/
theorem addAll_eq (all t : Text) (f : Flags) :
    addAll all f t =
      match t.find? (!isLetter ·) with
      | some c => .error (.unsupportedFlag c all)
      | none => .ok ⟨f.ignoreCase || t.contains 'i', f.multiLine || t.contains 'm',
          f.dotAll || t.contains 's', f.global || t.contains 'g'⟩ := by
  induction t generalizing f with
  | nil => simp [addAll]
  | cons c cs ih =>
    rw [addAll, List.find?_cons]
    cases hc : isLetter c with
    | false => rw [add?_of_not_isLetter hc]; rfl
    | true =>
      rw [add?_of_isLetter hc]
      simp only [Bool.not_true, ih, List.contains_cons, Bool.or_assoc]

theorem parse_eq (t : Text) :
    parse t =
      match t.find? (!isLetter ·) with
      | some c => .error (.unsupportedFlag c t)
      | none => .ok (ofLetters t) := by
  rw [parse, addAll_eq]
  cases t.find? (!isLetter ·) with
  | some c => rfl
  | none => simp only [Bool.false_or, ofLetters]

/-- Flags are read back from the letters that show them. -/
theorem parse_text (f : Flags) : parse f.text = .ok f := by
  obtain ⟨i, m, s, g⟩ := f
  cases i <;> cases m <;> cases s <;> cases g <;> rfl

/-- The letters among `i`, `m` and `s` that are in `t`. -/
def engineLetters (t : Text) : Finset Char := ({'i', 'm', 's'} : Finset Char).filter (· ∈ t)

theorem engineLetters_eq_iff {t u : Text} :
    engineLetters t = engineLetters u ↔ ∀ c ∈ "ims".toList, c ∈ t ↔ c ∈ u := by
  rw [engineLetters, engineLetters, Finset.filter_inj']
  refine forall_congr' fun c => ?_
  have hmem : c ∈ ({'i', 'm', 's'} : Finset Char) ↔ c ∈ "ims".toList := by simp
  rw [hmem]

theorem mem_text (f : Flags) : ('i' ∈ f.text ↔ f.ignoreCase) ∧ ('m' ∈ f.text ↔ f.multiLine) ∧
    ('s' ∈ f.text ↔ f.dotAll) := by
  obtain ⟨i, m, s, g⟩ := f
  cases i <;> cases m <;> cases s <;> cases g <;> decide

theorem engineLetters_ofLetters (t : Text) :
    engineLetters (ofLetters t).text = engineLetters t := by
  rw [engineLetters_eq_iff]
  simp [mem_text, ofLetters]

/-- Flags differ in what a pattern matches if and only if they differ in these letters. -/
theorem engine_eq_iff : f.engine = g.engine ↔ engineLetters f.text = engineLetters g.text := by
  rw [engineLetters_eq_iff]
  simp [mem_text, engine]

end Flags

theorem Pattern.compileRegex_engine (source : Text) (flags : Flags) :
    compileRegex source flags.engine = compileRegex source flags := rfl

theorem Pattern.compile_eq (source letters : Text) :
    compile source letters =
      match letters.find? (!Flags.isLetter ·) with
      | some c => .error (.unsupportedFlag c letters)
      | none =>
        (compileRegex source (.ofLetters letters)).map (⟨source, .ofLetters letters, ·⟩) := by
  rw [compile, Flags.parse_eq]
  cases letters.find? (!Flags.isLetter ·) with
  | some c => rfl
  | none =>
    show (compileRegex source (.ofLetters letters)).bind _ = (compileRegex _ _).map _
    cases compileRegex source (.ofLetters letters) <;> rfl

namespace PatternCache

/-! ## Requests and histories -/

/-- Something that is asked of a cache. -/
inductive Request where
  /-- The compiled form of a pattern. -/
  | program (source : Text) (flags : Flags)
  /-- A pattern whose flags are written in letters. -/
  | pattern (source letters : Text)

namespace Request

def source : Request → Text
  | program source _ => source
  | pattern source _ => source

/-- The letters of the flags. -/
def letters : Request → Text
  | program _ flags => flags.text
  | pattern _ letters => letters

/-- What the cache answers, with the flags that the letters write. -/
def answer (c : PatternCache) : Request → Except PatternError (Flags × Answer)
  | program source flags => (c.getOrCompile source flags).map (flags, ·)
  | pattern source letters => c.request source letters

/-- What is printed for the request. -/
def printed (c : PatternCache) (r : Request) : Text :=
  match r.answer c with
  | .error _ => []
  | .ok (flags, a) => a.trace r.source flags

/-- What makes two requests ask for one object: the source, and which of `i`, `m` and `s` are among
the letters. -/
def key (r : Request) : Text × Finset Char := (r.source, Flags.engineLetters r.letters)

/-- Whether the pattern can be built. -/
def compiles (r : Request) : Bool := (Pattern.compile r.source r.letters).isOk

end Request

/-- Something that is done with a cache. -/
inductive Operation where
  | ask (r : Request)
  | clear

/-- The cache after an operation. A request that fails leaves the cache that it was made to. -/
def Operation.next (c : PatternCache) : Operation → PatternCache
  | ask r =>
    match r.answer c with
    | .error _ => c
    | .ok (_, a) => a.cache
  | clear => c.clear

/-- The cache after a history of operations, at the start of which it is new. -/
def afterHistory (history : List Operation) : PatternCache := history.foldl Operation.next {}

/-- The keys obtained since the last clearing, after one more operation. -/
def Operation.obtained (keys : Finset (Text × Finset Char)) :
    Operation → Finset (Text × Finset Char)
  | ask r => if r.compiles then insert r.key keys else keys
  | clear => ∅

/-- The keys of the requests since the last clearing whose patterns could be built. -/
def keysObtained (history : List Operation) : Finset (Text × Finset Char) :=
  history.foldl Operation.obtained ∅

/-- The line that reports a compilation. -/
def compilationLine (source : Text) (flags : Flags) : Text :=
  "[cache:compile] pattern=/".toList ++ source ++ "/ flags=\"".toList ++ flags.text ++ ['"', '\n']

/-! ## What a request comes to -/

/-- The cache with one more compilation. -/
def add (c : PatternCache) (k : Text × Flags) (regex : Regex) : PatternCache :=
  ⟨(k, ⟨c.compilations, regex⟩) :: c.entries, c.compilations + 1⟩

variable {c : PatternCache} {r : Request} {keys : Finset (Text × Finset Char)}

/-- What a request comes to. -/
inductive Answered (c : PatternCache) (r : Request) : Prop where
  | misread (ch : Char) (hread : r.letters.find? (!Flags.isLetter ·) = some ch)
    (h : r.answer c = .error (.unsupportedFlag ch r.letters))
  | refused (e : PatternError) (hread : r.letters.find? (!Flags.isLetter ·) = none)
    (he : Pattern.compileRegex r.source (.ofLetters r.letters) = .error e)
    (h : r.answer c = .error e)
  | kept (a : Compiled) (hread : r.letters.find? (!Flags.isLetter ·) = none)
    (hkept : c.get? r.source (.ofLetters r.letters) = some a)
    (h : r.answer c = .ok (.ofLetters r.letters, ⟨a, false, c⟩))
  | made (regex : Regex) (hread : r.letters.find? (!Flags.isLetter ·) = none)
    (hnone : c.get? r.source (.ofLetters r.letters) = none)
    (hregex : Pattern.compileRegex r.source (.ofLetters r.letters) = .ok regex)
    (h : r.answer c = .ok (.ofLetters r.letters, ⟨⟨c.compilations, regex⟩, true,
      c.add (r.source, (Flags.ofLetters r.letters).engine) regex⟩))

theorem answer_eq (c : PatternCache) (r : Request) :
    r.answer c =
      match r.letters.find? (!Flags.isLetter ·) with
      | some ch => .error (.unsupportedFlag ch r.letters)
      | none => (c.getOrCompile r.source (.ofLetters r.letters)).map (.ofLetters r.letters, ·) := by
  have hrequest (source letters : Text) : c.request source letters =
      (Flags.parse letters).bind fun f => (c.getOrCompile source f).map (f, ·) := by
    unfold request
    cases Flags.parse letters with
    | error e => rfl
    | ok f => cases c.getOrCompile source f <;> rfl
  have hanswer : r.answer c = c.request r.source r.letters := by
    cases r with
    | program source flags =>
      show (c.getOrCompile source flags).map (flags, ·) = c.request source flags.text
      rw [hrequest, Flags.parse_text]
      rfl
    | pattern source letters => rfl
  rw [hanswer, hrequest, Flags.parse_eq]
  cases r.letters.find? (!Flags.isLetter ·) <;> rfl

theorem answered (c : PatternCache) (r : Request) : Answered c r := by
  have h := answer_eq c r
  cases hread : r.letters.find? (!Flags.isLetter ·) with
  | some ch =>
    rw [hread] at h
    exact .misread ch hread h
  | none =>
    simp only [hread, getOrCompile] at h
    cases hkept : c.get? r.source (.ofLetters r.letters) with
    | some a =>
      rw [hkept] at h
      exact .kept a hread hkept h
    | none =>
      rw [hkept] at h
      cases hregex : Pattern.compileRegex r.source (.ofLetters r.letters) with
      | error e =>
        rw [hregex] at h
        exact .refused e hread hregex h
      | ok regex =>
        rw [hregex] at h
        exact .made regex hread hkept hregex h

/-! ## What a cache keeps -/

/-- The key of the requests that an entry answers. -/
def keyOf (k : Text × Flags) : Text × Finset Char := (k.1, Flags.engineLetters k.2.text)

theorem keyOf_engine (source : Text) (f : Flags) :
    keyOf (source, f.engine) = (source, Flags.engineLetters f.text) := by
  have hengine : f.engine.engine = f.engine := rfl
  rw [keyOf, Flags.engine_eq_iff.mp hengine]

theorem keyOf_ofLetters (r : Request) :
    keyOf (r.source, (Flags.ofLetters r.letters).engine) = r.key := by
  rw [keyOf_engine, Flags.engineLetters_ofLetters]
  rfl

/-- Keys without `g` that stand for the same requests are the same. -/
theorem keyOf_inj {k k' : Text × Flags} (hk : k.2.engine = k.2) (hk' : k'.2.engine = k'.2) :
    keyOf k = keyOf k' ↔ k = k' := by
  rw [keyOf, keyOf, Prod.mk.injEq, ← Flags.engine_eq_iff, hk, hk', Prod.ext_iff]

/-- The entries of the cache are compiled from their keys, each key and each number occurs once, and
the keys are those of the requests that have been answered. -/
structure Reflects (keys : Finset (Text × Finset Char)) (c : PatternCache) : Prop where
  compiled : ∀ e ∈ c.entries, Pattern.compileRegex e.1.1 e.1.2 = .ok e.2.regex
  engine : ∀ e ∈ c.entries, e.1.2.engine = e.1.2
  numbered : ∀ e ∈ c.entries, e.2.serial < c.compilations
  serials_nodup : (c.entries.map fun e => e.2.serial).Nodup
  keys_nodup : (c.entries.map fun e => keyOf e.1).Nodup
  keys_eq : keys = (c.entries.map fun e => keyOf e.1).toFinset

theorem reflects_clear (c : PatternCache) : Reflects ∅ c.clear where
  compiled _ he := nomatch he
  engine _ he := nomatch he
  numbered _ he := nomatch he
  serials_nodup := List.nodup_nil
  keys_nodup := List.nodup_nil
  keys_eq := rfl

theorem mem_of_get? {source : Text} {f : Flags} {a : Compiled} (h : c.get? source f = some a) :
    ((source, f.engine), a) ∈ c.entries := by
  obtain ⟨before, after, he, -⟩ := List.lookup_eq_some_iff.mp h
  rw [he]
  exact List.mem_append_right before List.mem_cons_self

namespace Reflects

theorem size_eq (h : Reflects keys c) : c.size = keys.card := by
  rw [h.keys_eq, List.toFinset_card_of_nodup h.keys_nodup, List.length_map]
  rfl

/-- Entries have one number if and only if they stand for the same requests. -/
theorem serial_eq_iff (h : Reflects keys c) {e e' : (Text × Flags) × Compiled}
    (he : e ∈ c.entries) (he' : e' ∈ c.entries) :
    e.2.serial = e'.2.serial ↔ keyOf e.1 = keyOf e'.1 := by
  constructor
  · intro hserial
    rw [List.inj_on_of_nodup_map h.serials_nodup he he' hserial]
  · intro hkey
    rw [List.inj_on_of_nodup_map h.keys_nodup he he' hkey]

/-- Nothing is kept for a request that has not been answered. -/
theorem get?_eq_none_iff (h : Reflects keys c) (r : Request) :
    c.get? r.source (.ofLetters r.letters) = none ↔ r.key ∉ keys := by
  rw [get?, List.lookup_eq_none_iff, h.keys_eq, List.mem_toFinset, List.mem_map, not_exists]
  refine forall_congr' fun e => ?_
  rw [not_and]
  refine imp_congr_right fun he => ?_
  rw [← keyOf_ofLetters, keyOf_inj (h.engine e he) rfl, bne_iff_ne]
  exact ne_comm

/-- A compilation adds its key. -/
theorem add (h : Reflects keys c) (hnone : c.get? r.source (.ofLetters r.letters) = none)
    {regex : Regex}
    (hregex : Pattern.compileRegex r.source (.ofLetters r.letters) = .ok regex) :
    Reflects (insert r.key keys) (c.add (r.source, (Flags.ofLetters r.letters).engine) regex) where
  compiled := List.forall_mem_cons.mpr ⟨hregex, h.compiled⟩
  engine := List.forall_mem_cons.mpr ⟨rfl, h.engine⟩
  numbered := List.forall_mem_cons.mpr
    ⟨Nat.lt_succ_self _, fun e he => Nat.lt_succ_of_lt (h.numbered e he)⟩
  serials_nodup := by
    refine List.nodup_cons.mpr ⟨fun hmem => ?_, h.serials_nodup⟩
    obtain ⟨e, he, hserial⟩ := List.mem_map.mp hmem
    exact absurd hserial (Nat.ne_of_lt (h.numbered e he))
  keys_nodup := by
    refine List.nodup_cons.mpr ⟨?_, h.keys_nodup⟩
    show keyOf (r.source, (Flags.ofLetters r.letters).engine) ∉ _
    rw [keyOf_ofLetters, ← List.mem_toFinset, ← h.keys_eq]
    exact (h.get?_eq_none_iff r).mp hnone
  keys_eq := by
    rw [h.keys_eq, PatternCache.add, List.map_cons, List.toFinset_cons, keyOf_ofLetters]

/-- A request is answered as if the pattern were compiled anew. -/
theorem map_answer (h : Reflects keys c) (r : Request) :
    (r.answer c).map (fun given => given.2.pattern r.source given.1) =
      Pattern.compile r.source r.letters := by
  rw [Pattern.compile_eq]
  cases answered c r with
  | misread ch hread hanswer => rw [hanswer, hread]; rfl
  | refused e hread he hanswer => rw [hanswer, hread, he]; rfl
  | kept a hread hkept hanswer =>
    have hregex := h.compiled _ (mem_of_get? hkept)
    rw [Pattern.compileRegex_engine] at hregex
    rw [hanswer, hread, hregex]
    rfl
  | made regex hread hnone hregex hanswer => rw [hanswer, hread, hregex]; rfl

/-- What is answered is an entry of the cache then, under the key of the request, and it is new if
that has not been answered before. -/
theorem answer (h : Reflects keys c) {flags : Flags} {a : Answer}
    (hanswer : r.answer c = .ok (flags, a)) :
    Reflects (insert r.key keys) a.cache ∧ (a.isNew = true ↔ r.key ∉ keys) ∧
      ∃ k, (k, a.compiled) ∈ a.cache.entries ∧ keyOf k = r.key := by
  cases answered c r with
  | misread ch _ herror => rw [herror] at hanswer; cases hanswer
  | refused e _ _ herror => rw [herror] at hanswer; cases hanswer
  | kept a₀ _ hkept hok =>
    rw [hok] at hanswer
    cases hanswer
    have hmem : r.key ∈ keys := by
      by_contra hnot
      rw [(h.get?_eq_none_iff r).mpr hnot] at hkept
      cases hkept
    rw [Finset.insert_eq_of_mem hmem]
    exact ⟨h, by simp [hmem], _, mem_of_get? hkept, keyOf_ofLetters r⟩
  | made regex _ hnone hregex hok =>
    rw [hok] at hanswer
    cases hanswer
    have hnot := (h.get?_eq_none_iff r).mp hnone
    exact ⟨h.add hnone hregex, by simp [hnot], _, List.mem_cons_self, keyOf_ofLetters r⟩

/-- What an operation keeps. -/
theorem next (h : Reflects keys c) (op : Operation) : Reflects (op.obtained keys) (op.next c) := by
  cases op with
  | clear => exact reflects_clear c
  | ask r =>
    have hcompile := h.map_answer r
    simp only [Operation.obtained, Operation.next, Request.compiles, ← hcompile]
    cases hanswer : r.answer c with
    | error e => exact h
    | ok given => exact (h.answer hanswer).1

theorem foldl_next (h : Reflects keys c) (ops : List Operation) :
    Reflects (ops.foldl Operation.obtained keys) (ops.foldl Operation.next c) := by
  induction ops generalizing keys c with
  | nil => exact h
  | cons op ops ih => exact ih (h.next op)

end Reflects

theorem reflects_afterHistory (history : List Operation) :
    Reflects (keysObtained history) (afterHistory history) :=
  (reflects_clear {}).foldl_next history

/-! ## One object -/

/-- A cache is cleared, or at most an entry is added to it. -/
theorem next_cases (c : PatternCache) (op : Operation) :
    (op = .clear ∧ op.next c = c.clear) ∨
      (op ≠ .clear ∧ (op.next c = c ∨ ∃ k regex, op.next c = c.add k regex)) := by
  cases op with
  | clear => exact .inl ⟨rfl, rfl⟩
  | ask r =>
    refine .inr ⟨nofun, ?_⟩
    simp only [Operation.next]
    cases answered c r with
    | misread ch _ h => exact .inl (by rw [h])
    | refused e _ _ h => exact .inl (by rw [h])
    | kept a _ _ h => exact .inl (by rw [h])
    | made regex _ _ _ h => exact .inr ⟨_, regex, by rw [h]⟩

/-- The object with a number has been given up: no entry has its number, nor will one. -/
def Gone (serial : Nat) (c : PatternCache) : Prop :=
  serial < c.compilations ∧ ∀ e ∈ c.entries, e.2.serial ≠ serial

/-- Numbers are not used again. -/
theorem Gone.next {serial : Nat} (h : Gone serial c) (op : Operation) :
    Gone serial (op.next c) := by
  rcases next_cases c op with ⟨-, hnext⟩ | ⟨-, hnext | ⟨k, regex, hnext⟩⟩ <;> rw [hnext]
  · exact ⟨h.1, fun _ he => nomatch he⟩
  · exact h
  · exact ⟨Nat.lt_succ_of_lt h.1, List.forall_mem_cons.mpr ⟨Nat.ne_of_gt h.1, h.2⟩⟩

theorem Gone.foldl_next {serial : Nat} (h : Gone serial c) (ops : List Operation) :
    Gone serial (ops.foldl Operation.next c) := by
  induction ops generalizing c with
  | nil => exact h
  | cons op ops ih => exact ih (h.next op)

variable {e : (Text × Flags) × Compiled} {ops : List Operation}

/-- An entry stays until the cache is cleared. -/
theorem mem_foldl_next (he : e ∈ c.entries) (hops : .clear ∉ ops) :
    e ∈ (ops.foldl Operation.next c).entries := by
  induction ops generalizing c with
  | nil => exact he
  | cons op ops ih =>
    rw [List.mem_cons, not_or] at hops
    refine ih ?_ hops.2
    rcases next_cases c op with ⟨hclear, -⟩ | ⟨-, hnext | ⟨k, regex, hnext⟩⟩
    · exact absurd hclear.symm hops.1
    · rwa [hnext]
    · rw [hnext]
      exact List.mem_cons_of_mem _ he

/-- When the cache is cleared, its objects are given up for good. -/
theorem gone_foldl_next (h : Reflects keys c) (he : e ∈ c.entries) (hops : .clear ∈ ops) :
    Gone e.2.serial (ops.foldl Operation.next c) := by
  obtain ⟨before, later, rfl, hbefore⟩ := List.eq_append_cons_of_mem hops
  have hlast := (h.foldl_next before).numbered e (mem_foldl_next he hbefore)
  have hgone : Gone e.2.serial (before.foldl Operation.next c).clear :=
    ⟨hlast, fun _ he => nomatch he⟩
  rw [List.foldl_append]
  exact hgone.foldl_next later

/-- Requests are answered with one object if and only if they have one key and the cache is not
cleared between them. -/
theorem answer_serial_eq_iff (h : Reflects keys c) {r r' : Request} {flags flags' : Flags}
    {a a' : Answer} (hanswer : r.answer c = .ok (flags, a))
    (hanswer' : r'.answer (ops.foldl Operation.next a.cache) = .ok (flags', a')) :
    a.compiled.serial = a'.compiled.serial ↔ r.key = r'.key ∧ .clear ∉ ops := by
  obtain ⟨hreflects, -, k, hmem, hk⟩ := h.answer hanswer
  obtain ⟨hreflects', -, k', hmem', hk'⟩ := (hreflects.foldl_next ops).answer hanswer'
  have hnext : (ops ++ [Operation.ask r']).foldl Operation.next a.cache = a'.cache := by
    simp only [List.foldl_append, List.foldl_cons, List.foldl_nil, Operation.next, hanswer']
  -- The later request is one more operation, and clears nothing.
  have hclear : Operation.clear ∈ ops ++ [Operation.ask r'] ↔ .clear ∈ ops := by simp
  by_cases hops : .clear ∈ ops
  · have hgone := gone_foldl_next hreflects hmem (hclear.mpr hops)
    rw [hnext] at hgone
    exact iff_of_false (hgone.2 _ hmem').symm fun hboth => hboth.2 hops
  · have hstays := mem_foldl_next hmem (mt hclear.mp hops)
    rw [hnext] at hstays
    rw [hreflects'.serial_eq_iff hstays hmem', hk, hk', and_iff_left hops]

/-- Why a request fails: the first character that names no flag is reported, and only if there is
none, what is wrong with the source. -/
inductive Request.Refused (r : Request) : PatternError → Prop where
  | flag (ch : Char) (h : r.letters.find? (!Flags.isLetter ·) = some ch) :
    r.Refused (.unsupportedFlag ch r.letters)
  | source (cause : Regex.SyntaxError) (hread : r.letters.find? (!Flags.isLetter ·) = none)
    (h : Regex.compile (Flags.ofLetters r.letters).modes r.source = .error cause) :
    r.Refused (.invalidPattern r.source cause)

theorem refused_iff (r : Request) (e : PatternError) :
    Pattern.compile r.source r.letters = .error e ↔ r.Refused e := by
  rw [Pattern.compile_eq]
  cases hread : r.letters.find? (!Flags.isLetter ·) with
  | some ch =>
    constructor
    · rintro ⟨⟩
      exact .flag ch hread
    · rintro (⟨ch', h⟩ | ⟨cause, h, -⟩)
      · rw [hread, Option.some.injEq] at h
        rw [h]
      · rw [hread] at h
        cases h
  | none =>
    simp only [Pattern.compileRegex]
    cases hregex : Regex.compile (Flags.ofLetters r.letters).modes r.source with
    | ok regex =>
      refine iff_of_false nofun ?_
      rintro (⟨ch, h⟩ | ⟨cause, -, h⟩)
      · rw [hread] at h
        cases h
      · rw [hregex] at h
        cases h
    | error cause =>
      constructor
      · rintro ⟨⟩
        exact .source cause hread hregex
      · rintro (⟨ch, h⟩ | ⟨cause', -, h⟩)
        · rw [hread] at h
          cases h
        · rw [hregex, Except.error.injEq] at h
          rw [h]
          rfl

/-- Whatever was done with a cache before, a request gives what compiling the pattern anew gives,
and fails where that fails, which leaves the cache as it is. The cache holds as many patterns as
have been obtained since it was cleared, and reports a compilation where a pattern is obtained for
the first time since. Two requests are given one object if and only if they have one source, have
the same of the letters `i`, `m` and `s`, and the cache is not cleared between them. -/
theorem answer_after_history (history : List Operation) (r : Request) :
    (afterHistory history).size = (keysObtained history).card ∧
      (r.answer (afterHistory history)).map (fun given => given.2.pattern r.source given.1) =
        Pattern.compile r.source r.letters ∧
      (∀ e, r.answer (afterHistory history) = .error e ↔ r.Refused e) ∧
      (∀ e, r.answer (afterHistory history) = .error e →
        (Operation.ask r).next (afterHistory history) = afterHistory history ∧
          r.printed (afterHistory history) = []) ∧
      (∀ p, Pattern.compile r.source r.letters = .ok p →
        r.printed (afterHistory history) =
          if r.key ∈ keysObtained history then [] else compilationLine r.source p.flags) ∧
      ∀ before r₀ ops flags₀ a₀ flags a, history = before ++ .ask r₀ :: ops →
        r₀.answer (afterHistory before) = .ok (flags₀, a₀) →
        r.answer (afterHistory history) = .ok (flags, a) →
          (a₀.compiled.serial = a.compiled.serial ↔
            (r₀.source = r.source ∧ ∀ ch ∈ "ims".toList, ch ∈ r₀.letters ↔ ch ∈ r.letters) ∧
              .clear ∉ ops) := by
  have h := reflects_afterHistory history
  have hmap := h.map_answer r
  refine ⟨h.size_eq, hmap, fun e => ?_, fun e he => ?_, fun p hp => ?_, ?_⟩
  · rw [← refused_iff, ← hmap]
    cases r.answer (afterHistory history) with
    | error e' => simp only [Except.map, Except.error.injEq]
    | ok given => exact iff_of_false nofun nofun
  · simp only [Operation.next, Request.printed, he, and_self]
  · rw [hp] at hmap
    cases hanswer : r.answer (afterHistory history) with
    | error e => rw [hanswer] at hmap; cases hmap
    | ok given =>
      obtain ⟨flags, a⟩ := given
      rw [hanswer] at hmap
      cases hmap
      have hnew := (h.answer hanswer).2.1
      simp only [Request.printed, hanswer, Answer.trace]
      by_cases hmem : r.key ∈ keysObtained history
      · rw [if_pos hmem, if_neg fun htrue => hnew.mp htrue hmem]
      · rw [if_neg hmem, if_pos (hnew.mpr hmem)]
        rfl
  · rintro before r₀ ops flags₀ a₀ flags a rfl hanswer₀ hanswer
    have hnext : afterHistory (before ++ .ask r₀ :: ops) =
        ops.foldl Operation.next a₀.cache := by
      simp only [afterHistory, List.foldl_append, List.foldl_cons, Operation.next]
      rw [← afterHistory, hanswer₀]
    rw [hnext] at hanswer
    rw [answer_serial_eq_iff (reflects_afterHistory before) hanswer₀ hanswer, Request.key,
      Request.key, Prod.mk.injEq, Flags.engineLetters_eq_iff]

theorem answer_after_history_same_letters :
    ∃ flags₀ a₀ flags a,
      Request.answer {} (.pattern ['a'] "gi".toList) = .ok (flags₀, a₀) ∧
        Request.answer (afterHistory [.ask (.pattern ['a'] "gi".toList), .ask (.pattern ['('] []),
          .ask (.pattern ['a'] ['m'])]) (.program ['a'] { ignoreCase := true }) =
            .ok (flags, a) ∧ a₀.compiled.serial = a.compiled.serial := by
  refine ⟨_, _, _, _, rfl, rfl, ?_⟩
  have h := (answer_after_history [.ask (.pattern ['a'] "gi".toList), .ask (.pattern ['('] []),
    .ask (.pattern ['a'] ['m'])] (.program ['a'] { ignoreCase := true })).2.2.2.2.2
  have hsame : ∀ ch ∈ ['i', 'm', 's'], ch ∈ ['g', 'i'] ↔ ch ∈ ['i'] := by simp
  exact (h [] _ _ _ _ _ _ rfl rfl rfl).mpr ⟨⟨rfl, hsame⟩, by simp⟩

end PatternCache

end RegexText
