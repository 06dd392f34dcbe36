import RegexText.Proofs.Pattern.Enumeration
import RegexText.Proofs.Text.Offset

/-!
# Coordinates of single matches

A search that counts bytes works on the rest of a text behind a byte offset and reports its spans in
bytes of that rest. A match counts characters of the whole text. Each bound of a span is turned into
a character index of the rest and then counted from the start of the text
(`Match.ofByteCaptures`), which comes to the same as a search that counts characters from the start
(`Pattern.matchFirstInBytes_eq`).

What a match then says of itself agrees with the text: its index and its end enclose its first
value (`Match.Placed`), its last index is that of its last character, although it is taken from all
groups (`Match.Placed.lastIndex_eq`), and the groups stand inside of it
(`Match.values_infix_text`).

The main statement is `Pattern.matchFirst_coordinates`.
-/

namespace RegexText

/-! ## Spans in bytes -/

/-- The stretch of `t` in bytes. -/
def Span.toBytes (t : Text) (s : Span) : Span := ⟨t.byteOffset s.start, t.byteOffset s.stop⟩

/-- The stretch of `t` in characters that the stretch `s` of its bytes holds. -/
def Span.ofBytes (t : Text) (s : Span) : Span := ⟨t.charIndex s.start, t.charIndex s.stop⟩

/-- The match found in `t` with its spans in bytes. -/
def Regex.Captures.toBytes (t : Text) (c : Captures) : Captures :=
  ⟨c.whole.toBytes t, c.groups.map (·.map (·.toBytes t))⟩

/-- The match found in `t`, whose first character has index `offset`, where the spans are in bytes
of `t`. -/
def Match.ofByteCaptures (t : Text) (offset : Nat) (c : Regex.Captures) : Match where
  values := some ((c.whole.ofBytes t).text t) ::
    c.groups.map (·.map fun s => (s.ofBytes t).text t)
  index := offset + t.charIndex c.whole.start
  lastIndex := (((c.whole :: c.groups.filterMap id).filter (!·.isEmpty)).map fun s =>
    offset + t.charIndex s.stop - 1).max?

/-- The first match in `t` from `offset` on, where the search counts bytes. -/
def Pattern.matchFirstInBytes (p : Pattern) (t : Text) (offset : Nat) : Option Match :=
  if t.length ≤ offset then none
  else
    let rest := t.drop (t.charIndex (t.byteOffset offset))
    (p.regex.find? rest 0).map fun c => Match.ofByteCaptures rest offset (c.toBytes rest)

namespace Span

variable {t : Text} {s : Span}

/-- The span lies in a text of `n` characters. -/
structure Inside (n : Nat) (s : Span) : Prop where
  start_le : s.start ≤ n
  stop_le : s.stop ≤ n

theorem ofBytes_toBytes (h : s.Inside t.length) : (s.toBytes t).ofBytes t = s := by
  show (⟨t.charIndex (t.byteOffset s.start), t.charIndex (t.byteOffset s.stop)⟩ : Span) = s
  rw [Text.charIndex_byteOffset_of_le h.start_le, Text.charIndex_byteOffset_of_le h.stop_le]

theorem isEmpty_toBytes (h : s.Inside t.length) : (s.toBytes t).isEmpty = s.isEmpty := by
  show decide (t.byteOffset s.stop ≤ t.byteOffset s.start) = decide (s.stop ≤ s.start)
  rw [decide_eq_decide, Text.byteOffset_le_iff h.start_le h.stop_le]

end Span

namespace Regex

variable {re : Regex} {t : Text} {i : Nat} {c : Captures}

/-- No group starts after the end of the match. -/
theorem matchAt?_groups_start_le {before : Option Char} {pos : Nat} {rest : Text}
    (h : re.matchAt? before pos rest = some c) {s : Span} (hs : some s ∈ c.groups) :
    s.start ≤ c.whole.stop := by
  obtain ⟨⟨stop, marks⟩, hr, rfl⟩ := Option.map_eq_some_iff.mp h
  have hstart : ThreadsWithin pos pos [⟨0, []⟩] := by
    simp [ThreadsWithin, Marks.within_nil]
  obtain ⟨-, -, hm⟩ := Program.run_bounds rest (Nat.le_refl _)
    (Program.threadsFrom_within (Nat.le_refl _) hstart) hr
  obtain ⟨j, -, hj⟩ := List.mem_map.mp hs
  simp only [groupSpan?, Option.bind_eq_bind, Option.bind_eq_some_iff, Option.pure_def,
    Option.some.injEq] at hj
  obtain ⟨start, hlookup, stop', -, rfl⟩ := hj
  exact (hm.lookup hlookup).2

/-- All spans of a match lie in the text. -/
theorem find?_spans_inside (h : re.find? t i = some c) :
    c.whole.Inside t.length ∧ ∀ s, some s ∈ c.groups → s.Inside t.length := by
  have hw := find?_within h
  have hle := hw.le_hi
  have hstart := hw.start_le
  refine ⟨⟨by omega, hle⟩, fun s hs => ⟨?_, Nat.le_trans (hw.groups s hs).2 hle⟩⟩
  unfold find? at h
  split at h
  · obtain ⟨_, _, _, hmatch⟩ := exists_matchAt?_of_scan h
    exact Nat.le_trans (matchAt?_groups_start_le hmatch hs) hle
  · cases h

end Regex

namespace Match

variable {t : Text} {offset lo : Nat} {m : Match} {c : Regex.Captures}

theorem lastIndexOf?_toBytes (offset : Nat) {spans : List Span}
    (h : ∀ s ∈ spans, s.Inside t.length) :
    (((spans.map (·.toBytes t)).filter (!·.isEmpty)).map fun s =>
      offset + t.charIndex s.stop - 1).max? = lastIndexOf? offset spans := by
  have hempty : ∀ s ∈ spans, ((!·.isEmpty) ∘ (·.toBytes t)) s = !s.isEmpty := fun s hs => by
    rw [Function.comp_apply, Span.isEmpty_toBytes (h s hs)]
  rw [lastIndexOf?, List.filter_map, List.filter_congr hempty, List.map_map]
  congr 1
  refine List.map_congr_left fun s hs => ?_
  have hin := h s (List.mem_filter.mp hs).1
  show offset + t.charIndex (t.byteOffset s.stop) - 1 = _
  rw [Text.charIndex_byteOffset_of_le hin.stop_le]

/-- Read off its spans in bytes, a match is the same. -/
theorem ofByteCaptures_eq (hwhole : c.whole.Inside t.length)
    (hgroups : ∀ s, some s ∈ c.groups → s.Inside t.length) :
    ofByteCaptures t offset (c.toBytes t) = ofCaptures t offset c := by
  have hspans : ∀ s ∈ c.whole :: c.groups.filterMap id, s.Inside t.length := by
    refine List.forall_mem_cons.mpr ⟨hwhole, fun s hs => ?_⟩
    obtain ⟨group, hgroup, rfl⟩ := List.mem_filterMap.mp hs
    exact hgroups s hgroup
  have hlast := lastIndexOf?_toBytes offset hspans
  have hbytes : (c.toBytes t).whole :: (c.toBytes t).groups.filterMap id =
      (c.whole :: c.groups.filterMap id).map (·.toBytes t) := by
    simp only [Regex.Captures.toBytes, List.filterMap_map, List.map_cons, List.map_filterMap,
      Function.comp_def, id_eq]
  have hvalues : (c.toBytes t).groups.map (·.map fun s => (s.ofBytes t).text t) =
      c.groups.map (·.map (·.text t)) := by
    simp only [Regex.Captures.toBytes, List.map_map]
    refine List.map_congr_left fun group hgroup => ?_
    cases group with
    | none => rfl
    | some s =>
      show some (((s.toBytes t).ofBytes t).text t) = _
      rw [Span.ofBytes_toBytes (hgroups s hgroup)]
      rfl
  have hindex := Text.charIndex_byteOffset_of_le hwhole.start_le
  have hfirst : ((c.toBytes t).whole.ofBytes t).text t = c.whole.text t :=
    congrArg (·.text t) (Span.ofBytes_toBytes hwhole)
  rw [← hbytes] at hlast
  rw [ofByteCaptures, ofCaptures, hvalues, hlast, hfirst]
  exact congrArg (fun i => Match.mk _ (offset + i) _) hindex

/-! ## What a match says of itself -/

/-- The last index is that of the last character, if there is one. -/
theorem Placed.lastIndex_eq (h : m.Placed t lo) :
    m.lastIndex = if m.text.isEmpty then none else some (m.stop - 1) := by
  have hlen := h.length_text
  have hle := h.index_le
  cases hlast : m.lastIndex with
  | none =>
    obtain ⟨-, hstop⟩ := h.resume_of_none hlast
    have hnil : m.text = [] := List.eq_nil_of_length_eq_zero (by omega)
    rw [hnil]
    rfl
  | some last =>
    -- A walk goes on at the end of the match, so that lies after its start.
    obtain ⟨hresume, hstop⟩ := h.resume_of_some hlast
    have hahead := h.resume_eq
    have htext : m.text ≠ [] := List.ne_nil_of_length_pos (by omega)
    rw [if_neg (by simpa using htext), hstop, Nat.add_sub_cancel]

/-- The values of a match stand in its text. -/
theorem values_infix_text {hi : Nat} (h : c.Within lo hi) {g : Text}
    (hg : some g ∈ (ofCaptures t offset c).values) : g <:+: (ofCaptures t offset c).text := by
  show g <:+: c.whole.text t
  rcases List.mem_cons.mp hg with hg | hg
  · obtain rfl : g = c.whole.text t := Option.some.inj hg
    exact List.infix_refl _
  · obtain ⟨group, hgroup, heq⟩ := List.mem_map.mp hg
    obtain ⟨s, rfl, rfl⟩ := Option.map_eq_some_iff.mp heq
    obtain ⟨hstart, hstop⟩ := h.groups s hgroup
    exact Text.slice_infix t hstart hstop

end Match

namespace Pattern

variable {p : Pattern} {t : Text} {offset : Nat} {m : Match}

/-- A search that counts bytes finds the same. -/
theorem matchFirstInBytes_eq (p : Pattern) (t : Text) (offset : Nat) :
    p.matchFirstInBytes t offset = p.matchFirst t offset := by
  unfold matchFirstInBytes matchFirst
  split
  · rfl
  · rename_i hlt
    dsimp only
    rw [Text.charIndex_byteOffset_of_le (Nat.le_of_not_le hlt)]
    cases hc : p.regex.find? (t.drop offset) 0 with
    | none => rfl
    | some c =>
      obtain ⟨hwhole, hgroups⟩ := Regex.find?_spans_inside hc
      exact congrArg some (Match.ofByteCaptures_eq hwhole hgroups)

/-- Inside a text there is a first match if and only if the pattern matches at all. -/
theorem isSome_matchFirst (h : offset < t.length) :
    (p.matchFirst t offset).isSome = p.test t offset := by
  rw [matchFirst, if_neg (by omega), test, if_neg (by omega), Option.isSome_map]

theorem values_infix_of_matchFirst (h : p.matchFirst t offset = some m) {g : Text}
    (hg : some g ∈ m.values) : g <:+: m.text := by
  unfold matchFirst at h
  split at h
  · cases h
  · obtain ⟨c, hc, rfl⟩ := Option.map_eq_some_iff.mp h
    exact Match.values_infix_text (Regex.find?_within hc) hg

theorem value?_zero_of_matchFirst (h : p.matchFirst t offset = some m) :
    m.value? 0 = some m.text := by
  unfold matchFirst at h
  split at h
  · cases h
  · obtain ⟨c, -, rfl⟩ := Option.map_eq_some_iff.mp h
    rfl

/-- A first match is found inside the text only, where the pattern matches at all, by a search that
counts bytes as by one that counts characters. It lies in the text from the offset on, its index and
its end enclose its first value, its last index is that of its last character, absent if it is
empty, and its groups stand inside of it. -/
theorem matchFirst_coordinates (p : Pattern) (t : Text) (offset : Nat) :
    (t.length ≤ offset → p.matchFirst t offset = none) ∧
      (offset < t.length → (p.matchFirst t offset).isSome = p.test t offset) ∧
      p.matchFirst t offset = p.matchFirstInBytes t offset ∧
      ∀ m, p.matchFirst t offset = some m →
        offset ≤ m.index ∧ m.index ≤ m.stop ∧ m.stop ≤ t.length ∧
          m.value? 0 = some (t.slice m.index m.stop) ∧ m.stop = m.index + m.text.length ∧
          m.lastIndex = (if m.text.isEmpty then none else some (m.stop - 1)) ∧
          ∀ g, some g ∈ m.values → g <:+: m.text := by
  refine ⟨matchFirst_of_length_le, isSome_matchFirst, (matchFirstInBytes_eq p t offset).symm,
    fun m hm => ?_⟩
  have hplaced := matchFirst_placed hm
  have hindex := hplaced.index_le
  have hlen := hplaced.length_text
  refine ⟨hplaced.lo_le, hindex, hplaced.stop_le, ?_, by omega, hplaced.lastIndex_eq,
    fun g hg => values_infix_of_matchFirst hm hg⟩
  rw [value?_zero_of_matchFirst hm, hplaced.text_eq]

theorem matchFirst_coordinates_groups :
    optionalGroups.matchFirst "é€abb😀".toList 1 =
        some ⟨[some "abb".toList, some "bb".toList, none], 2, some 4⟩ ∧
      (1 < "é€abb😀".toList.length ∧ optionalGroups.test "é€abb😀".toList 1 = true) ∧
      ("é€abb😀".toList.length ≤ 6 ∧ optionalGroups.matchFirst "é€abb😀".toList 6 = none) ∧
      some "abb".toList = some (Text.slice "é€abb😀".toList 2 5) ∧ "bb".toList <:+: "abb".toList := by
  have hm : optionalGroups.matchFirst "é€abb😀".toList 1 =
      some ⟨[some "abb".toList, some "bb".toList, none], 2, some 4⟩ := by rfl
  have hlt : 1 < "é€abb😀".toList.length := by decide
  have hend : "é€abb😀".toList.length ≤ 6 := by decide
  obtain ⟨-, hsome, -, hplace⟩ := matchFirst_coordinates optionalGroups "é€abb😀".toList 1
  obtain ⟨-, -, -, hvalue, -, -, hgroups⟩ := hplace _ hm
  refine ⟨hm, ⟨hlt, ?_⟩, ⟨hend, (matchFirst_coordinates optionalGroups _ 6).1 hend⟩, hvalue,
    hgroups "bb".toList (List.mem_cons_of_mem _ List.mem_cons_self)⟩
  rw [← hsome hlt, hm]
  rfl

end Pattern

end RegexText
