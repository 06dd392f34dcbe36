import RegexText.Proofs.Pattern.Coordinates
import RegexText.Proofs.Pattern.Explode

/-!
# Global matches

A global match gathers the successive matches from the offset on (`Pattern.matchAll_eq`): it starts
where the first of them does, and since each ends later than those before, its last index is that of
the last one that is not empty (`max?_eq_getLast?`).

A search that counts bytes gathers them one by one. It turns the two bounds of each span into
character indices, going on from the bound before, and keeps the largest last index so far
(`Gathering.add`). That comes to the same (`Pattern.matchAllInBytes_eq`).

The main statement is `Pattern.matchAt_gathers`.
-/

namespace RegexText

/-! ## Gathering matches one by one -/

/-- What has been gathered of the matches in a text that a search reports in bytes. -/
structure Gathering where
  /-- The place that the text has been gone through to. -/
  walk : Text.OffsetWalk
  /-- The index of the first match. -/
  index : Option Nat := none
  /-- The largest index of the last character of a match so far. -/
  lastIndex : Option Nat := none
  /-- The texts of the matches. -/
  values : List (Option Text) := []

/-- What has been gathered after the match at `s`, in bytes of `t`, whose first character has index
`offset`. -/
def Gathering.add (t : Text) (offset : Nat) (g : Gathering) (s : Span) : Gathering :=
  let before := g.walk.seek s.start
  let behind := before.seek s.stop
  let start := offset + before.chars
  let stop := offset + behind.chars
  { walk := behind
    index := g.index.or (some start)
    lastIndex :=
      if start < stop then some (g.lastIndex.elim (stop - 1) (max · (stop - 1)))
      else g.lastIndex
    values := g.values ++ [some ((s.ofBytes t).text t)] }

/-- All matches in `t` from `offset` on, gathered in one, where the search counts bytes. -/
def Pattern.matchAllInBytes (p : Pattern) (t : Text) (offset : Nat) : Option Match :=
  if t.length ≤ offset then none
  else
    let rest := t.drop (t.charIndex (t.byteOffset offset))
    let spans := (p.regex.findAll rest).map fun c => (c.toBytes rest).whole
    let g := spans.foldl (Gathering.add rest offset) { walk := .start rest }
    g.index.map fun index => ⟨g.values, index, g.lastIndex⟩

namespace Gathering

variable {t : Text} {g : Gathering}

/-- One more span is gathered by its bounds in characters. -/
theorem add_toBytes (offset : Nat) (hg : g.walk.Knows t) {s : Span} (hs : s.Inside t.length) :
    ∃ walk : Text.OffsetWalk, walk.Knows t ∧
      g.add t offset (s.toBytes t) =
        { walk
          index := g.index.or (some (offset + s.start))
          lastIndex :=
            if s.isEmpty then g.lastIndex
            else some (g.lastIndex.elim (offset + s.stop - 1) (max · (offset + s.stop - 1)))
          values := g.values ++ [some (s.text t)] } := by
  obtain ⟨hbefore, hstart⟩ := hg.seek (t.byteOffset s.start)
  obtain ⟨hbehind, hstop⟩ := hbefore.seek (t.byteOffset s.stop)
  rw [Text.charIndex_byteOffset_of_le hs.start_le] at hstart
  rw [Text.charIndex_byteOffset_of_le hs.stop_le] at hstop
  have hstart' : (g.walk.seek (s.toBytes t).start).chars = s.start := hstart
  have hstop' : ((g.walk.seek (s.toBytes t).start).seek (s.toBytes t).stop).chars = s.stop := hstop
  refine ⟨_, hbehind, ?_⟩
  simp only [add, hstart', hstop', Span.ofBytes_toBytes hs, Span.isEmpty, decide_eq_true_eq,
    ← Nat.not_le, ite_not, Nat.add_le_add_iff_left]
  rfl

/-- A running maximum is the maximum of all. -/
theorem max?_toList_append_cons (last : Option Nat) (n : Nat) (ns : List Nat) :
    (last.toList ++ n :: ns).max? = ((some (last.elim n (max · n))).toList ++ ns).max? := by
  cases last <;> rfl

/-- What is gathered of all spans: the index of the first, the largest last index, the texts. -/
theorem foldl_add (offset : Nat) {spans : List Span} (hg : g.walk.Knows t)
    (h : ∀ s ∈ spans, s.Inside t.length) :
    let g' := (spans.map (·.toBytes t)).foldl (add t offset) g
    g'.index = g.index.or (spans.head?.map (offset + ·.start)) ∧
      g'.lastIndex = (g.lastIndex.toList ++
        (spans.filter (!·.isEmpty)).map (offset + ·.stop - 1)).max? ∧
      g'.values = g.values ++ spans.map fun s => some (s.text t) := by
  induction spans generalizing g with
  | nil =>
    refine ⟨Option.or_none.symm, ?_, (List.append_nil _).symm⟩
    cases hlast : g.lastIndex <;> simp [hlast]
  | cons s spans ih =>
    obtain ⟨hs, hlater⟩ := List.forall_mem_cons.mp h
    obtain ⟨walk, hwalk, hadd⟩ := add_toBytes offset hg hs
    rw [List.map_cons, List.foldl_cons, hadd]
    obtain ⟨hindex, hlast, hvalues⟩ := ih (g := ⟨walk, _, _, _⟩) hwalk hlater
    refine ⟨?_, ?_, ?_⟩
    · rw [hindex]
      cases g.index <;> rfl
    · rw [hlast, List.filter_cons]
      cases s.isEmpty with
      | true => rfl
      | false => exact (max?_toList_append_cons _ _ _).symm
    · rw [hvalues, List.map_cons, List.append_assoc]
      rfl

end Gathering

/-! ## Matches that lie one after the other -/

variable {t : Text} {i : Nat} {m first : Match} {ms : List Match}

theorem Laid.placed (h : Laid t i ms) : ∀ m ∈ ms, m.Placed t i := by
  induction ms generalizing i with
  | nil => exact fun m hm => nomatch hm
  | cons m ms ih =>
    obtain ⟨hm, hlater⟩ := h
    have hle := Nat.le_trans hm.lo_le hm.index_le
    exact List.forall_mem_cons.mpr ⟨hm, fun m' hm' => (ih hlater m' hm').mono hle⟩

/-- No match starts before the first of them. -/
theorem Laid.index_le (h : Laid t i (first :: ms)) :
    ∀ m ∈ first :: ms, first.index ≤ m.index := by
  obtain ⟨hfirst, hlater⟩ := h
  have hle := hfirst.index_le
  exact List.forall_mem_cons.mpr ⟨Nat.le_refl _, fun m hm =>
    Nat.le_trans hle (hlater.placed m hm).lo_le⟩

theorem Match.Placed.index_lt_stop (h : m.Placed t i) (hne : m.text ≠ []) : m.index < m.stop := by
  have hlen := h.length_text
  have hpos := List.length_pos_iff.mpr hne
  omega

/-- Each match ends no later than those behind it. -/
theorem Regex.InOrder.pairwise {lo hi : Nat} {cs : List Regex.Captures}
    (h : Regex.InOrder hi lo cs) : cs.Pairwise fun c c' => c.whole.stop ≤ c'.whole.stop := by
  induction cs generalizing lo with
  | nil => exact .nil
  | cons c cs ih =>
    obtain ⟨-, hlater⟩ := h
    refine .cons (fun c' hc' => ?_) (ih hlater)
    have hw := hlater.within c' hc'
    exact Nat.le_trans hw.lo_le hw.start_le

theorem max?_eq_getLast? {ns : List Nat} (h : ns.Pairwise (· ≤ ·)) : ns.max? = ns.getLast? := by
  cases hlast : ns.getLast? with
  | none => rw [List.getLast?_eq_none_iff.mp hlast, List.max?_nil]
  | some n =>
    obtain ⟨earlier, rfl⟩ := List.getLast?_eq_some_iff.mp hlast
    have hle := (List.pairwise_append.mp h).2.2
    rw [List.max?_eq_some_iff]
    refine ⟨List.mem_append_right _ List.mem_cons_self, fun k hk => ?_⟩
    rcases List.mem_append.mp hk with hk | hk
    · exact hle k hk n List.mem_cons_self
    · exact Nat.le_of_eq (List.mem_singleton.mp hk)

/-- The last index of matches that lie one after the other is that of the last that is not empty. -/
theorem lastIndexOf?_eq_getLast? {k lo : Nat} {cs : List Regex.Captures}
    (h : Regex.InOrder (t.drop k).length lo cs) :
    Match.lastIndexOf? k (cs.map (·.whole)) =
      ((cs.map (Match.ofCaptures (t.drop k) k)).filter (!·.text.isEmpty)).getLast?.map
        (·.stop - 1) := by
  have hempty : ∀ c ∈ cs, ((!·.text.isEmpty) ∘ Match.ofCaptures (t.drop k) k) c =
      (!c.whole.isEmpty) := by
    intro c hc
    have hw := h.within c hc
    have hlen : (c.whole.text (t.drop k)).length = c.whole.stop - c.whole.start :=
      Text.length_slice _ hw.le_hi
    have hiff : (c.whole.text (t.drop k)).isEmpty = c.whole.isEmpty := by
      rw [Bool.eq_iff_iff, List.isEmpty_iff_length_eq_zero, hlen, Span.isEmpty, decide_eq_true_eq]
      omega
    exact congrArg not hiff
  have hstop : ∀ c ∈ cs.filter (!·.whole.isEmpty),
      (Match.ofCaptures (t.drop k) k c).stop - 1 = k + c.whole.stop - 1 := fun c hc => by
    rw [Match.stop_ofCaptures _ k (h.within c (List.mem_filter.mp hc).1)]
  have hsorted : ((cs.filter (!·.whole.isEmpty)).map (k + ·.whole.stop - 1)).Pairwise (· ≤ ·) := by
    refine List.pairwise_map.mpr ((h.pairwise.filter _).imp fun hle => ?_)
    omega
  rw [Match.lastIndexOf?, List.filter_map, List.map_map, List.filter_map, List.filter_congr hempty,
    ← List.getLast?_map, List.map_map]
  exact (max?_eq_getLast? hsorted).trans (congrArg List.getLast? (List.map_congr_left hstop).symm)

namespace Pattern

variable {p : Pattern} {offset : Nat}

/-- A search that counts bytes gathers the same. -/
theorem matchAllInBytes_eq (p : Pattern) (t : Text) (offset : Nat) :
    p.matchAllInBytes t offset = p.matchAll t offset := by
  unfold matchAllInBytes matchAll
  split
  · rfl
  · rename_i hlt
    dsimp only
    rw [Text.charIndex_byteOffset_of_le (Nat.le_of_not_le hlt)]
    have hinside : ∀ s ∈ (p.regex.findAll (t.drop offset)).map (·.whole),
        s.Inside (t.drop offset).length := by
      intro s hs
      obtain ⟨c, hc, rfl⟩ := List.mem_map.mp hs
      have hw := (Regex.findAll_inOrder p.regex (t.drop offset)).within c hc
      exact ⟨Nat.le_trans hw.start_le hw.le_hi, hw.le_hi⟩
    have hbytes : (p.regex.findAll (t.drop offset)).map (fun c => (c.toBytes (t.drop offset)).whole) =
        ((p.regex.findAll (t.drop offset)).map (·.whole)).map (·.toBytes (t.drop offset)) := by
      rw [List.map_map]
      rfl
    obtain ⟨hfirst, hlast, hvalues⟩ := Gathering.foldl_add offset
      (g := { walk := .start (t.drop offset) }) (Text.OffsetWalk.knows_start _) hinside
    rw [hbytes, hfirst, hlast, hvalues]
    cases (p.regex.findAll (t.drop offset)).map (·.whole) <;> rfl

/-! ## What is gathered -/

/-- The global match is gathered from the successive matches. -/
theorem matchAll_eq (p : Pattern) (h : offset < t.length) :
    p.matchAll t offset = (p.matchesFrom t offset).head?.map fun first =>
      ⟨(p.matchesFrom t offset).map fun m => some m.text, first.index,
        ((p.matchesFrom t offset).filter (!·.text.isEmpty)).getLast?.map (·.stop - 1)⟩ := by
  have hlast := lastIndexOf?_eq_getLast? (k := offset) (Regex.findAll_inOrder p.regex (t.drop offset))
  simp only [matchAll, if_neg (Nat.not_le.mpr h), matchesFrom, Nat.min_eq_left (Nat.le_of_lt h),
    ← hlast, List.map_map]
  cases p.regex.findAll (t.drop offset) with
  | nil => rfl
  | cons c cs =>
    simp only [List.map_cons, List.map_map, Match.ofOccurrences]
    rfl

/-- The first match is the first of the successive matches. -/
theorem matchFirst_eq_head? (p : Pattern) (h : offset < t.length) :
    p.matchFirst t offset = (p.matchesFrom t offset).head? := by
  simp only [matchFirst, if_neg (Nat.not_le.mpr h), matchesFrom, Nat.min_eq_left (Nat.le_of_lt h),
    Regex.findAll, List.head?_map]
  cases p.regex.find? (t.drop offset) 0 <;> rfl

/-- At an offset inside the text, one search finds the successive matches, at which `explode` cuts
and which `replace` replaces. A global match is present if and only if there is a first match, and
the same where bytes are counted. It reports the texts of the successive matches in their order,
starts as the first match does, and its last index is that of the last match that is not empty,
absent if there is none. Byte offsets turned into indices one after the other, in any order, give
the indices that they have each by itself. -/
theorem matchAt_gathers (p : Pattern) (hg : p.flags.global = true) (h : offset < t.length) :
    ∃ ms, ms = p.matchesFrom t offset ∧
      (ms.map (·.text) = (p.regex.findAll (t.drop offset)).map (·.whole.text (t.drop offset)) ∧
        p.spansFrom t offset = ms.map Match.span ∧
        (∀ policy trim, p.explode policy trim t offset =
          ((Segmentation.ofMatches t 0 ms).exploded policy trim).filter (!·.isEmpty)) ∧
        ∀ template, p.replace t template offset =
          (Segmentation.ofMatches t 0 ms).replaced fun _ m => m.expand template) ∧
      (p.matchAt t offset).isSome = (p.matchFirst t offset).isSome ∧
      p.matchAt t offset = p.matchAllInBytes t offset ∧
      (∀ m, p.matchAt t offset = some m →
        m.values = ms.map (fun m => some m.text) ∧
          (∃ first, p.matchFirst t offset = some first ∧ m.index = first.index ∧
            m.value? 0 = first.value? 0) ∧
          m.lastIndex = (ms.filter (!·.text.isEmpty)).getLast?.map (·.stop - 1) ∧
          (m.lastIndex = none ↔ ∀ m' ∈ ms, m'.text = []) ∧
          ∀ last, m.lastIndex = some last → m.index ≤ last) ∧
      ∀ u bs, Text.charIndices u bs = bs.map u.charIndex := by
  have hall : p.matchAt t offset = p.matchAll t offset := by
    rw [matchAt, matchWith, hg]
    rfl
  have htexts : (p.matchesFrom t offset).map (·.text) =
      (p.regex.findAll (t.drop offset)).map (·.whole.text (t.drop offset)) := by
    simp only [matchesFrom, Nat.min_eq_left (Nat.le_of_lt h), List.map_map]
    rfl
  refine ⟨_, rfl, ⟨htexts, p.spansFrom_eq t offset, fun policy trim =>
    p.explode_eq_exploded policy trim t offset, fun template =>
    p.replace_eq_replaced t template offset⟩, ?_, hall.trans (p.matchAllInBytes_eq t offset).symm,
    fun m hm => ?_, Text.charIndices_eq⟩
  · rw [hall, p.matchAll_eq h, p.matchFirst_eq_head? h, Option.isSome_map]
  · rw [hall, p.matchAll_eq h] at hm
    obtain ⟨first, hfirst, rfl⟩ := Option.map_eq_some_iff.mp hm
    obtain ⟨more, hms⟩ := List.head?_eq_some_iff.mp hfirst
    have hlaid := p.laid_matchesFrom t offset
    rw [← p.matchFirst_eq_head? h] at hfirst
    refine ⟨rfl, ⟨first, hfirst, rfl, ?_⟩, rfl, ?_, fun last hlast => ?_⟩
    · rw [value?_zero_of_matchFirst hfirst, hms]
      rfl
    · simp only [Option.map_eq_none_iff, List.getLast?_eq_none_iff, List.filter_eq_nil_iff,
        Bool.not_eq_true', Bool.not_eq_false, List.isEmpty_iff]
    · obtain ⟨m, hm, rfl⟩ := Option.map_eq_some_iff.mp hlast
      obtain ⟨hmem, hne⟩ := List.mem_filter.mp (List.mem_of_getLast? hm)
      rw [hms] at hlaid hmem
      have hlt := (hlaid.placed m hmem).index_lt_stop (by simpa using hne)
      have hle := hlaid.index_le m hmem
      show first.index ≤ m.stop - 1
      omega

/-- Every run of `b`s, also the empty one. -/
def allRuns : Pattern :=
  ⟨['b', '*'], { global := true }, .ofExpr (.repeated true ⟨0, none⟩ (.chars (.single 'b')))⟩

theorem compile_allRuns : compile ['b', '*'] ['g'] = .ok allRuns := rfl

theorem matchAt_gathers_runs :
    allRuns.flags.global = true ∧ 1 < "é€bb😀b".toList.length ∧
      allRuns.matchAt "é€bb😀b".toList 1 =
        some ⟨[some [], some ['b', 'b'], some ['b']], 1, some 5⟩ ∧
      allRuns.matchAt "é€bb😀b".toList 1 = allRuns.matchAllInBytes "é€bb😀b".toList 1 ∧
      (∃ first, allRuns.matchFirst "é€bb😀b".toList 1 = some first ∧ 1 = first.index ∧
        some [] = first.value? 0) ∧
      1 ≤ 5 := by
  have hg : allRuns.flags.global = true := rfl
  have hlt : 1 < "é€bb😀b".toList.length := by decide
  have hm : allRuns.matchAt "é€bb😀b".toList 1 =
      some ⟨[some [], some ['b', 'b'], some ['b']], 1, some 5⟩ := by rfl
  obtain ⟨ms, -, -, -, hbytes, hgathers, -⟩ := matchAt_gathers allRuns hg hlt
  obtain ⟨-, hfirst, -, -, hle⟩ := hgathers _ hm
  exact ⟨hg, hlt, hm, hbytes, hfirst, hle 5 rfl⟩

end Pattern

end RegexText
