import Patchboard.Proofs.Version.Numeric

set_option autoImplicit false

namespace Patchboard.Version

theorem isDigit_iff (c : Char) : c.isDigit = true ↔ 48 ≤ c.toNat ∧ c.toNat ≤ 57 := by
  simp [Char.isDigit, UInt32.le_iff_toNat_le]

theorem isBlank_of_isDigit {c : Char} (h : c.isDigit = true) : Text.isBlank c = false := by
  obtain ⟨hl, hu⟩ := (isDigit_iff c).1 h
  rw [Bool.eq_false_iff]
  simp only [ne_eq, Text.isBlank, Text.blankRanges, List.any_cons, List.any_nil, Bool.or_false,
    Bool.or_eq_true, Bool.and_eq_true, decide_eq_true_eq]
  omega

theorem toLower_of_isDigit {c : Char} (h : c.isDigit = true) : c.toLower = c := by
  have hc := (isDigit_iff c).1 h
  exact Char.toNat_inj.1 ((Text.toNat_toLower c).trans (if_neg (by omega)))

def IsVersionChar (c : Char) : Prop := c.isDigit = true ∨ c ∈ ['.', '*', '-']

theorem plain_of_versionChars {s : List Char} (h : ∀ c ∈ s, IsVersionChar c) : plain s = s := by
  induction s with
  | nil => rfl
  | cons c s ih =>
    rw [List.forall_mem_cons] at h
    have hc : Text.isBlank c = false ∧ c.toLower = c := by
      rcases h.1 with hd | hm
      · exact ⟨isBlank_of_isDigit hd, toLower_of_isDigit hd⟩
      · simp only [List.mem_cons, List.not_mem_nil, or_false] at hm
        rcases hm with rfl | rfl | rfl <;> decide
    rw [plain_cons, hc.1, hc.2, ih h.2]
    rfl

theorem Numeric.versionChars (v : Numeric) : ∀ c ∈ v.text, IsVersionChar c := by
  intro c hc
  rcases of_mem_text hc with rfl | hd
  · exact .inr (by simp)
  · exact .inl hd

theorem Numeric.plain_text (v : Numeric) : plain v.text = v.text :=
  plain_of_versionChars v.versionChars

theorem Numeric.normalize_text (v : Numeric) : normalize (String.ofList v.text) = v.text := by
  rw [normalize_eq, String.toList_ofList, v.plain_text]

/-- A numeric version, or one with stars for some of its runs; a star alone is none. -/
structure Pattern where
  segments : List (Option (List Char))
  nonempty : segments ≠ []
  digits : ∀ run, some run ∈ segments → IsRun run
  named : segments ≠ [none]

namespace Pattern

def text (p : Pattern) : List Char := ['.'].intercalate (p.segments.map fun s => s.getD ['*'])

def filled (p : Pattern) (star : List Char) (h : IsRun star) : Numeric where
  runs := p.segments.map fun s => s.getD star
  nonempty := by simpa using p.nonempty
  digits run hr := by
    obtain ⟨segment, hs, rfl⟩ := List.mem_map.1 hr
    cases segment with
    | none => exact h
    | some run => exact p.digits run hs

theorem isRun_low : IsRun Term.starLow := isRun_zero

theorem isRun_high : IsRun Term.starHigh :=
  ⟨by simp [Term.starHigh], by simp [Term.starHigh], show 999 < UInt64.size by decide⟩

def lower (p : Pattern) : Numeric := p.filled Term.starLow isRun_low

def upper (p : Pattern) : Numeric := p.filled Term.starHigh isRun_high

theorem fill_append (star s s' : List Char) :
    Term.fill star (s ++ s') = Term.fill star s ++ Term.fill star s' := List.flatMap_append

theorem fill_of_not_mem {star s : List Char} (h : '*' ∉ s) : Term.fill star s = s := by
  induction s with
  | nil => rfl
  | cons c s ih =>
    rw [List.mem_cons, not_or] at h
    rw [Term.fill, List.flatMap_cons, if_neg (Ne.symm h.1)]
    exact congrArg (c :: ·) (ih h.2)

theorem fill_segment (p : Pattern) (star : List Char) {segment : Option (List Char)}
    (h : segment ∈ p.segments) : Term.fill star (segment.getD ['*']) = segment.getD star := by
  cases segment with
  | none => exact List.append_nil star
  | some run => exact fill_of_not_mem ((p.digits run h).not_mem (by decide))

theorem fill_intercalate (star : List Char) (pieces : List (List Char)) :
    Term.fill star (['.'].intercalate pieces) = ['.'].intercalate (pieces.map (Term.fill star)) := by
  induction pieces with
  | nil => rfl
  | cons piece pieces ih =>
    cases pieces with
    | nil => rw [List.map_singleton, List.intercalate_singleton, List.intercalate_singleton]
    | cons next pieces =>
      rw [List.intercalate_cons_cons, fill_append, fill_append, ih, List.map_cons, List.map_cons,
        List.map_cons, List.intercalate_cons_cons]
      rfl

theorem fill_text (p : Pattern) (star : List Char) (h : IsRun star) :
    Term.fill star p.text = (p.filled star h).text := by
  rw [text, fill_intercalate, List.map_map, Numeric.text, filled]
  exact congrArg _ (List.map_congr_left fun segment hs => p.fill_segment star hs)

theorem versionChars (p : Pattern) : ∀ c ∈ p.text, c ≠ '-' ∧ IsVersionChar c := by
  intro c hc
  rcases Text.of_mem_intercalate hc with rfl | ⟨piece, hp, hm⟩
  · exact ⟨by decide, .inr (by simp)⟩
  · obtain ⟨segment, hs, rfl⟩ := List.mem_map.1 hp
    cases segment with
    | none =>
      obtain rfl := List.mem_singleton.1 hm
      exact ⟨by decide, .inr (by simp)⟩
    | some run =>
      have hd := (p.digits run hs).digits c hm
      refine ⟨?_, .inl hd⟩
      rintro rfl
      cases hd

theorem splitOn_text (p : Pattern) :
    Text.splitOn '.' p.text = p.segments.map fun s => s.getD ['*'] := by
  refine Text.splitOn_intercalate (by simpa using p.nonempty) fun piece hp => ?_
  obtain ⟨segment, hs, rfl⟩ := List.mem_map.1 hp
  cases segment with
  | none => decide
  | some run => exact (p.digits run hs).not_mem (by decide)

theorem exists_run_of_not_mem (p : Pattern) (h : '.' ∉ p.text) : IsRun p.text := by
  have hsplit := p.splitOn_text
  rw [Text.splitOn_of_not_mem h] at hsplit
  obtain ⟨segment, hs, hrun⟩ := List.map_eq_singleton_iff.1 hsplit.symm
  cases segment with
  | none => exact absurd hs p.named
  | some run =>
    have hr := p.digits run (by simp [hs])
    exact hrun ▸ hr

end Pattern

theorem versionChars_range (lower upper : Numeric) :
    ∀ c ∈ lower.text ++ '-' :: upper.text, IsVersionChar c := by
  simp only [List.forall_mem_append, List.forall_mem_cons]
  exact ⟨lower.versionChars, .inr (by simp), upper.versionChars⟩

/-- What a term of an expression over numeric versions may be. -/
inductive Form where
  | all
  | star
  | pattern (p : Pattern)
  | range (lower upper : Numeric)
  | malformed (text : List Char) (flat : ',' ∉ text)
    (rejected : Term.parse? (String.ofList text) = none)

namespace Form

def text : Form → List Char
  | all => "all".toList
  | star => ['*']
  | pattern p => p.text
  | range lower upper => lower.text ++ '-' :: upper.text
  | malformed text _ _ => text

/-- Whether a term admits a list of numbers: all of them, those between two bounds, or none. -/
def Admits (numbers : List Nat) : Form → Prop
  | all => True
  | star => True
  | pattern p => AtMost p.lower.numbers numbers ∧ AtMost numbers p.upper.numbers
  | range lower upper => AtMost lower.numbers numbers ∧ AtMost numbers upper.numbers
  | malformed _ _ _ => False

end Form

theorem Numeric.startsNumeric (v : Numeric) : Term.startsNumeric v.text = true := by
  obtain ⟨run, runs, hruns⟩ := List.exists_cons_of_ne_nil v.nonempty
  have hrun := v.digits run (by simp [hruns])
  obtain ⟨c, rest, rfl⟩ := List.exists_cons_of_ne_nil hrun.nonempty
  rw [text, hruns, intercalate_dots, List.cons_append, Term.startsNumeric,
    hrun.digits c (List.mem_cons_self ..)]
  rfl

namespace Term

theorem ne_all {s : List Char} (h : ∀ c ∈ s, IsVersionChar c) : s ≠ ['a', 'l', 'l'] := by
  rintro rfl
  have ha := h 'a' (by simp)
  revert ha
  simp [IsVersionChar]

theorem ofNormal?_of_versionChars {s : List Char} (h : ∀ c ∈ s, IsVersionChar c) (hne : s ≠ [])
    (hs : s ≠ ['*']) : ofNormal? s =
      match splitRange? s with
      | some (lower, upper) =>
        if lower.contains '*' || upper.contains '*' then none
        else some (.range (String.ofList lower) (String.ofList upper))
      | none =>
        if s.contains '*' then
          some (.range (String.ofList (fill starLow s)) (String.ofList (fill starHigh s)))
        else some (.exact (String.ofList s)) := by
  rw [ofNormal?, if_neg (by simpa using hne)]
  exact if_neg (by simp [ne_all h, hs])

theorem ofNormal?_range (lower upper : Numeric) :
    ofNormal? (lower.text ++ '-' :: upper.text) =
      some (.range (String.ofList lower.text) (String.ofList upper.text)) := by
  have hsplit : splitRange? (lower.text ++ '-' :: upper.text) = some (lower.text, upper.text) := by
    rw [splitRange?, Text.splitOnce?_append (lower.not_mem_text (by decide) (by decide))]
    dsimp only
    rw [lower.startsNumeric, upper.startsNumeric]
    simp [upper.not_mem_text (c := '-') (by decide) (by decide)]
  have hstar : lower.text ++ '-' :: upper.text ≠ ['*'] := by
    intro he
    have hm : '-' ∈ lower.text ++ '-' :: upper.text := by simp
    rw [he] at hm
    simp at hm
  rw [ofNormal?_of_versionChars (versionChars_range lower upper) (by simp) hstar, hsplit]
  simp [Numeric.not_mem_text _ (c := '*') (by decide) (by decide)]

theorem ofNormal?_pattern (p : Pattern) : ∃ t, ofNormal? p.text = some t ∧
    t.bounds? = some (String.ofList p.lower.text, String.ofList p.upper.text) := by
  have hsplit : splitRange? p.text = none := by
    rw [splitRange?, Text.splitOnce?_of_not_mem fun hm => (p.versionChars _ hm).1 rfl]
  have hrun := p.exists_run_of_not_mem
  have hne : p.text ≠ [] := by
    intro he
    exact (hrun (by simp [he])).nonempty he
  have hstar : p.text ≠ ['*'] := by
    intro he
    have hd := (hrun (by simp [he])).digits '*' (by simp [he])
    cases hd
  rw [ofNormal?_of_versionChars (fun c hc => (p.versionChars c hc).2) hne hstar, hsplit]
  dsimp only
  split
  · refine ⟨_, rfl, ?_⟩
    rw [p.fill_text _ Pattern.isRun_low, p.fill_text _ Pattern.isRun_high]
    rfl
  · rename_i hc
    have hs : '*' ∉ p.text := by simpa using hc
    refine ⟨_, rfl, ?_⟩
    rw [Pattern.lower, Pattern.upper, ← p.fill_text, ← p.fill_text, Pattern.fill_of_not_mem hs,
      Pattern.fill_of_not_mem hs]
    rfl

theorem contains_iff {t : Term} {lower upper n : Numeric} {v : String}
    (h : t.bounds? = some (String.ofList lower.text, String.ofList upper.text))
    (hv : normalize v = n.text) : t.contains v = true ↔
      AtMost lower.numbers n.numbers ∧ AtMost n.numbers upper.numbers := by
  unfold contains
  rw [h]
  dsimp only
  rw [Bool.and_eq_true, Numeric.le_iff lower.normalize_text hv,
    Numeric.le_iff hv upper.normalize_text]

end Term

theorem Form.contains_iff (form : Form) {v : String} {n : Numeric} (hv : normalize v = n.text) :
    (∃ t, Term.ofNormal? (plain form.text) = some t ∧ t.contains v = true) ↔
      form.Admits n.numbers := by
  cases form with
  | all => exact iff_of_true ⟨.any, rfl, rfl⟩ trivial
  | star => exact iff_of_true ⟨.any, rfl, rfl⟩ trivial
  | pattern p =>
    obtain ⟨t, ht, hb⟩ := Term.ofNormal?_pattern p
    have hplain : plain p.text = p.text :=
      plain_of_versionChars fun c hc => (p.versionChars c hc).2
    rw [text, hplain, ht]
    simp only [Option.some.injEq, exists_eq_left']
    exact Term.contains_iff hb hv
  | range lower upper =>
    rw [text, plain_of_versionChars (versionChars_range lower upper), Term.ofNormal?_range]
    simp only [Option.some.injEq, exists_eq_left']
    exact Term.contains_iff rfl hv
  | malformed s flat rejected =>
    rw [Term.parse?, normalize_eq, String.toList_ofList] at rejected
    rw [text, rejected]
    simp [Admits]

/-- The terms with commas between them. -/
def listed (forms : List Form) : List Char := [','].intercalate (forms.map Form.text)

theorem Form.not_mem_text (form : Form) : ',' ∉ form.text := by
  have hnone {s : List Char} (h : ∀ c ∈ s, IsVersionChar c) : ',' ∉ s := by
    intro hm
    have hc := h ',' hm
    revert hc
    simp [IsVersionChar]
  cases form with
  | all => decide
  | star => decide
  | pattern p => exact hnone fun c hc => (p.versionChars c hc).2
  | range lower upper => exact hnone (versionChars_range lower upper)
  | malformed s flat rejected => exact flat

theorem parseExpression_eq (expression : String) : parseExpression expression =
    (Text.splitOn ',' (plain expression.toList)).filterMap Term.ofNormal? := by
  have hparse : Term.parse? ∘ String.ofList = Term.ofNormal? ∘ plain := by
    funext s
    rw [Function.comp_apply, Term.parse?, normalize_eq, String.toList_ofList, Function.comp_apply]
  rw [parseExpression, Text.pieces, List.filterMap_map, hparse,
    splitOn_plain (by decide) (by decide), List.filterMap_map]

theorem parseExpression_of_spells {expression : String} {forms : List Form}
    (h : Spells expression.toList (listed forms)) : parseExpression expression =
      forms.filterMap fun form => Term.ofNormal? (plain form.text) := by
  have hflat : ∀ text ∈ forms.map Form.text, ',' ∉ text := by
    intro text ht
    obtain ⟨form, -, rfl⟩ := List.mem_map.1 ht
    exact form.not_mem_text
  rw [parseExpression_eq, h.plain_eq, splitOn_plain (by decide) (by decide), listed]
  cases forms with
  | nil => rfl
  | cons form forms =>
    rw [Text.splitOn_intercalate (by simp) hflat, List.filterMap_map, List.filterMap_map]
    rfl

theorem Numeric.parse?_of_spells {v : Numeric} {version : String}
    (h : Spells version.toList v.text) :
    Term.parse? version = some (.exact (String.ofList v.text)) := by
  have hstarts := v.startsNumeric
  have hne : v.text ≠ [] := by
    intro he
    rw [he] at hstarts
    cases hstarts
  have hstar : '*' ∉ v.text := v.not_mem_text (by decide) (by decide)
  have hlone : v.text ≠ ['*'] := by
    intro he
    exact hstar (by simp [he])
  have hsplit : Term.splitRange? v.text = none := by
    rw [Term.splitRange?, Text.splitOnce?_of_not_mem (v.not_mem_text (by decide) (by decide))]
  rw [Term.parse?, normalize_eq, h.plain_eq, v.plain_text,
    Term.ofNormal?_of_versionChars v.versionChars hne hlone, hsplit]
  simp [hstar]

/-- A numeric version matches an expression exactly when the list of its numbers lies within the
bounds of a term. Numeric versions are in the order of their numbers, by precedence as well as
segment by segment. -/
theorem isMatch_numeric (v : Numeric) (forms : List Form) {version expression : String}
    (hv : Spells version.toList v.text) (he : Spells expression.toList (listed forms)) :
    (isMatch version expression = true ↔ ∃ form ∈ forms, form.Admits v.numbers) ∧
      ∀ a b : Numeric,
        (le (String.ofList a.text) (String.ofList b.text) = true ↔ AtMost a.numbers b.numbers) ∧
          ∀ x y : Semantic, Semantic.parse? a.text = some x → Semantic.parse? b.text = some y →
            x.compare y = compareSegments (Text.splitOn '.' a.text) (Text.splitOn '.' b.text) := by
  refine ⟨?_, fun a b => ⟨Numeric.le_iff a.normalize_text b.normalize_text,
    fun x y => Numeric.compare_eq⟩⟩
  rw [isMatch, Numeric.parse?_of_spells hv]
  dsimp only
  rw [admits_exact, parseExpression_of_spells he, List.any_eq_true]
  simp only [List.mem_filterMap]
  constructor
  · rintro ⟨t, ⟨form, hf, ht⟩, hc⟩
    exact ⟨form, hf, (form.contains_iff v.normalize_text).1 ⟨t, ht, hc⟩⟩
  · rintro ⟨form, hf, ha⟩
    obtain ⟨t, ht, hc⟩ := (form.contains_iff v.normalize_text).2 ha
    exact ⟨t, ⟨form, hf, ht⟩, hc⟩

/-- Between a range that lies higher and a malformed term stands a wildcard with a blank in it. -/
theorem isMatch_numeric_wildcard : ∃ (v : Numeric) (forms : List Form),
    v.numbers = [2, 1, 4] ∧ Spells "2.1.4".toList v.text ∧
    Spells "2.2 - 3,2.1 .*,1.*-2.*".toList (listed forms) ∧
    isMatch "2.1.4" "2.2 - 3,2.1 .*,1.*-2.*" = true := by
  have hrun (c : Char) (hc : c ∈ ['1', '2', '3', '4']) : IsRun [c] := by
    have hb : 10 ≤ Semantic.bound := show 10 ≤ UInt64.size by decide
    simp only [List.mem_cons, List.not_mem_nil, or_false] at hc
    rcases hc with rfl | rfl | rfl | rfl <;>
      exact ⟨by simp, by simp, Nat.lt_of_lt_of_le (by decide) hb⟩
  let v : Numeric := ⟨[['2'], ['1'], ['4']], by simp, by simp [hrun]⟩
  let low : Numeric := ⟨[['2'], ['2']], by simp, by simp [hrun]⟩
  let high : Numeric := ⟨[['3']], by simp, by simp [hrun]⟩
  let p : Pattern := ⟨[some ['2'], some ['1'], none], by simp, by simp [hrun], by simp⟩
  let forms : List Form := [.range low high, .pattern p,
    .malformed ['1', '.', '*', '-', '2', '.', '*'] (by decide) (by decide +kernel)]
  have hv : Spells "2.1.4".toList v.text := by
    change Spells ['2', '.', '1', '.', '4'] ['2', '.', '1', '.', '4']
    repeat first | exact .nil | refine .char rfl ?_
  have he : Spells "2.2 - 3,2.1 .*,1.*-2.*".toList (listed forms) := by
    change Spells ['2', '.', '2', ' ', '-', ' ', '3', ',', '2', '.', '1', ' ', '.', '*', ',',
      '1', '.', '*', '-', '2', '.', '*'] ['2', '.', '2', '-', '3', ',', '2', '.', '1', '.', '*', ',',
      '1', '.', '*', '-', '2', '.', '*']
    repeat first | exact .nil | refine .char rfl ?_ | refine .blank rfl ?_
  have hp : (Form.pattern p).Admits v.numbers := by
    change AtMost [2, 1, 0] [2, 1, 4] ∧ AtMost [2, 1, 4] [2, 1, 999]
    exact ⟨.inr ⟨2, by decide, by decide⟩, .inr ⟨2, by decide, by decide⟩⟩
  exact ⟨v, forms, rfl, hv, he,
    (isMatch_numeric v forms hv he).1.2 ⟨.pattern p, by simp [forms], hp⟩⟩

end Patchboard.Version
