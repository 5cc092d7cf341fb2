import Patchboard.Proofs.Pattern.Gaps
import Patchboard.Proofs.Search.Insertion

set_option autoImplicit false

/-!
A loose search finds its text up to the width of gaps. What it matches is the first region of the
file that collapses to what the searched text collapses to, with whole gaps at its ends, and the
addition takes the place of that region or is put before or behind it.
-/

namespace Patchboard.Search
open Pattern

/-- A search for a text up to the width of its gaps. -/
structure IsLoose (s : Search) : Prop where
  noPattern : s.isPattern = false
  loose : s.loose = true

def looseCompiled (s : Search) : Compiled :=
  let node := looseNode (collapse s.search.toList)
  ⟨s.wholePattern, if s.position = .replace then node else .group 1 node, s.replacement⟩

theorem compile_loose {s : Search} (hs : s.IsLoose) (hp : s.position ≠ .atEnd) :
    s.compile = .ok s.looseCompiled := by
  have hb : s.body = loosen (escape s.search.toList) := by simp [body, hs.noPattern, hs.loose]
  have hread : Node.parse? s.wholePattern = some s.looseCompiled.node := by
    have halone := parse?_loosen s.search.toList
    have henclosed := parse?_loosen_enclosed s.search.toList
    rw [← hb] at halone henclosed
    cases hpos : s.position with
    | atEnd => exact absurd hpos hp
    | replace => simpa only [wholePattern, looseCompiled, hpos, if_true] using halone
    | before | after =>
      simpa only [wholePattern, looseCompiled, hpos, List.append_assoc, List.cons_append,
        reduceCtorEq, if_false] using henclosed
  rw [compile, hread]
  rfl

def looseStop (s : Search) (p : Point) (region : List Char) : Point :=
  if s.position = .replace then p.past region else (p.past region).close 1 p.pos

theorem head?_ends_loose (s : Search) (p : Point) :
    (s.looseCompiled.node.ends p).head? =
      (region? (collapse s.search.toList) p.rest).map (s.looseStop p) := by
  have hreach : ((looseNode (collapse s.search.toList)).ends p).head? =
      (region? (collapse s.search.toList) p.rest).map p.past := by
    rw [ends_looseNode]
    exact head?_reach (isNarrow_collapse _) (by simp) (by simp)
  unfold looseCompiled looseStop
  dsimp only
  split
  · exact hreach
  · rw [Node.ends, List.head?_map, hreach, Option.map_map]
    rfl

theorem rest_looseStop (s : Search) (p : Point) (region : List Char) :
    (s.looseStop p region).rest = p.rest.drop region.length := by
  unfold looseStop
  split <;> exact Point.rest_past ..

theorem find?_loose_none {s : Search} {h : List Char}
    (hnone : firstWhere (region? (collapse s.search.toList)) h = none) :
    s.looseCompiled.node.find? h = none := by
  rw [Node.find?, searchFrom_none (fun p _ => head?_ends_loose s p) hnone]
  rfl

theorem find?_loose_some {s : Search} {h before region : List Char}
    (hsome : firstWhere (region? (collapse s.search.toList)) h = some (before, region)) :
    ∃ f, s.looseCompiled.node.find? h = some f ∧
      LooseOccurrence s.search.toList h f.before f.matched f.after := by
  obtain ⟨prev, hfrom⟩ := searchFrom_some (fun p _ => head?_ends_loose s p) hsome 0 none
  obtain ⟨v, hh, hregion, hmin⟩ := firstWhere_some hsome
  obtain ⟨after, hv, hoccurs⟩ := looseOccurrence_of_region? hh hregion fun u w v' hsplit hw => by
    refine Nat.le_of_not_lt fun hlt => ?_
    obtain ⟨w', hw', -⟩ := exists_region? (s := w ++ v') rfl hw
    rw [hmin u (w ++ v') (by rw [hsplit, List.append_assoc]) hlt] at hw'
    cases hw'
  have hfind : ∃ f, s.looseCompiled.node.find? h = some f ∧ f.before = h.take before.length ∧
      f.after = (h.drop before.length).drop region.length := by
    refine ⟨_, by rw [Node.find?, hfrom]; rfl, ?_, ?_⟩
    · simp only [Nat.zero_add]
    · simp only [rest_looseStop]
  obtain ⟨f, hf, hbefore, hafter⟩ := hfind
  rw [hh, List.take_left] at hbefore
  rw [hh, List.drop_left, hv, List.drop_left] at hafter
  have hmatched := (eq_of_find? hf).symm.trans hoccurs.whole
  rw [hbefore, hafter] at hmatched
  refine ⟨f, hf, ?_⟩
  rw [hbefore, hafter, List.append_cancel_left (List.append_cancel_right hmatched)]
  exact hoccurs

theorem applyOnce_replacement {s : Search} (hp : s.position = .replace) {c : Compiled}
    (hc : s.compile = .ok c) {h : List Char} {f : Found} (hf : c.node.find? h = some f) :
    c.applyOnce h = edited s.position f.before f.matched f.after (hidden s.add.toList) := by
  rw [Compiled.applyOnce, hf]
  dsimp only
  rw [(compile_eq_ok hc).2, expand_pieces f (faithful_replacement s)]
  simp [replacement, edited, hp, Piece.expand]

theorem applyOnce_loose {s : Search} (hs : s.IsLoose) (hp : s.position ≠ .atEnd)
    {h : List Char} {f : Found} (hf : s.looseCompiled.node.find? h = some f) :
    s.looseCompiled.applyOnce h =
      edited s.position f.before f.matched f.after (hidden s.add.toList) := by
  have hc := compile_loose hs hp
  have hinsertion (hpos : s.position = .before ∨ s.position = .after) :
      s.looseCompiled.applyOnce h =
        edited s.position f.before f.matched f.after (hidden s.add.toList) := by
    have hnode : s.looseCompiled.node = .group 1 (looseNode (collapse s.search.toList)) :=
      if_neg (by rcases hpos with hpos | hpos <;> simp [hpos])
    exact applyOnce_insertion hpos hc hnode hf
  cases hpos : s.position with
  | atEnd => exact absurd hpos hp
  | replace => rw [← hpos]; exact applyOnce_replacement hpos hc hf
  | before => rw [← hpos]; exact hinsertion (.inl hpos)
  | after => rw [← hpos]; exact hinsertion (.inr hpos)

/-- A loose search is found where its text stands up to the width of gaps, and is carried out on the
first region where it does. -/
theorem loose_edits {s : Search} (hs : s.IsLoose) (hp : s.position ≠ .atEnd)
    (hadd : Clear s.add.toList) {h : List Char} (hh : Clear h) :
    ∃ c, s.compile = .ok c ∧
      (c.isFound h = true ↔ collapse s.search.toList <:+: collapse h) ∧
      (c.isFound h = true → ∃ f, c.node.find? h = some f ∧
        LooseOccurrence s.search.toList h f.before f.matched f.after ∧
        revealed (c.applyOnce h) =
          edited s.position f.before f.matched f.after s.add.toList) ∧
      (c.isFound h = false → revealed (c.applyOnce h) = h) := by
  refine ⟨s.looseCompiled, compile_loose hs hp, ?_⟩
  rw [Compiled.isFound_eq, infix_collapse_iff]
  cases hfirst : firstWhere (region? (collapse s.search.toList)) h with
  | none =>
    have hnone := find?_loose_none hfirst
    rw [hnone]
    have habsent {q : Prop} (hfound : (none : Option Found).isSome = true) : q := by cases hfound
    refine ⟨⟨habsent, ?_⟩, habsent, fun _ => ?_⟩
    · rintro ⟨before, region, after, hsplit, hregion⟩
      obtain ⟨w, hw, -⟩ := exists_region? (s := region ++ after) rfl hregion
      rw [firstWhere_none hfirst before (region ++ after) (by rw [hsplit, List.append_assoc])] at hw
      cases hw
    · rw [Compiled.applyOnce, hnone]
      exact revealed_of_clear hh
  | some hit =>
    obtain ⟨f, hf, hoccurs⟩ := find?_loose_some hfirst
    rw [hf]
    refine ⟨⟨fun _ => ⟨_, _, _, hoccurs.whole, hoccurs.same⟩, fun _ => rfl⟩, fun _ =>
      ⟨f, rfl, hoccurs, ?_⟩, fun hlost => by cases hlost⟩
    rw [applyOnce_loose hs hp hf]
    exact revealed_edited (hoccurs.whole ▸ hh) hadd

/-- A search that starts in a gap, in a text that first holds it without the gap. -/
theorem loose_edits_gap : (⟨.before, false, true, "\t(a  b", "$x"⟩ : Search).IsLoose ∧
    ∃ c, (⟨.before, false, true, "\t(a  b", "$x"⟩ : Search).compile = .ok c ∧
      c.isFound "(a b; \t(a\tb".toList = true ∧ ∃ f,
        c.node.find? "(a b; \t(a\tb".toList = some f ∧
        LooseOccurrence "\t(a  b".toList "(a b; \t(a\tb".toList f.before f.matched f.after ∧
        revealed (c.applyOnce "(a b; \t(a\tb".toList) =
          f.before ++ "$x".toList ++ f.matched ++ f.after := by
  have hs : (⟨.before, false, true, "\t(a  b", "$x"⟩ : Search).IsLoose := ⟨rfl, rfl⟩
  have hin : collapse "\t(a  b".toList <:+: collapse "(a b; \t(a\tb".toList :=
    ⟨"(a b;".toList, [], by decide⟩
  obtain ⟨c, hc, hiff, hedit, -⟩ :=
    loose_edits hs (by decide) (by decide) (h := "(a b; \t(a\tb".toList) (by decide)
  exact ⟨hs, c, hc, hiff.2 hin, hedit (hiff.2 hin)⟩

end Patchboard.Search
