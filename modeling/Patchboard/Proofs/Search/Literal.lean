import Patchboard.Proofs.Search.Place

set_option autoImplicit false

namespace Patchboard.Search
open Pattern

def Piece.expand (f : Found) : Piece → List Char
  | .text chars => chars
  | .group index => f.group index

/-- A piece that says what it stands for: no dollar sign in its text, one of the two groups. -/
def Piece.Faithful : Piece → Prop
  | .text chars => '$' ∉ chars
  | .group index => index = 1 ∨ index = 2

theorem expand_append (f : Found) {t : List Char} (h : '$' ∉ t) (s : List Char) :
    Search.expand f (t ++ s) = t ++ Search.expand f s := by
  induction t with
  | nil => rfl
  | cons c t ih =>
    rw [List.mem_cons, not_or] at h
    have hc : c ≠ '$' := fun he => h.1 he.symm
    rw [List.cons_append, Search.expand, if_pos hc, ih h.2]
    rfl

theorem expand_group (f : Found) (digit : Char) (hd : digit.isDigit = true)
    (s : List Char) : Search.expand f ('$' :: '\x7b' :: digit :: '\x7d' :: s) =
      f.group (Text.digitValue digit) ++ Search.expand f s := by
  have hne : digit ≠ '\x7d' := by
    rintro rfl
    simp at hd
  have hr : reference? ('\x7b' :: digit :: '\x7d' :: s) = some ([digit], s) := by
    simp [reference?, hne, Text.after?]
  have hg : groupNamed f [digit] = f.group (Text.digitValue digit) := by
    simp [groupNamed, hd, Text.numeral]
  rw [Search.expand, if_neg (by simp), if_neg (by simp)]
  split
  · rename_i name rest h
    rw [hr] at h
    cases h
    rw [hg]
  · rename_i h
    simp [hr] at h

theorem expand_render (f : Found) {p : Piece} (h : p.Faithful) (s : List Char) :
    Search.expand f (p.render ++ s) = p.expand f ++ Search.expand f s := by
  cases p with
  | text chars => exact expand_append f h s
  | group index =>
    rcases h with rfl | rfl
    · exact expand_group f '1' rfl s
    · exact expand_group f '2' rfl s

theorem expand_pieces (f : Found) {ps : List Piece} (h : ∀ p ∈ ps, p.Faithful) :
    Search.expand f (ps.flatMap Piece.render) = ps.flatMap (Piece.expand f) := by
  induction ps with
  | nil => rw [List.flatMap_nil, Search.expand]; rfl
  | cons p ps ih =>
    rw [List.flatMap_cons, expand_render f (h p (List.mem_cons_self ..)),
      ih fun q hq => h q (List.mem_cons_of_mem _ hq), List.flatMap_cons]

theorem dollar_not_mem_hidden (t : List Char) : '$' ∉ hidden t := by
  intro h
  obtain ⟨c, -, hc⟩ := List.mem_map.1 h
  unfold hide at hc
  split at hc
  · exact absurd hc (by decide)
  · split at hc
    · exact absurd hc (by decide)
    · rename_i hn _
      exact hn hc

theorem faithful_replacement (s : Search) : ∀ p ∈ s.replacement, p.Faithful := by
  have ht := dollar_not_mem_hidden s.add.toList
  unfold replacement
  cases s.position <;> simp only <;> (try split) <;> simp [Piece.Faithful, ht]

def stop (s : Search) (p : Point) : Point :=
  let q := p.past s.search.toList
  match s.position with
  | .replace => q
  | .before => q.close 1 p.pos
  | .after => q.close 1 p.pos
  | .atEnd => (closingEnds q).headD q

theorem head?_closingEnds (q : Point) : (closingEnds q).head? =
    if q.rest ∈ closings then some ((closingEnds q).headD q) else none := by
  unfold closingEnds
  split <;> simp_all [closings]

theorem head?_ends_literalNode (s : Search) (p : Point) :
    (s.literalNode.ends p).head? = (s.accepted? p.rest).map fun _ => s.stop p := by
  have htext (p : Point) : (((chain none s.search.toList).getD .empty).ends p).head? =
      (Text.after? s.search.toList p.rest).map fun _ => p.past s.search.toList := by
    rw [ends_chain, Text.after?_eq_ite]
    split <;> rfl
  cases hs : s.position with
  | atEnd =>
    simp only [literalNode, accepted?, stop, hs]
    rw [ends_endNode, closingAfter?, Text.after?_eq_ite]
    split
    · rw [head?_closingEnds, Point.rest_past]
      by_cases hc : p.rest.drop s.search.toList.length ∈ closings <;> simp [hc]
    · rfl
  | replace => simpa only [literalNode, accepted?, stop, hs] using htext p
  | before | after =>
    simp only [literalNode, accepted?, stop, hs]
    rw [Node.ends, List.head?_map, htext, Option.map_map]
    rfl

theorem groups_closingEnds {q : Point} {w : List Char} (hg : q.groups = [])
    (hc : q.rest ∈ closings) (hw : w.drop q.pos = q.rest) {f : Found}
    (hf : f.groups = ((closingEnds q).headD q).groups.map (groupText w)) :
    f.group 1 ++ f.group 2 = q.rest := by
  have hdrop (n : Nat) : w.drop (q.pos + n) = q.rest.drop n := by
    rw [← hw, List.drop_drop]
  have hthree : q.pos + 1 + 1 + 1 - q.pos = 3 := by omega
  simp only [closings, List.mem_cons, List.not_mem_nil, or_false] at hc
  rcases hc with h | h | h | h <;>
    simp [closingEnds, h, hg, Point.close, Point.past, Point.next, groupText, Found.group, hw,
      hdrop, hthree, hf]

theorem rest_closingEnds {q : Point} (hc : q.rest ∈ closings) :
    ((closingEnds q).headD q).rest = [] := by
  simp only [closings, List.mem_cons, List.not_mem_nil, or_false] at hc
  rcases hc with h | h | h | h <;>
    simp [closingEnds, h, Point.close, Point.past, Point.next]

def replaced (s : Search) (f : Found) : List Char :=
  f.before ++ s.replacement.flatMap (Piece.expand f) ++ f.after

theorem find?_literalNode_none {s : Search} {w : List Char} (h : s.place? w = none) :
    s.literalNode.find? w = none := by
  rw [← firstWhere_accepted?] at h
  rw [Node.find?, searchFrom_none (fun p _ => head?_ends_literalNode s p) h]
  rfl

theorem find?_literalNode_some {s : Search} {w before after : List Char}
    (h : s.place? w = some (before, after)) :
    ∃ f, s.literalNode.find? w = some f ∧ f.before = before ∧ s.replaced f =
        edited s.position before s.search.toList after (hidden s.add.toList) := by
  have hw := eq_of_place? h
  rw [← firstWhere_accepted?] at h
  obtain ⟨prev, hfrom⟩ := searchFrom_some (fun p _ => head?_ends_literalNode s p) h 0 none
  rw [Nat.zero_add] at hfrom
  have hdrop : w.drop before.length = s.search.toList ++ after := by simp [hw]
  have htake : w.take before.length = before := by simp [hw]
  let p : Point := ⟨before.length, prev, w.drop before.length, []⟩
  let f : Found :=
    { before := w.take before.length
      matched := (w.drop before.length).take ((s.stop p).pos - before.length)
      after := (s.stop p).rest
      groups := (s.stop p).groups.map (groupText w) }
  refine ⟨f, by rw [Node.find?, hfrom]; rfl, htake, ?_⟩
  cases hs : s.position with
  | replace =>
    simp [f, p, replaced, replacement, edited, stop, hs, Piece.expand, htake, Point.rest_past,
      hdrop]
  | before | after =>
    simp [f, p, replaced, replacement, edited, stop, hs, Piece.expand, htake, Point.rest_past,
      hdrop, Point.close, Point.groups_past, Point.pos_past, Found.group, groupText]
  | atEnd =>
    obtain ⟨rest, -, hacc, -⟩ := firstWhere_some h
    simp only [accepted?, hs] at hacc
    have hc : after ∈ closings := (closingAfter?_eq_some.1 hacc).1
    let q := p.past s.search.toList
    have hrest : q.rest = after := by simp [q, p, Point.rest_past, hdrop]
    have hpos : w.drop q.pos = q.rest := by
      rw [hrest]
      simp [q, p, Point.pos_past, hw]
    have hstop : s.stop p = (closingEnds q).headD q := by simp [stop, hs, q]
    have hend : f.after = [] := by
      simp only [f, hstop]
      exact rest_closingEnds (hrest.symm ▸ hc)
    have hgroups : f.group 1 ++ f.group 2 = after := by
      rw [← hrest]
      exact groups_closingEnds (Point.groups_past _ _) (hrest.symm ▸ hc) hpos
        (by simp only [f, hstop])
    have hbefore : f.before = before := htake
    by_cases he : s.search = ""
    · simp [replaced, replacement, edited, hs, Piece.expand, hbefore, hend, he, ← hgroups]
    · simp [replaced, replacement, edited, hs, Piece.expand, hbefore, hend, he, ← hgroups]

def literalCompiled (s : Search) : Compiled := ⟨s.wholePattern, s.literalNode, s.replacement⟩

theorem compile_literal {s : Search} (hs : s.IsLiteral) : s.compile = .ok s.literalCompiled := by
  rw [compile, parse?_wholePattern hs]
  rfl

theorem Compiled.isFound_eq (c : Compiled) (w : List Char) :
    c.isFound w = (c.node.find? w).isSome := by
  rw [Node.find?, Option.isSome_map]
  rfl

theorem isFound_literal (s : Search) (w : List Char) :
    s.literalCompiled.isFound w = (s.place? w).isSome := by
  have hm : s.literalCompiled.isFound w = (s.literalNode.find? w).isSome :=
    Compiled.isFound_eq _ _
  cases h : s.place? w with
  | none =>
    rw [hm, find?_literalNode_none h]
    rfl
  | some hit =>
    obtain ⟨f, hf, -⟩ := find?_literalNode_some h
    rw [hm, hf]
    rfl

theorem applyOnce_literal_none {s : Search} {w : List Char} (h : s.place? w = none) :
    s.literalCompiled.applyOnce w = w := by
  rw [Compiled.applyOnce, literalCompiled, find?_literalNode_none h]

theorem applyOnce_literal_some {s : Search} {w before after : List Char}
    (h : s.place? w = some (before, after)) : s.literalCompiled.applyOnce w =
      edited s.position before s.search.toList after (hidden s.add.toList) := by
  obtain ⟨f, hf, -, he⟩ := find?_literalNode_some h
  rw [Compiled.applyOnce, literalCompiled, hf, ← he]
  dsimp only
  rw [expand_pieces f (faithful_replacement s), replaced]

/-- A text with neither of the two characters that hide others. -/
def Clear (s : List Char) : Prop := hiddenDollar ∉ s ∧ hiddenBackslash ∉ s

instance (s : List Char) : Decidable (Clear s) :=
  inferInstanceAs (Decidable (hiddenDollar ∉ s ∧ hiddenBackslash ∉ s))

theorem reveal_of_ne {c : Char} (hd : c ≠ hiddenDollar) (hb : c ≠ hiddenBackslash) :
    reveal c = c := by
  rw [reveal, if_neg hd, if_neg hb]

theorem reveal_hide {c : Char} (hd : c ≠ hiddenDollar) (hb : c ≠ hiddenBackslash) :
    reveal (hide c) = c := by
  unfold hide
  split
  · rename_i h
    rw [h]
    rfl
  · split
    · rename_i h
      rw [h]
      rfl
    · exact reveal_of_ne hd hb

theorem ne_of_clear {s : List Char} (h : Clear s) {c : Char} (hc : c ∈ s) :
    c ≠ hiddenDollar ∧ c ≠ hiddenBackslash :=
  ⟨fun he => h.1 (he ▸ hc), fun he => h.2 (he ▸ hc)⟩

theorem revealed_of_clear {s : List Char} (h : Clear s) : revealed s = s := by
  have hs := List.map_congr_left fun c hc =>
    reveal_of_ne (ne_of_clear h hc).1 (ne_of_clear h hc).2
  exact hs.trans (List.map_id _)

theorem revealed_hidden {s : List Char} (h : Clear s) : revealed (hidden s) = s := by
  rw [revealed, hidden, List.map_map]
  have hs := List.map_congr_left fun c hc =>
    reveal_hide (ne_of_clear h hc).1 (ne_of_clear h hc).2
  exact hs.trans (List.map_id _)

theorem clear_append {s t : List Char} : Clear (s ++ t) ↔ Clear s ∧ Clear t := by
  simp only [Clear, List.mem_append, not_or]
  constructor
  · rintro ⟨⟨h, h'⟩, k, k'⟩
    exact ⟨⟨h, k⟩, h', k'⟩
  · rintro ⟨⟨h, k⟩, h', k'⟩
    exact ⟨⟨h, h'⟩, k, k'⟩

theorem map_edited {α β : Type} (f : α → β) (position : Position)
    (before searched after add : List α) :
    (edited position before searched after add).map f =
      edited position (before.map f) (searched.map f) (after.map f) (add.map f) := by
  cases position with
  | atEnd => cases searched <;> simp [edited]
  | replace | before | after => simp [edited]

theorem revealed_edited {position : Position} {before searched after add : List Char}
    (h : Clear (before ++ searched ++ after)) (hadd : Clear add) :
    revealed (edited position before searched after (hidden add)) =
      edited position before searched after add := by
  rw [clear_append, clear_append] at h
  rw [revealed, map_edited]
  have hr := revealed_of_clear h.1.1
  have hs := revealed_of_clear h.1.2
  have ht := revealed_of_clear h.2
  have ha := revealed_hidden hadd
  unfold revealed at hr hs ht ha
  rw [hr, hs, ht, ha]

theorem revealed_applyOnce {s : Search} (hadd : Clear s.add.toList) {h before after : List Char}
    (hh : Clear h) (hp : s.place? h = some (before, after)) :
    revealed (s.literalCompiled.applyOnce h) =
      edited s.position before s.search.toList after s.add.toList := by
  rw [applyOnce_literal_some hp]
  exact revealed_edited (eq_of_place? hp ▸ hh) hadd

/-- A literal search is a plain edit of the first place where its text stands; at the end of a file
an addition goes before the longest closing. -/
theorem literal_edits {s : Search} (hs : s.IsLiteral) (hadd : Clear s.add.toList)
    {h : List Char} (hh : Clear h) :
    ∃ c, s.compile = .ok c ∧
      (s.position ≠ .atEnd →
        (c.isFound h = true ↔ s.search.toList <:+: h) ∧
        (s.search.toList <:+: h → ∃ before after,
          Text.FirstOccurrence s.search.toList h before after ∧
          revealed (c.applyOnce h) =
            edited s.position before s.search.toList after s.add.toList) ∧
        (¬ s.search.toList <:+: h → revealed (c.applyOnce h) = h)) ∧
      (s.position = .atEnd → s.search = "" →
        c.isFound h = true ∧ ∃ body tail, LongestClosing h body tail ∧
          revealed (c.applyOnce h) = body ++ s.add.toList ++ tail) := by
  refine ⟨s.literalCompiled, compile_literal hs, fun hp => ?_, fun hp he => ?_⟩
  · have hplace : s.place? h = Text.cut? s.search.toList h := by
      unfold place?
      cases hpos : s.position with
      | atEnd => exact absurd hpos hp
      | replace | before | after => rfl
    refine ⟨?_, fun hin => ?_, fun hout => ?_⟩
    · rw [isFound_literal, hplace]
      exact Text.infix_of_cut?
    · obtain ⟨⟨before, after⟩, hc⟩ := Option.isSome_iff_exists.1 (Text.infix_of_cut?.2 hin)
      exact ⟨before, after, Text.firstOccurrence_of_cut? hc,
        revealed_applyOnce hadd hh (hplace.trans hc)⟩
    · have hnone : s.place? h = none := by
        rw [hplace]
        exact Option.not_isSome_iff_eq_none.1 fun hc => hout (Text.infix_of_cut?.1 hc)
      rw [applyOnce_literal_none hnone, revealed_of_clear hh]
  · obtain ⟨body, tail, hc, hl⟩ := closingPlace?_nil h
    have hplace : s.place? h = some (body, tail) := by
      simp only [place?, hp, he]
      exact hc
    refine ⟨by rw [isFound_literal, hplace]; rfl, body, tail, hl, ?_⟩
    rw [revealed_applyOnce hadd hh hplace, hp, he]
    rfl

theorem literal_edits_group : (literal .after "f($a)" "\\n$\x7b1\x7d").IsLiteral ∧
    ∃ c, (literal .after "f($a)" "\\n$\x7b1\x7d").compile = .ok c ∧
      c.isFound "f(x) f($a)".toList = true ∧
      ∃ before after, Text.FirstOccurrence "f($a)".toList "f(x) f($a)".toList before after ∧
        revealed (c.applyOnce "f(x) f($a)".toList) =
          before ++ "f($a)".toList ++ "\\n$\x7b1\x7d".toList ++ after := by
  have hs : (literal .after "f($a)" "\\n$\x7b1\x7d").IsLiteral := ⟨rfl, rfl⟩
  have hin : "f($a)".toList <:+: "f(x) f($a)".toList := ⟨"f(x) ".toList, [], by decide⟩
  obtain ⟨c, hc, hplain, -⟩ := literal_edits hs (by decide) (h := "f(x) f($a)".toList) (by decide)
  obtain ⟨hfound, hedit, -⟩ := hplain (by decide)
  exact ⟨hs, c, hc, hfound.2 hin, hedit hin⟩

end Patchboard.Search
