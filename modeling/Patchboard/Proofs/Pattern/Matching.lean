import Patchboard.Proofs.Pattern.Reading

set_option autoImplicit false

/-!
What the pattern of a literal search matches. At a point the pattern of a text ends behind the text
or nowhere, and the pattern of the end of a file ends at the end of the text or nowhere. So the
search from the left finds the first occurrence of the text, or the longest closing of the file.
-/

namespace Patchboard.Pattern

theorem testBit_insert (s : Places) (pos i : Nat) :
    (s.insert pos).testBit i = (s.testBit i || decide (pos = i)) := by
  simp [Places.insert, Nat.testBit_or, Nat.one_shiftLeft, Nat.testBit_two_pow]

theorem firstOfEach_eq_self (seen : Places) (ps : List Point)
    (hseen : ∀ p ∈ ps, seen.testBit p.pos = false) (h : (ps.map (·.pos)).Nodup) :
    firstOfEach seen ps = ps := by
  induction ps generalizing seen with
  | nil => rfl
  | cons p ps ih =>
    have hp : seen.testBit p.pos = false := hseen p (List.mem_cons_self ..)
    rw [List.map_cons, List.nodup_cons] at h
    rw [firstOfEach, if_neg (by simp [hp]), ih]
    · intro q hq
      have hne : p.pos ≠ q.pos := by
        intro he
        exact h.1 (List.mem_map.2 ⟨q, hq, he.symm⟩)
      rw [testBit_insert, hseen q (List.mem_cons_of_mem _ hq)]
      simp [hne]
    · exact h.2

theorem distinct_eq_self {ps : List Point} (h : (ps.map (·.pos)).Nodup) : distinct ps = ps := by
  unfold distinct
  split
  · rfl
  · rfl
  · exact firstOfEach_eq_self 0 ps (by simp) h

theorem andThen_eq_flatMap (f : Point → List Point) {ps : List Point}
    (h : ((ps.flatMap f).map (·.pos)).Nodup) : andThen f ps = ps.flatMap f := by
  unfold andThen
  split
  · simp
  · exact distinct_eq_self h

namespace Point

def past (p : Point) : List Char → Point
  | [] => p
  | c :: t => (p.next c (p.rest.drop 1)).past t

theorem pos_past (p : Point) (t : List Char) : (p.past t).pos = p.pos + t.length := by
  induction t generalizing p with
  | nil => rfl
  | cons c t ih =>
    rw [past, ih, List.length_cons]
    simp only [next]
    omega

theorem rest_past (p : Point) (t : List Char) : (p.past t).rest = p.rest.drop t.length := by
  induction t generalizing p with
  | nil => simp [past]
  | cons c t ih =>
    rw [past, ih]
    simp [next]

theorem groups_past (p : Point) (t : List Char) : (p.past t).groups = p.groups := by
  induction t generalizing p with
  | nil => rfl
  | cons c t ih => exact ih _

end Point

theorem mem_single (c d : Char) : (CharSet.single c).mem d = decide (c = d) := by
  simp only [CharSet.single, CharSet.mem]
  by_cases h : c = d
  · subst h
    simp
  · have : ¬ (c ≤ d ∧ d ≤ c) := fun hcd => h (Char.le_antisymm hcd.1 hcd.2)
    simpa [h] using this

theorem ends_single (c : Char) (p : Point) :
    (Node.one (.single c)).ends p = if [c].isPrefixOf p.rest then [p.past [c]] else [] := by
  unfold Node.ends
  cases hr : p.rest with
  | nil => rfl
  | cons d rest =>
    by_cases h : c = d
    · subst h
      simp [mem_single, List.isPrefixOf, Point.past, hr]
    · simp [mem_single, List.isPrefixOf, h]

def chainFrom (b : Node) (t : List Char) : Node :=
  t.foldl (fun b c => .seq b (.one (.single c))) b

theorem ends_seq (a b : Node) (p : Point) : (Node.seq a b).ends p = andThen b.ends (a.ends p) := by
  rw [Node.ends]

theorem ends_chainFrom (b : Node) (t : List Char) (p : Point) :
    (b.ends p = [] → (chainFrom b t).ends p = []) ∧
    ∀ q, b.ends p = [q] →
      (chainFrom b t).ends p = if t.isPrefixOf q.rest then [q.past t] else [] := by
  induction t generalizing b with
  | nil =>
    refine ⟨fun h => h, fun q h => ?_⟩
    simpa [chainFrom, Point.past] using h
  | cons c t ih =>
    obtain ⟨ihn, ihs⟩ := ih (.seq b (.one (.single c)))
    constructor
    · intro h
      apply ihn
      rw [ends_seq, h]
      rfl
    · intro q h
      have hq : (Node.seq b (.one (.single c))).ends p =
          if [c].isPrefixOf q.rest then [q.past [c]] else [] := by
        rw [ends_seq, h]
        exact ends_single c q
      change (chainFrom (.seq b (.one (.single c))) t).ends p = _
      cases hr : q.rest with
      | nil =>
        rw [hr] at hq
        simpa using ihn (by simpa using hq)
      | cons d rest =>
        rw [hr] at hq
        by_cases hc : c = d
        · subst hc
          have h1 := ihs (q.past [c]) (by simpa using hq)
          rw [h1, Point.rest_past, hr]
          simp [Point.past]
        · have hn : (c == d) = false := by simpa using hc
          simpa [hc] using ihn (by simpa [hc] using hq)

theorem chain_some (b : Node) (t : List Char) : chain (some b) t = some (chainFrom b t) := by
  induction t generalizing b with
  | nil => rfl
  | cons c t ih => exact ih _

theorem chain_cons (c : Char) (t : List Char) :
    chain none (c :: t) = some (chainFrom (.one (.single c)) t) := chain_some _ t

theorem ends_chain (t : List Char) (p : Point) :
    ((chain none t).getD .empty).ends p = if t.isPrefixOf p.rest then [p.past t] else [] := by
  cases t with
  | nil => simp [chain, Node.ends, Point.past]
  | cons c t =>
    rw [chain_cons, Option.getD_some]
    have hone := ends_single c p
    obtain ⟨hn, hs⟩ := ends_chainFrom (.one (.single c)) t p
    cases hr : p.rest with
    | nil =>
      rw [hr] at hone
      exact hn (by simpa using hone)
    | cons d rest =>
      rw [hr] at hone
      by_cases hc : c = d
      · subst hc
        rw [hs (p.past [c]) (by simpa using hone), Point.rest_past, hr]
        simp [Point.past]
      · simpa [hc] using hn (by simpa [hc] using hone)

theorem ends_join (t : List Char) (n : Node) (p : Point) :
    (join (chain none t) n).ends p = if t.isPrefixOf p.rest then n.ends (p.past t) else [] := by
  cases t with
  | nil => simp [chain, join, Point.past]
  | cons c t =>
    have h := ends_chain (c :: t) p
    rw [chain_cons, Option.getD_some] at h
    rw [chain_cons, join, ends_seq, h]
    by_cases hp : (c :: t).isPrefixOf p.rest
    · simp [hp, andThen]
    · simp [hp, andThen, distinct]

theorem ends_tagNode (p : Point) : tagNode.ends p =
    if ['\n', '?', '>'].isPrefixOf p.rest then [p.past ['\n', '?', '>']] else [] :=
  ends_chain ['\n', '?', '>'] p

theorem ends_optional (n : Node) (p : Point) :
    (n.optional true).ends p = distinct (n.ends p ++ [p]) := by
  simp [Node.optional, Node.ends]

theorem ends_optional_group (index : Nat) {n : Node} {c : Char} {t : List Char} (p : Point)
    (h : n.ends p = if (c :: t).isPrefixOf p.rest then [p.past (c :: t)] else []) :
    ((Node.group index n).optional true).ends p =
      if (c :: t).isPrefixOf p.rest then [(p.past (c :: t)).close index p.pos, p] else [p] := by
  rw [ends_optional, Node.ends, h]
  split
  · rw [distinct_eq_self]
    · rfl
    · simp [Point.close, Point.pos_past]
  · rfl

theorem ends_closingMark (p : Point) : closingMark.ends p =
    if ['\n', '?', '>'].isPrefixOf p.rest then [(p.past ['\n', '?', '>']).close 1 p.pos, p]
    else [p] :=
  ends_optional_group 1 p (ends_tagNode p)

theorem ends_lineEnd (p : Point) : lineEnd.ends p =
    if ['\n'].isPrefixOf p.rest then [(p.past ['\n']).close 2 p.pos, p] else [p] :=
  ends_optional_group 2 p (ends_single '\n' p)

theorem ends_textEnd (p : Point) :
    (Node.look .textEnd).ends p = if p.rest.isEmpty then [p] else [] := by
  simp [Node.ends, Look.holds]

def closingEnds (q : Point) : List Point :=
  match q.rest with
  | ['\n', '?', '>', '\n'] =>
    [(((q.past ['\n', '?', '>']).close 1 q.pos).past ['\n']).close 2 (q.pos + 3)]
  | ['\n', '?', '>'] => [(q.past ['\n', '?', '>']).close 1 q.pos]
  | ['\n'] => [(q.past ['\n']).close 2 q.pos]
  | [] => [q]
  | _ => []

theorem andThen_textEnd {ps : List Point} (h : (ps.map (·.pos)).Nodup) :
    andThen (Node.look .textEnd).ends ps = ps.filter (·.rest.isEmpty) := by
  have hf : ps.flatMap (Node.look .textEnd).ends = ps.filter (·.rest.isEmpty) := by
    induction ps with
    | nil => rfl
    | cons p ps ih =>
      rw [List.map_cons, List.nodup_cons] at h
      rw [List.flatMap_cons, ih h.2, ends_textEnd]
      by_cases hp : p.rest.isEmpty <;> simp [hp]
  rw [andThen_eq_flatMap, hf]
  rw [hf]
  exact h.sublist (List.Sublist.map _ List.filter_sublist)

/-- The points behind an optional line end, from the point behind an optional tag and from the
point before it. -/
theorem andThen_lineEnd_tag {q : Point} {rest : List Char}
    (h : q.rest = '\n' :: '?' :: '>' :: rest) :
    andThen lineEnd.ends (closingMark.ends q) =
      lineEnd.ends ((q.past ['\n', '?', '>']).close 1 q.pos) ++ lineEnd.ends q := by
  have hm : closingMark.ends q = [(q.past ['\n', '?', '>']).close 1 q.pos, q] := by
    simp [ends_closingMark, h]
  rw [hm]
  have hn {ps : List Point} (hps : ((ps.flatMap lineEnd.ends).map (·.pos)).Nodup) :=
    andThen_eq_flatMap lineEnd.ends hps
  rw [hn]
  · simp
  · by_cases hr : ['\n'].isPrefixOf rest
    · simp [ends_lineEnd, h, hr, Point.close, Point.past, Point.next]
      omega
    · simp [ends_lineEnd, h, hr, Point.close, Point.past, Point.next]
      omega

theorem ends_closing_tag {q : Point} {rest : List Char}
    (h : q.rest = '\n' :: '?' :: '>' :: rest) :
    andThen (Node.look .textEnd).ends (andThen lineEnd.ends (closingMark.ends q)) =
      closingEnds q := by
  rw [andThen_lineEnd_tag h]
  cases rest with
  | nil =>
    rw [andThen_textEnd]
    · simp [ends_lineEnd, h, Point.close, Point.past, Point.next, closingEnds]
    · simp [ends_lineEnd, h, Point.close, Point.past, Point.next]
      omega
  | cons c rest =>
    by_cases hc : '\n' = c
    · subst hc
      rw [andThen_textEnd]
      · cases rest <;>
          simp [ends_lineEnd, h, Point.close, Point.past, Point.next, closingEnds]
      · simp [ends_lineEnd, h, Point.close, Point.past, Point.next]
        omega
    · rw [andThen_textEnd]
      · have hc' : ¬ c = '\n' := fun he => hc he.symm
        simp [ends_lineEnd, h, hc, Point.close, Point.past, Point.next, closingEnds]
        split <;> simp_all
      · simp [ends_lineEnd, h, hc, Point.close, Point.past, Point.next]
        omega

theorem ends_closing (q : Point) :
    andThen (Node.look .textEnd).ends (andThen lineEnd.ends (closingMark.ends q)) =
      closingEnds q := by
  by_cases htag : ['\n', '?', '>'].isPrefixOf q.rest
  · obtain ⟨rest, h⟩ := List.isPrefixOf_iff_prefix.1 htag
    exact ends_closing_tag h.symm
  · have hm : closingMark.ends q = [q] := by simp [ends_closingMark, htag]
    rw [hm]
    change andThen (Node.look .textEnd).ends (lineEnd.ends q) = _
    rw [ends_lineEnd]
    split
    · rename_i hn
      obtain ⟨rest, h⟩ := List.isPrefixOf_iff_prefix.1 hn
      rw [andThen_textEnd]
      · cases rest with
        | nil => simp [← h, Point.close, Point.past, Point.next, closingEnds]
        | cons c rest =>
          have hq : q.rest = '\n' :: c :: rest := h.symm
          rw [hq] at htag
          simp only [Point.close, Point.past, Point.next, closingEnds, hq]
          split <;> simp_all
      · simp [Point.close, Point.past, Point.next]
    · rename_i hn
      rw [andThen_textEnd (by simp)]
      unfold closingEnds
      split <;> simp_all

theorem ends_endNode (t : List Char) (p : Point) : (endNode (chain none t)).ends p =
    if t.isPrefixOf p.rest then closingEnds (p.past t) else [] := by
  rw [endNode, ends_seq, ends_seq, ends_join]
  split
  · exact ends_closing _
  · rfl

/-- The first place, from the left, at which what follows is accepted: the text before it, and the
answer there. -/
def firstWhere {α : Type} (f : List Char → Option α) : List Char → Option (List Char × α)
  | [] => (f []).map fun a => ([], a)
  | c :: s =>
    match f (c :: s) with
    | some a => some ([], a)
    | none => (firstWhere f s).map fun hit => (c :: hit.1, hit.2)

theorem firstWhere_some {α : Type} {f : List Char → Option α} {s before : List Char} {a : α}
    (h : firstWhere f s = some (before, a)) :
    ∃ rest, s = before ++ rest ∧ f rest = some a ∧
      ∀ u v, s = u ++ v → u.length < before.length → f v = none := by
  induction s generalizing before with
  | nil =>
    obtain ⟨b, hb, he⟩ := Option.map_eq_some_iff.1 h
    cases he
    exact ⟨[], rfl, hb, fun _ _ _ hl => absurd hl (Nat.not_lt_zero _)⟩
  | cons c s ih =>
    unfold firstWhere at h
    split at h
    · rename_i b hb
      cases h
      exact ⟨c :: s, rfl, hb, fun _ _ _ hl => absurd hl (Nat.not_lt_zero _)⟩
    · rename_i hn
      obtain ⟨hit, hh, he⟩ := Option.map_eq_some_iff.1 h
      cases he
      obtain ⟨rest, hs, hf, hmin⟩ := ih hh
      refine ⟨rest, by simp [hs], hf, fun u v huv hl => ?_⟩
      cases u with
      | nil => rw [← List.nil_append v, ← huv, hn]
      | cons d u =>
        rw [List.cons_append, List.cons.injEq] at huv
        exact hmin u v huv.2 (by simpa using hl)

theorem firstWhere_none {α : Type} {f : List Char → Option α} {s : List Char}
    (h : firstWhere f s = none) (u v : List Char) (huv : s = u ++ v) : f v = none := by
  induction s generalizing u with
  | nil =>
    obtain ⟨-, rfl⟩ := List.append_eq_nil_iff.1 huv.symm
    simpa [firstWhere] using h
  | cons c s ih =>
    unfold firstWhere at h
    split at h
    · simp at h
    · rename_i hn
      cases u with
      | nil => rw [← List.nil_append v, ← huv, hn]
      | cons d u =>
        rw [List.cons_append, List.cons.injEq] at huv
        exact ih (by simpa using h) u huv.2

section Search
variable {α : Type} {n : Node} {f : List Char → Option α} {g : Point → α → Point}

theorem searchFrom_none (h : ∀ p, p.groups = [] → (n.ends p).head? = (f p.rest).map (g p))
    {s : List Char} (hs : firstWhere f s = none) (pos : Nat) (before : Option Char) :
    n.searchFrom pos before s = none := by
  induction s generalizing pos before with
  | nil =>
    have hf : f [] = none := by simpa [firstWhere] using hs
    simp [Node.searchFrom, h, hf]
  | cons c s ih =>
    have hf : f (c :: s) = none := firstWhere_none hs [] _ rfl
    have hn : n.ends ⟨pos, before, c :: s, []⟩ = [] := by
      simpa [hf] using h ⟨pos, before, c :: s, []⟩ rfl
    have hs' : firstWhere f s = none := by simpa [firstWhere, hf] using hs
    rw [Node.searchFrom, hn]
    exact ih hs' _ _

theorem searchFrom_some (h : ∀ p, p.groups = [] → (n.ends p).head? = (f p.rest).map (g p))
    {s first : List Char} {a : α} (hs : firstWhere f s = some (first, a)) (pos : Nat)
    (before : Option Char) : ∃ prev, n.searchFrom pos before s =
      some (pos + first.length, g ⟨pos + first.length, prev, s.drop first.length, []⟩ a) := by
  induction s generalizing pos before first with
  | nil =>
    obtain ⟨b, hb, he⟩ := Option.map_eq_some_iff.1 hs
    cases he
    exact ⟨before, by simp [Node.searchFrom, h, hb]⟩
  | cons c s ih =>
    rw [Node.searchFrom]
    have hp := h ⟨pos, before, c :: s, []⟩ rfl
    unfold firstWhere at hs
    split at hs
    · rename_i b hb
      cases hs
      rw [hb, Option.map_some, List.head?_eq_some_iff] at hp
      obtain ⟨qs, hq⟩ := hp
      exact ⟨before, by simp [hq]⟩
    · rename_i hf
      obtain ⟨hit, hh, he⟩ := Option.map_eq_some_iff.1 hs
      cases he
      have hn : n.ends ⟨pos, before, c :: s, []⟩ = [] := by simpa [hf] using hp
      obtain ⟨prev, hprev⟩ := ih hh (pos + 1) (some c)
      rw [hn]
      refine ⟨prev, ?_⟩
      have hl : pos + (c :: hit.1).length = pos + 1 + hit.1.length := by
        rw [List.length_cons]
        omega
      rw [hl]
      exact hprev

end Search

end Patchboard.Pattern
