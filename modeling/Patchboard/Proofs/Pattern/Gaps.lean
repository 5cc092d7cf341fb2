import Mathlib.Data.List.Basic
import Patchboard.Proofs.Pattern.Matching
import Patchboard.Proofs.Search.Collapse

set_option autoImplicit false

/-!
What the pattern of a loose search is read as, and what it matches. The pattern says the collapsed
text piece by piece, a gap for each of its blanks. Of the points that a gap can end at only the last
one stands before something else than a gap, so the next piece goes on from there.
-/

namespace Patchboard.Pattern
open Search

def gapSet : CharSet := .union (.union .empty (.single ' ')) (.single '\t')

def writtenPiece (c : Char) : List Char := if c = ' ' then gapPattern else escape [c]

def piece (c : Char) : Node := if c = ' ' then .plus (.one gapSet) true else .one (.single c)

def pieces (before : Option Node) (u : List Char) : Option Node :=
  u.foldl (fun b c => some (join b (piece c))) before

def looseNode (u : List Char) : Node := (pieces none u).getD .empty

theorem loosenFrom_escape_cons (c : Char) (inGap : Bool) (t : List Char) :
    loosenFrom inGap (escape (c :: t)) =
      if isGap c then (if inGap then [] else gapPattern) ++ loosenFrom true (escape t)
      else escape [c] ++ loosenFrom false (escape t) := by
  have hcons : escape (c :: t) = escape [c] ++ escape t := by simp [escape]
  have hback : isGap '\\' = false := rfl
  rw [hcons]
  by_cases hgap : isGap c = true
  · have hplain : escape [c] = [c] := by
      have hblank : c = ' ' ∨ c = '\t' := by simpa [isGap] using hgap
      rcases hblank with rfl | rfl <;> rfl
    rw [hplain, List.singleton_append, loosenFrom, if_pos hgap, if_pos hgap]
  · rw [if_neg hgap]
    by_cases hmeta : c ∈ metaChars
    · have hescaped : escape [c] = ['\\', c] := by simp [escape, hmeta]
      rw [hescaped, List.cons_append, List.singleton_append, loosenFrom, if_neg (by simp [hback]),
        loosenFrom, if_neg hgap]
      rfl
    · have hplain : escape [c] = [c] := by simp [escape, hmeta]
      rw [hplain, List.singleton_append, loosenFrom, if_neg hgap]
      rfl

theorem loosen_escape (t : List Char) : loosen (escape t) = (collapse t).flatMap writtenPiece := by
  suffices h : ∀ inGap, loosenFrom inGap (escape t) = (collapseFrom inGap t).flatMap writtenPiece
    from h false
  induction t with
  | nil => exact fun _ => rfl
  | cons c t ih =>
    intro inGap
    rw [loosenFrom_escape_cons]
    cases hc : isGap c with
    | true =>
      rw [if_pos rfl, collapseFrom_gap hc, List.flatMap_append, ih true]
      cases inGap <;> simp [writtenPiece]
    | false =>
      have hblank : c ≠ ' ' := by
        rintro rfl
        simp [isGap] at hc
      rw [if_neg (by simp), collapseFrom_of_not hc, List.flatMap_cons, writtenPiece,
        if_neg hblank, ih false]
      rfl

theorem gapPattern_eq : gapPattern = ['[', ' ', '\\', 't', ']', '+'] := String.toList_ofList

theorem bracket?_gap (s : List Char) (fuel groups : Nat) :
    bracket? (fuel + 4) (reading (' ' :: '\\' :: 't' :: ']' :: s) groups) =
      some (gapSet, reading s groups) := rfl

theorem preference_of_not {s : List Char} (h : isRepetition s = false) (f : Flags) :
    preference f s = (!f.lazyFirst, s) := by
  unfold preference
  split
  · cases h
  · rfl

theorem repetitions?_plus {s : List Char} (h : isRepetition s = false) (fuel groups : Nat)
    (node : Node) : repetitions? (fuel + 2) (reading ('+' :: s) groups) node =
      some (.plus node true, reading s groups) := by
  have hplus : repetition? (reading ('+' :: s) groups).skip node =
      some (some (.plus node (preference opened s).1, reading (preference opened s).2 groups)) :=
    rfl
  rw [preference_of_not h] at hplus
  rw [repetitions?]
  simp only [hplus]
  exact repetitions?_of_not h fuel groups _

theorem sequence?_bracket (fuel depth : Nat) (before : Option Node) {r : Reader} {s : List Char}
    (hr : r.skip.rest = '[' :: s) :
    sequence? (fuel + 1) depth before r = (bracket? fuel (r.skip.at' s)).bind fun x =>
      (repetitions? fuel x.2 (.one x.1)).bind fun n =>
        sequence? fuel depth (some (join before n.1)) n.2 := by
  rw [sequence?.eq_def]
  simp only [hr]
  rfl

theorem sequence?_gap {s : List Char} (h : isRepetition s = false) (fuel depth groups : Nat)
    (before : Option Node) :
    sequence? (fuel + 5) depth before (reading (gapPattern ++ s) groups) =
      sequence? (fuel + 4) depth (some (join before (.plus (.one gapSet) true)))
        (reading s groups) := by
  have ha : (reading ('[' :: ' ' :: '\\' :: 't' :: ']' :: '+' :: s) groups).skip.at'
      (' ' :: '\\' :: 't' :: ']' :: '+' :: s) =
    reading (' ' :: '\\' :: 't' :: ']' :: '+' :: s) groups := rfl
  rw [gapPattern_eq, sequence?_bracket (s := ' ' :: '\\' :: 't' :: ']' :: '+' :: s) _ _ _ rfl]
  simp only [List.cons_append, List.nil_append, ha, bracket?_gap, repetitions?_plus h,
    Option.bind_some]

theorem isRepetition_written (u : List Char) {s : List Char} (h : isRepetition s = false) :
    isRepetition (u.flatMap writtenPiece ++ s) = false := by
  induction u with
  | nil => exact h
  | cons c u ih =>
    rw [List.flatMap_cons, List.append_assoc, writtenPiece]
    split
    · rw [gapPattern_eq]
      rfl
    · exact isRepetition_escape_append [c] ih

theorem sequence?_written (u : List Char) {s : List Char} (h : isRepetition s = false)
    (fuel depth groups : Nat) (before : Option Node) :
    sequence? (u.length + (fuel + 5)) depth before (reading (u.flatMap writtenPiece ++ s) groups) =
      sequence? (fuel + 5) depth (pieces before u) (reading s groups) := by
  induction u generalizing before with
  | nil => simp [pieces]
  | cons c u ih =>
    have hrest := isRepetition_written u h
    have hpieces : pieces before (c :: u) = pieces (some (join before (piece c))) u := rfl
    rw [hpieces, ← ih, List.flatMap_cons, List.append_assoc, List.length_cons, writtenPiece, piece]
    split
    · rw [show u.length + 1 + (fuel + 5) = u.length + fuel + 1 + 5 by omega, sequence?_gap hrest,
        show u.length + fuel + 1 + 4 = u.length + (fuel + 5) by omega]
    · have hread := sequence?_escape [c] hrest (u.length + fuel + 4) depth groups before
      rw [List.length_singleton] at hread
      rw [show u.length + 1 + (fuel + 5) = 1 + (u.length + fuel + 4 + 1) by omega, hread,
        show u.length + fuel + 4 + 1 = u.length + (fuel + 5) by omega]
      rfl

theorem length_written (u : List Char) : u.length ≤ (u.flatMap writtenPiece).length := by
  induction u with
  | nil => exact Nat.le_refl _
  | cons c u ih =>
    have hpiece : 1 ≤ (writtenPiece c).length := by
      unfold writtenPiece
      split
      · rw [gapPattern_eq]
        decide
      · exact length_escape [c]
    rw [List.flatMap_cons, List.length_append, List.length_cons]
    omega

theorem parse?_loosen (t : List Char) :
    Node.parse? ("(?s)".toList ++ loosen (escape t)) = some (looseNode (collapse t)) := by
  have hlen := length_written (collapse t)
  have hread (fuel : Nat) := sequence?_written (collapse t) (s := []) rfl fuel 0 0 none
  have hrep := isRepetition_written (collapse t) (s := []) rfl
  simp only [List.append_nil, sequence?_nil] at hread hrep
  rw [loosen_escape]
  refine parse?_flags hrep 0 fun fuel hf => ?_
  rw [show fuel = (collapse t).length + (fuel - (collapse t).length - 5 + 5) by omega]
  exact hread _

theorem parse?_loosen_enclosed (t : List Char) :
    Node.parse? ("(?s)".toList ++ '(' :: loosen (escape t) ++ [')']) =
      some (.group 1 (looseNode (collapse t))) := by
  have hlen := length_written (collapse t)
  have hread (fuel : Nat) := sequence?_written (collapse t) (s := [')']) rfl fuel 1 1 none
  have hrep := isRepetition_written (collapse t) (s := [')']) rfl
  simp only [sequence?_close] at hread
  have hhead : ((collapse t).flatMap writtenPiece ++ [')']).head? ≠ some '?' := by
    intro hq
    rw [List.eq_cons_of_mem_head? hq] at hrep
    cases hrep
  rw [loosen_escape, List.append_assoc]
  refine parse?_flags rfl 1 fun fuel hf => ?_
  simp only [List.cons_append, List.length_cons, List.length_append] at hf
  rw [show fuel = (collapse t).length + (fuel - (collapse t).length - 8 + 5) + 3 by omega]
  exact sequence?_enclosed hhead (hread _)

theorem mem_gapSet (c : Char) : gapSet.mem c = isGap c := by
  simp [gapSet, CharSet.mem, mem_single, isGap, eq_comm]

/-- The points at which a gap can end, the last one first. -/
def gapPoints : List Char → Point → List Point
  | [], _ => []
  | c :: s, p => if isGap c then gapPoints s (p.next c s) ++ [p.next c s] else []

theorem ends_gapSet {p : Point} {c : Char} {s : List Char} (hp : p.rest = c :: s) :
    (Node.one gapSet).ends p = if isGap c then [p.next c s] else [] := by
  rw [Node.ends, hp]
  simp only [mem_gapSet]

theorem ends_gapSet_nil {p : Point} (hp : p.rest = []) : (Node.one gapSet).ends p = [] := by
  rw [Node.ends, hp]

theorem repeatFrom_nil {f : Point → List Point} {p : Point} (hf : f p = []) (fuel : Nat)
    (w : Walk) : (repeatFrom f true (fuel + 1) w p).found = w.found := by
  rw [repeatFrom, hf]
  split <;> rfl

theorem repeatFrom_single {f : Point → List Point} {p q : Point} (hf : f p = [q]) {w : Walk}
    (hstart : w.starts.testBit p.pos = false) (hend : w.ends.testBit q.pos = false) (fuel : Nat) :
    (repeatFrom f true (fuel + 1) w p).found = q ::
      (repeatFrom f true fuel ⟨w.starts.insert p.pos, w.ends.insert q.pos, w.found⟩ q).found := by
  rw [repeatFrom, hf]
  simp [hstart, hend, Walk.add]

theorem found_repeatFrom_gap (fuel : Nat) {s : List Char} {p : Point} (hp : p.rest = s)
    (hfuel : s.length < fuel) {w : Walk} (hstarts : ∀ i, p.pos ≤ i → w.starts.testBit i = false)
    (hends : ∀ i, p.pos < i → w.ends.testBit i = false) :
    (repeatFrom (Node.one gapSet).ends true fuel w p).found =
      (gapPoints s p).reverse ++ w.found := by
  obtain ⟨fuel, rfl⟩ : ∃ k, fuel = k + 1 := ⟨fuel - 1, by omega⟩
  induction s generalizing fuel p w with
  | nil => exact repeatFrom_nil (ends_gapSet_nil hp) fuel w
  | cons c s ih =>
    have hstep := ends_gapSet hp
    rw [gapPoints]
    cases hc : isGap c with
    | false =>
      rw [hc] at hstep
      exact repeatFrom_nil hstep fuel w
    | true =>
      rw [hc] at hstep
      have hpos : (p.next c s).pos = p.pos + 1 := rfl
      rw [List.length_cons] at hfuel
      obtain ⟨fuel, rfl⟩ : ∃ k, fuel = k + 1 := ⟨fuel - 1, by omega⟩
      rw [repeatFrom_single hstep (hstarts _ (Nat.le_refl _)) (hends _ (by omega)),
        ih (p := p.next c s) rfl _ _ fuel (by omega)]
      · simp
      · intro i hi
        rw [testBit_insert, hstarts i (by omega)]
        simp
        omega
      · intro i hi
        rw [testBit_insert, hends i (by omega)]
        simp
        omega

theorem ends_gap (p : Point) : (Node.plus (.one gapSet) true).ends p = gapPoints p.rest p := by
  rw [Node.ends, oneOrMore, found_repeatFrom_gap _ rfl (by omega) (by simp) (by simp)]
  simp

theorem gapPoints_of_startsBare {s : List Char} (h : StartsBare s) (p : Point) :
    gapPoints s p = [] := by
  cases s with
  | nil => rfl
  | cons c s => rw [gapPoints, if_neg (by simp [h c rfl])]

theorem gapPoints_of_run {s : List Char} {p : Point} (hp : p.rest = s)
    (hrun : s.takeWhile isGap ≠ []) : ∃ others,
      gapPoints s p = p.past (s.takeWhile isGap) :: others ∧ ∀ q ∈ others, ¬ StartsBare q.rest := by
  induction s generalizing p with
  | nil => exact absurd rfl hrun
  | cons c s ih =>
    cases hc : isGap c with
    | false => exact absurd (List.takeWhile_cons_of_neg (by simp [hc])) hrun
    | true =>
      have hnext : (p.next c s).past (s.takeWhile isGap) = p.past (c :: s.takeWhile isGap) := by
        rw [Point.past, hp]
        rfl
      rw [List.takeWhile_cons_of_pos hc, gapPoints, if_pos hc, ← hnext]
      by_cases hs : StartsBare s
      · rw [gapPoints_of_startsBare hs, takeWhile_of_startsBare hs]
        exact ⟨[], rfl, by simp⟩
      · have hmore : s.takeWhile isGap ≠ [] := fun he => hs (startsBare_of_takeWhile he)
        obtain ⟨others, hothers, hall⟩ := ih (p := p.next c s) rfl hmore
        refine ⟨others ++ [p.next c s], by rw [hothers]; rfl, fun q hq => ?_⟩
        rcases List.mem_append.1 hq with hq | hq
        · exact hall q hq
        · rw [List.mem_singleton.1 hq]
          exact hs

def reach (u : List Char) (ps : List Point) : List Point :=
  u.foldl (fun ps c => andThen (piece c).ends ps) ps

theorem ends_pieces (b : Node) (u : List Char) (p : Point) :
    ((pieces (some b) u).getD .empty).ends p = reach u (b.ends p) := by
  induction u generalizing b with
  | nil => rfl
  | cons c u ih =>
    have hstep := ih (.seq b (piece c))
    rw [ends_seq] at hstep
    exact hstep

theorem ends_looseNode (u : List Char) (p : Point) : (looseNode u).ends p = reach u [p] := by
  cases u with
  | nil => rw [looseNode, pieces, List.foldl_nil, Option.getD_none, Node.ends]; rfl
  | cons c u => exact ends_pieces (piece c) u p

theorem reach_nil (u : List Char) : reach u [] = [] := by
  induction u with
  | nil => rfl
  | cons c u ih => exact ih

theorem past_append (p : Point) (s t : List Char) : p.past (s ++ t) = (p.past s).past t := by
  induction s generalizing p with
  | nil => rfl
  | cons c s ih => exact ih _

theorem andThen_single {c : Char} (hc : isGap c = false) (q : Point) {others : List Point}
    (ho : ∀ o ∈ others, ¬ StartsBare o.rest) :
    andThen (Node.one (.single c)).ends (q :: others) = (Node.one (.single c)).ends q := by
  have hnone : others.flatMap (Node.one (.single c)).ends = [] := by
    refine List.flatMap_eq_nil_iff.2 fun o hm => ?_
    rw [ends_single, if_neg]
    intro hprefix
    refine ho o hm ?_
    obtain ⟨rest, hrest⟩ := List.isPrefixOf_iff_prefix.1 hprefix
    intro d hd
    rw [← hrest] at hd
    cases hd
    exact hc
  have hall : (q :: others).flatMap (Node.one (.single c)).ends = (Node.one (.single c)).ends q := by
    rw [List.flatMap_cons, hnone, List.append_nil]
  rw [andThen_eq_flatMap, hall]
  rw [hall, ends_single]
  split <;> simp

theorem reach_blank (u : List Char) (q : Point) :
    reach (' ' :: u) [q] = reach u (gapPoints q.rest q) := by
  rw [← ends_gap]
  rfl

theorem reach_char {c : Char} (hc : c ≠ ' ') (hgap : isGap c = false) (u : List Char) (q : Point)
    {others : List Point} (ho : ∀ o ∈ others, ¬ StartsBare o.rest) :
    reach (c :: u) (q :: others) = reach u ((Node.one (.single c)).ends q) := by
  have hpiece : piece c = .one (.single c) := if_neg hc
  rw [← andThen_single hgap q ho, ← hpiece]
  rfl

theorem rest_past_gap (q : Point) :
    (q.past (q.rest.takeWhile isGap)).rest = q.rest.dropWhile isGap := by
  have hdrop : (q.rest.takeWhile isGap ++ q.rest.dropWhile isGap).drop
      (q.rest.takeWhile isGap).length = q.rest.dropWhile isGap := List.drop_left
  rwa [List.takeWhile_append_dropWhile, ← Point.rest_past] at hdrop

theorem head?_reach {u : List Char} (hu : IsNarrow u) {q : Point} {others : List Point}
    (ho : ∀ o ∈ others, ¬ StartsBare o.rest) (hhead : others ≠ [] → u.head? ≠ some ' ') :
    (reach u (q :: others)).head? = (region? u q.rest).map q.past := by
  induction u generalizing q others with
  | nil => rfl
  | cons c u ih =>
    have htail := hu.tail
    by_cases hc : c = ' '
    · subst hc
      obtain rfl : others = [] := Classical.not_not.1 fun hne => hhead hne rfl
      rw [reach_blank]
      by_cases hrun : q.rest.takeWhile isGap = []
      · have hbare := startsBare_of_takeWhile hrun
        rw [gapPoints_of_startsBare hbare, reach_nil, region?_bare hbare]
        rfl
      · obtain ⟨others, hothers, hgaps⟩ := gapPoints_of_run rfl hrun
        rw [hothers, ih htail hgaps fun _ => hu.head, rest_past_gap, region?_gap hrun,
          Option.map_map]
        exact Option.map_congr fun w _ => (past_append ..).symm
    · have hgap : isGap c = false :=
        Bool.eq_false_iff.2 fun hg => hc (hu.blank c (List.mem_cons_self ..) hg)
      rw [reach_char hc hgap u q ho, ends_single]
      by_cases hhead : q.rest.head? = some c
      · obtain ⟨rest, hr⟩ : ∃ rest, q.rest = c :: rest := ⟨_, List.eq_cons_of_mem_head? hhead⟩
        have hbehind : (q.past [c]).rest = rest := by
          rw [Point.rest_past, hr]
          rfl
        rw [if_pos (by simp [hr]), ih htail (by simp) (by simp), hbehind, hr, region?_cons hc,
          Option.map_map]
        exact Option.map_congr fun w _ => (past_append q [c] w).symm
      · have hprefix : ¬ [c].isPrefixOf q.rest = true := fun h => by
          obtain ⟨rest, hr⟩ := List.isPrefixOf_iff_prefix.1 h
          exact hhead (by rw [← hr]; rfl)
        rw [if_neg hprefix, reach_nil, region?_ne hc hhead]
        rfl

end Patchboard.Pattern
