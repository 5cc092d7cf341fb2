import Patchboard.Proofs.Version.Numeric

set_option autoImplicit false

/-!
The release that a version belongs to: its first two segments and the number that its third one
begins with. Precedence and the order of segments both compare releases first, so the order of
versions is that of their releases as long as these differ, whichever of the two decides.
-/

namespace Patchboard.Version
open Std

def segment (v : String) (i : Nat) : List Char :=
  (Text.splitOn '.' (normalize v)).getD i ['0']

def leading (segment : List Char) : Nat := (splitSegment segment).1

def compareRelease (a b : String) : Ordering :=
  (compareSegment (segment a 0) (segment b 0)).then <|
  (compareSegment (segment a 1) (segment b 1)).then <|
  compare (leading (segment a 2)) (leading (segment b 2))

instance : TransCmp compareRelease :=
  have := transCmp_on compareSegment fun v => segment v 0
  have := transCmp_on compareSegment fun v => segment v 1
  have := transCmp_on (compare : Nat → Nat → Ordering) fun v => leading (segment v 2)
  inferInstanceAs (TransCmp (compareLex (fun a b => compareSegment (segment a 0) (segment b 0))
    (compareLex (fun a b => compareSegment (segment a 1) (segment b 1))
      fun a b => compare (leading (segment a 2)) (leading (segment b 2)))))

theorem compareSegments_head (as bs : List (List Char)) : compareSegments as bs =
    (compareSegment (as.getD 0 ['0']) (bs.getD 0 ['0'])).then (compareSegments as.tail bs.tail) := by
  cases as with
  | nil =>
    cases bs with
    | nil =>
      rw [show compareSegment (([] : List (List Char)).getD 0 ['0'])
        (([] : List (List Char)).getD 0 ['0']) = .eq from ReflCmp.compare_self]
      rfl
    | cons b bs => rw [compareSegments]; rfl
  | cons a as =>
    cases bs with
    | nil => rw [compareSegments]; rfl
    | cons b bs => rw [compareSegments]; rfl

theorem getD_tail {α : Type} (l : List α) (i : Nat) (d : α) :
    l.tail.getD i d = l.getD (i + 1) d := by
  cases l <;> simp

theorem dotted_eq_then (a b : String) : ∃ o, dotted a b = (compareRelease a b).then o := by
  unfold dotted
  rw [compareSegments_head, compareSegments_head, compareSegments_head]
  simp only [getD_tail]
  refine ⟨(compare (splitSegment (segment a 2)).2 (splitSegment (segment b 2)).2).then
    (compareSegments (Text.splitOn '.' (normalize a)).tail.tail.tail
      (Text.splitOn '.' (normalize b)).tail.tail.tail), ?_⟩
  unfold compareRelease
  rw [Ordering.then_assoc, Ordering.then_assoc]
  exact congrArg _ (congrArg _ (Ordering.then_assoc ..))

theorem takeWhile_head_splitOn (s : List Char) :
    ((Text.splitOn '.' s).getD 0 ['0']).takeWhile Char.isDigit = s.takeWhile Char.isDigit := by
  induction s with
  | nil => rfl
  | cons c s ih =>
    by_cases hc : c = '.'
    · rw [Text.splitOn, if_pos hc, hc]
      rfl
    · cases hs : Text.splitOn '.' s with
      | nil => exact absurd hs (Text.splitOn_ne_nil '.' s)
      | cons piece pieces =>
        rw [hs] at ih
        rw [Text.splitOn_cons_of_ne hc hs]
        simp only [List.getD_cons_zero, List.takeWhile_cons] at ih ⊢
        rw [ih]

namespace Semantic

theorem isRun_of_number? {s rest : List Char} {n : Nat} (h : number? s = some (n, rest)) :
    IsRun (s.takeWhile Char.isDigit) := by
  refine ⟨(number?_eq_some h).1, fun c hc => List.mem_takeWhile_imp hc, ?_⟩
  unfold number? at h
  simp only [Bool.or_eq_true, decide_eq_true_eq, Option.ite_none_left_eq_some, not_or] at h
  omega

theorem splitOn_of_number? {s rest : List Char} {n : Nat} (h : number? s = some (n, '.' :: rest)) :
    ∃ run, IsRun run ∧ Text.numeral run = n ∧
      Text.splitOn '.' s = run :: Text.splitOn '.' rest := by
  have hrun := isRun_of_number? h
  obtain ⟨-, -, hn, hrest⟩ := number?_eq_some h
  refine ⟨s.takeWhile Char.isDigit, hrun, hn.symm, ?_⟩
  have hsplit : s = s.takeWhile Char.isDigit ++ '.' :: rest := by
    rw [hrest, List.takeWhile_append_dropWhile]
  have hcut := Text.splitOn_append '.' (s.takeWhile Char.isDigit) rest
  rw [← hsplit, Text.splitOn_of_not_mem (hrun.not_mem (by decide))] at hcut
  exact hcut

theorem leading_of_number? {s rest : List Char} {n : Nat} (h : number? s = some (n, rest)) :
    leading ((Text.splitOn '.' s).getD 0 ['0']) = n := by
  have hsmall := (isRun_of_number? h).small
  obtain ⟨-, -, hn, -⟩ := number?_eq_some h
  unfold bound at hsmall
  rw [leading, splitSegment, takeWhile_head_splitOn, hn]
  dsimp only
  omega

theorem segments_of_parse? {v : String} {x : Semantic} (h : parse? (normalize v) = some x) :
    IsRun (segment v 0) ∧ Text.numeral (segment v 0) = x.major ∧
    IsRun (segment v 1) ∧ Text.numeral (segment v 1) = x.minor ∧
    leading (segment v 2) = x.patch := by
  obtain ⟨s₁, s₂, s₃, hmajor, hminor, hpatch, -⟩ := parse?_eq_some.1 h
  obtain ⟨run, hrun, hm, hsplit⟩ := splitOn_of_number? hmajor
  obtain ⟨run', hrun', hm', hsplit'⟩ := splitOn_of_number? hminor
  unfold segment
  rw [hsplit, hsplit']
  exact ⟨hrun, hm, hrun', hm', leading_of_number? hpatch⟩

end Semantic

theorem order_eq_then (a b : String) : ∃ o, order a b = (compareRelease a b).then o := by
  by_cases h : Strict a ∧ Strict b
  · obtain ⟨x, hx⟩ := Option.isSome_iff_exists.1 h.1
    obtain ⟨y, hy⟩ := Option.isSome_iff_exists.1 h.2
    obtain ⟨ha, hmajor, ha', hminor, hpatch⟩ := Semantic.segments_of_parse? hx
    obtain ⟨hb, hmajor', hb', hminor', hpatch'⟩ := Semantic.segments_of_parse? hy
    rw [order_of_parse hx hy, compareRelease, ha.compareSegment_eq hb, ha'.compareSegment_eq hb',
      hmajor, hmajor', hminor, hminor', hpatch, hpatch']
    refine ⟨(Semantic.comparePre x.pre y.pre).then
      (List.compareLex Identifier.compare x.build y.build), ?_⟩
    rw [Ordering.then_assoc, Ordering.then_assoc]
    rfl
  · rw [order_of_not_strict h]
    exact dotted_eq_then a b

section
variable {a b : String}

theorem order_of_release_ne (h : compareRelease a b ≠ .eq) : order a b = compareRelease a b := by
  obtain ⟨o, ho⟩ := order_eq_then a b
  rw [ho]
  cases hr : compareRelease a b with
  | lt | gt => rfl
  | eq => exact absurd hr h

theorem release_ne_gt (h : order a b ≠ .gt) : compareRelease a b ≠ .gt := by
  obtain ⟨o, ho⟩ := order_eq_then a b
  intro hr
  rw [ho, hr] at h
  exact h rfl

end

end Patchboard.Version
