import Patchboard.Proofs.Version.Order
import Patchboard.Proofs.Version.Semantic

set_option autoImplicit false

namespace Patchboard.Version
open Std

/-- Lexicographic order of lists of numbers, zeros past their ends. -/
def AtMost (a b : List Nat) : Prop :=
  (∀ i, a.getD i 0 = b.getD i 0) ∨
    ∃ i, (∀ j < i, a.getD j 0 = b.getD j 0) ∧ a.getD i 0 < b.getD i 0

theorem atMost_nil : AtMost [] [] := .inl fun _ => rfl

theorem atMost_iff (a b : List Nat) : AtMost a b ↔
    a.headD 0 < b.headD 0 ∨ a.headD 0 = b.headD 0 ∧ AtMost a.tail b.tail := by
  have hhead (l : List Nat) : l.getD 0 0 = l.headD 0 := by cases l <;> rfl
  have htail (l : List Nat) (i : Nat) : l.getD (i + 1) 0 = l.tail.getD i 0 := by
    cases l <;> simp
  constructor
  · rintro (h | ⟨i, hbefore, hi⟩)
    · refine .inr ⟨?_, .inl fun i => ?_⟩
      · rw [← hhead, ← hhead, h 0]
      · rw [← htail, ← htail, h (i + 1)]
    · cases i with
      | zero =>
        rw [hhead, hhead] at hi
        exact .inl hi
      | succ i =>
        refine .inr ⟨?_, .inr ⟨i, fun j hj => ?_, ?_⟩⟩
        · rw [← hhead, ← hhead, hbefore 0 i.succ_pos]
        · rw [← htail, ← htail, hbefore (j + 1) (Nat.succ_lt_succ hj)]
        · rwa [← htail, ← htail]
  · rintro (h | ⟨hfirst, h | ⟨i, hbefore, hi⟩⟩)
    · exact .inr ⟨0, fun j hj => absurd hj j.not_lt_zero, by rwa [hhead, hhead]⟩
    · refine .inl fun i => ?_
      cases i with
      | zero => rw [hhead, hhead, hfirst]
      | succ i => rw [htail, htail, h i]
    · refine .inr ⟨i + 1, fun j hj => ?_, by rwa [htail, htail]⟩
      cases j with
      | zero => rw [hhead, hhead, hfirst]
      | succ j => rw [htail, htail, hbefore j (Nat.lt_of_succ_lt_succ hj)]

/-- A run of digits that fits a word. -/
structure IsRun (s : List Char) : Prop where
  nonempty : s ≠ []
  digits : ∀ c ∈ s, c.isDigit = true
  small : Text.numeral s < Semantic.bound

theorem IsRun.not_mem {s : List Char} (h : IsRun s) {c : Char} (hc : c.isDigit = false) : c ∉ s := by
  intro hm
  rw [h.digits c hm] at hc
  cases hc

theorem IsRun.splitSegment_eq {s : List Char} (h : IsRun s) :
    splitSegment s = (Text.numeral s, []) := by
  have hsmall := h.small
  unfold Semantic.bound at hsmall
  rw [splitSegment, List.takeWhile_eq_self_iff.2 h.digits, List.dropWhile_eq_nil_iff.2 h.digits,
    Nat.min_eq_left (by omega)]

theorem IsRun.compareSegment_eq {a b : List Char} (ha : IsRun a) (hb : IsRun b) :
    compareSegment a b = compare (Text.numeral a) (Text.numeral b) := by
  rw [compareSegment, ha.splitSegment_eq, hb.splitSegment_eq]
  exact Ordering.then_eq

theorem isRun_zero : IsRun ['0'] := ⟨by simp, by simp, show 0 < UInt64.size by decide⟩

theorem isLE_compareSegments {as bs : List (List Char)} (ha : ∀ s ∈ as, IsRun s)
    (hb : ∀ s ∈ bs, IsRun s) : (compareSegments as bs).isLE = true ↔
      AtMost (as.map Text.numeral) (bs.map Text.numeral) := by
  have hfirst (m n : Nat) (o : Ordering) :
      ((compare m n).then o).isLE = true ↔ m < n ∨ m = n ∧ o.isLE = true := by
    rw [Ordering.isLE_then_iff_or, Nat.compare_eq_lt, Nat.compare_eq_eq]
  induction as, bs using compareSegments.induct with
  | case1 =>
    rw [compareSegments]
    exact iff_of_true rfl atMost_nil
  | case2 b bs ih =>
    rw [List.forall_mem_cons] at hb
    rw [compareSegments, isRun_zero.compareSegment_eq hb.1, hfirst, atMost_iff]
    exact or_congr_right (and_congr_right fun _ => ih ha hb.2)
  | case3 a as ih =>
    rw [List.forall_mem_cons] at ha
    rw [compareSegments, ha.1.compareSegment_eq isRun_zero, hfirst, atMost_iff]
    exact or_congr_right (and_congr_right fun _ => ih ha.2 hb)
  | case4 a as b bs ih =>
    rw [List.forall_mem_cons] at ha hb
    rw [compareSegments, ha.1.compareSegment_eq hb.1, hfirst, atMost_iff]
    exact or_congr_right (and_congr_right fun _ => ih ha.2 hb.2)

/-- One or more runs of digits. -/
structure Numeric where
  runs : List (List Char)
  nonempty : runs ≠ []
  digits : ∀ run ∈ runs, IsRun run

namespace Numeric

/-- The runs with dots between them. -/
def text (v : Numeric) : List Char := ['.'].intercalate v.runs

def numbers (v : Numeric) : List Nat := v.runs.map Text.numeral

theorem splitOn_text (v : Numeric) : Text.splitOn '.' v.text = v.runs :=
  Text.splitOn_intercalate v.nonempty fun run hr => (v.digits run hr).not_mem (by decide)

theorem of_mem_text {v : Numeric} {c : Char} (h : c ∈ v.text) : c = '.' ∨ c.isDigit = true :=
  (Text.of_mem_intercalate h).imp_right fun ⟨run, hr, hc⟩ => (v.digits run hr).digits c hc

theorem not_mem_text (v : Numeric) {c : Char} (hd : c ≠ '.') (hc : c.isDigit = false) :
    c ∉ v.text := by
  intro hm
  rcases of_mem_text hm with h | h
  · exact hd h
  · rw [h] at hc
    cases hc

end Numeric

theorem intercalate_dots (run : List Char) (runs : List (List Char)) :
    ['.'].intercalate (run :: runs) = run ++ runs.flatMap ('.' :: ·) := by
  induction runs generalizing run with
  | nil => rw [List.intercalate_singleton, List.flatMap_nil, List.append_nil]
  | cons next runs ih =>
    rw [List.intercalate_cons_cons, ih, List.flatMap_cons, List.append_assoc, List.singleton_append,
      List.cons_append]

namespace Semantic

theorem number?_runs {run rest : List Char} {runs : List (List Char)} {n : Nat} (hr : IsRun run)
    (h : number? (run ++ runs.flatMap ('.' :: ·)) = some (n, rest)) :
    n = Text.numeral run ∧ rest = runs.flatMap ('.' :: ·) := by
  have hdots : (runs.flatMap ('.' :: ·)).takeWhile Char.isDigit = [] ∧
      (runs.flatMap ('.' :: ·)).dropWhile Char.isDigit = runs.flatMap ('.' :: ·) := by
    cases runs with
    | nil => exact ⟨rfl, rfl⟩
    | cons run runs => exact ⟨rfl, rfl⟩
  obtain ⟨-, -, hn, hrest⟩ := number?_eq_some h
  rw [List.takeWhile_append_of_pos hr.digits, hdots.1, List.append_nil] at hn
  rw [List.dropWhile_append_of_pos hr.digits, hdots.2] at hrest
  exact ⟨hn, hrest⟩

theorem parse?_runs {runs : List (List Char)} {x : Semantic} (hr : ∀ run ∈ runs, IsRun run)
    (hne : runs ≠ []) (h : parse? (['.'].intercalate runs) = some x) :
    ∃ a b c, runs = [a, b, c] ∧ x = ⟨Text.numeral a, Text.numeral b, Text.numeral c, [], []⟩ := by
  obtain ⟨s₁, s₂, s₃, hmajor, hminor, hpatch, htail⟩ := parse?_eq_some.1 h
  obtain ⟨a, runs, rfl⟩ := List.exists_cons_of_ne_nil hne
  rw [intercalate_dots] at hmajor
  obtain ⟨ha, hs₁⟩ := number?_runs (hr a (by simp)) hmajor
  cases runs with
  | nil => cases hs₁
  | cons b runs =>
    obtain rfl : s₁ = b ++ runs.flatMap ('.' :: ·) := List.tail_eq_of_cons_eq hs₁
    obtain ⟨hb, hs₂⟩ := number?_runs (hr b (by simp)) hminor
    cases runs with
    | nil => cases hs₂
    | cons c runs =>
      obtain rfl : s₂ = c ++ runs.flatMap ('.' :: ·) := List.tail_eq_of_cons_eq hs₂
      obtain ⟨hc, hs₃⟩ := number?_runs (hr c (by simp)) hpatch
      cases runs with
      | nil =>
        rw [hs₃] at htail
        obtain ⟨hpre, hbuild⟩ := Prod.mk.inj (Option.some.inj htail)
        refine ⟨a, b, c, rfl, ?_⟩
        rw [← ha, ← hb, ← hc]
        cases x
        cases hpre
        cases hbuild
        rfl
      | cons d runs =>
        rw [hs₃] at htail
        cases htail

end Semantic

namespace Numeric

variable {a b : Numeric}

theorem compare_eq {x y : Semantic} (ha : Semantic.parse? a.text = some x)
    (hb : Semantic.parse? b.text = some y) :
    x.compare y = compareSegments (Text.splitOn '.' a.text) (Text.splitOn '.' b.text) := by
  rw [splitOn_text, splitOn_text]
  obtain ⟨p, q, r, hruns, rfl⟩ := Semantic.parse?_runs a.digits a.nonempty ha
  obtain ⟨p', q', r', hruns', rfl⟩ := Semantic.parse?_runs b.digits b.nonempty hb
  have hd := a.digits
  have hd' := b.digits
  rw [hruns, List.forall_mem_cons, List.forall_mem_cons, List.forall_mem_singleton] at hd
  rw [hruns', List.forall_mem_cons, List.forall_mem_cons, List.forall_mem_singleton] at hd'
  rw [hruns, hruns', compareSegments, compareSegments, compareSegments, compareSegments,
    hd.1.compareSegment_eq hd'.1, hd.2.1.compareSegment_eq hd'.2.1,
    hd.2.2.compareSegment_eq hd'.2.2]
  rfl

theorem le_iff {v w : String} (hv : normalize v = a.text) (hw : normalize w = b.text) :
    le v w = true ↔ AtMost a.numbers b.numbers := by
  have horder : order v w = compareSegments a.runs b.runs := by
    rw [← splitOn_text a, ← splitOn_text b, order, hv, hw, compareNormal]
    split
    · rename_i x y hx hy
      exact compare_eq hx hy
    · rfl
  rw [le, horder, bne_iff_ne]
  exact Ordering.isLE_iff_ne_gt.symm.trans (isLE_compareSegments a.digits b.digits)

end Numeric

end Patchboard.Version
