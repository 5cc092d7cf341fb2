import Mathlib.Data.List.Forall2
import Patchboard.Proofs.Version.Order
import Patchboard.Proofs.Version.Semantic

set_option autoImplicit false

/-!
The two ends of a wildcard are in order, wherever its stars stand: a run of digits may be made
longer by them, but it is made larger too, and whatever is made of a text by splitting it is related
as the text is. Both orders see this, and so does the choice between them.
-/

namespace Patchboard.Version
open Std Text

/-- A text with zeros in the place of stars, and the same text with nines. -/
inductive Filled : List Char → List Char → Prop
  | nil : Filled [] []
  | char (c : Char) {low high : List Char} (rest : Filled low high) : Filled (c :: low) (c :: high)
  | star {low high : List Char} (rest : Filled low high) :
    Filled ('0' :: low) ('9' :: '9' :: '9' :: high)

theorem filled_fill (s : List Char) :
    Filled (Term.fill Term.starLow s) (Term.fill Term.starHigh s) := by
  induction s with
  | nil => exact .nil
  | cons c s ih =>
    unfold Term.fill
    rw [List.flatMap_cons, List.flatMap_cons]
    split
    · exact .star ih
    · exact .char c ih

theorem isLE_then {o o' : Ordering} (h : o.isLE = true) (h' : o'.isLE = true) :
    (o.then o').isLE = true :=
  Ordering.isLE_then_iff_and.2 ⟨h, .inr h'⟩

theorem isLE_compareLex {α : Type} {cmp : α → α → Ordering} {as bs : List α}
    (h : List.Forall₂ (fun a b => (cmp a b).isLE = true) as bs) :
    (List.compareLex cmp as bs).isLE = true := by
  induction h with
  | nil => rfl
  | cons hab _ ih =>
    rw [List.compareLex_cons_cons]
    exact isLE_then hab ih

namespace Filled

variable {low high : List Char}

theorem length_le (h : Filled low high) : low.length ≤ high.length := by
  induction h with
  | nil => exact Nat.le_refl 0
  | char c _ ih => exact Nat.succ_le_succ ih
  | star _ ih =>
    simp only [List.length_cons]
    omega

theorem plain (h : Filled low high) : Filled (plain low) (plain high) := by
  induction h with
  | nil => exact .nil
  | char c _ ih =>
    rw [plain_cons, plain_cons]
    split
    · exact ih
    · exact .char _ ih
  | star _ ih => exact .star ih

theorem isLE_compare (h : Filled low high) : (compare low high).isLE = true := by
  induction h with
  | nil => rfl
  | char c _ ih =>
    rw [List.compare_cons_cons, show compare c c = .eq from ReflCmp.compare_self]
    exact ih
  | star rest ih =>
    rw [List.compare_cons_cons, show compare '0' '9' = .lt by decide]
    rfl

section
variable {p : Char → Bool} (h0 : p '0' = true) (h9 : p '9' = true)
include h0 h9

theorem all_eq (h : Filled low high) : low.all p = high.all p := by
  induction h with
  | nil => rfl
  | char c _ ih => rw [List.all_cons, List.all_cons, ih]
  | star _ ih => simp [h0, h9, ih]

theorem takeWhile (h : Filled low high) : Filled (low.takeWhile p) (high.takeWhile p) := by
  induction h with
  | nil => exact .nil
  | char c _ ih =>
    rw [List.takeWhile_cons, List.takeWhile_cons]
    split
    · exact .char c ih
    · exact .nil
  | star _ ih =>
    simp only [List.takeWhile_cons, h0, h9, if_true]
    exact .star ih

theorem dropWhile (h : Filled low high) : Filled (low.dropWhile p) (high.dropWhile p) := by
  induction h with
  | nil => exact .nil
  | char c rest ih =>
    rw [List.dropWhile_cons, List.dropWhile_cons]
    split
    · exact ih
    · exact .char c rest
  | star _ ih =>
    simp only [List.dropWhile_cons, h0, h9, if_true]
    exact ih

end

theorem numeral_le (h : Filled low high) : numeral low ≤ numeral high := by
  have hfold : ∀ m n : Nat, m ≤ n → low.foldl (fun n c => 10 * n + digitValue c) m ≤
      high.foldl (fun n c => 10 * n + digitValue c) n := by
    induction h with
    | nil => exact fun _ _ hmn => hmn
    | char c _ ih =>
      intro m n hmn
      refine ih _ _ ?_
      dsimp only
      omega
    | star _ ih =>
      intro m n hmn
      refine ih _ _ ?_
      have hzero : digitValue '0' = 0 := by decide
      dsimp only
      omega
  exact hfold 0 0 (Nat.le_refl 0)

theorem splitOn (h : Filled low high) :
    List.Forall₂ Filled (Text.splitOn '.' low) (Text.splitOn '.' high) := by
  induction h with
  | nil => exact .cons .nil .nil
  | @char c low high rest ih =>
    by_cases hc : c = '.'
    · rw [Text.splitOn, Text.splitOn, if_pos hc, if_pos hc]
      exact .cons .nil ih
    · cases hl : Text.splitOn '.' low with
      | nil => exact absurd hl (splitOn_ne_nil '.' low)
      | cons piece pieces =>
        cases hh : Text.splitOn '.' high with
        | nil => exact absurd hh (splitOn_ne_nil '.' high)
        | cons piece' pieces' =>
          rw [hl, hh] at ih
          rw [splitOn_cons_of_ne hc hl, splitOn_cons_of_ne hc hh]
          obtain ⟨hpiece, hpieces⟩ := List.forall₂_cons.1 ih
          exact .cons (.char c hpiece) hpieces
  | @star low high rest ih =>
    cases hl : Text.splitOn '.' low with
    | nil => exact absurd hl (splitOn_ne_nil '.' low)
    | cons piece pieces =>
      cases hh : Text.splitOn '.' high with
      | nil => exact absurd hh (splitOn_ne_nil '.' high)
      | cons piece' pieces' =>
        rw [hl, hh] at ih
        have hnine {s first : List Char} {rest : List (List Char)}
            (h : Text.splitOn '.' s = first :: rest) :
            Text.splitOn '.' ('9' :: s) = ('9' :: first) :: rest :=
          splitOn_cons_of_ne (by decide) h
        rw [splitOn_cons_of_ne (by decide) hl, hnine (hnine (hnine hh))]
        obtain ⟨hpiece, hpieces⟩ := List.forall₂_cons.1 ih
        exact .cons (.star hpiece) hpieces

theorem isLE_compareSegment (h : Filled low high) : (compareSegment low high).isLE = true := by
  have hnumber := (h.takeWhile (p := Char.isDigit) rfl rfl).numeral_le
  have hrest := (h.dropWhile (p := Char.isDigit) rfl rfl).isLE_compare
  unfold compareSegment splitSegment
  refine isLE_then ?_ hrest
  rw [Nat.isLE_compare]
  dsimp only
  omega

theorem isLE_compareSegments {as bs : List (List Char)} (h : List.Forall₂ Filled as bs) :
    (compareSegments as bs).isLE = true := by
  induction h with
  | nil =>
    rw [compareSegments]
    rfl
  | cons hab _ ih =>
    rw [compareSegments]
    exact isLE_then hab.isLE_compareSegment ih

theorem of_cons {c : Char} (hc : c ≠ '0') (h : Filled (c :: low) high) :
    ∃ rest, high = c :: rest ∧ Filled low rest := by
  cases h with
  | char _ rest => exact ⟨_, rfl, rest⟩
  | star _ => exact absurd rfl hc

theorem isLE_identifier {leadingZeros : Bool} {x y : Identifier} (h : Filled low high)
    (hx : Semantic.identifier? leadingZeros low = some x)
    (hy : Semantic.identifier? leadingZeros high = some y) : (x.compare y).isLE = true := by
  have hdigits := h.all_eq (p := Char.isDigit) rfl rfl
  unfold Semantic.identifier? at hx hy
  rw [Option.ite_none_left_eq_some] at hx hy
  obtain ⟨-, hx⟩ := hx
  obtain ⟨-, hy⟩ := hy
  rw [← hdigits] at hy
  split at hx
  · rename_i hall
    rw [if_pos hall, Option.ite_none_left_eq_some, Option.some_inj] at hy
    rw [Option.ite_none_left_eq_some, Option.some_inj] at hx
    obtain ⟨-, rfl⟩ := hx
    obtain ⟨-, rfl⟩ := hy
    unfold Identifier.compare
    exact isLE_then (Nat.isLE_compare.2 h.numeral_le) (Nat.isLE_compare.2 h.length_le)
  · rename_i hall
    rw [if_neg hall] at hy
    cases hx
    cases hy
    exact h.isLE_compare

theorem isLE_identifiers {leadingZeros : Bool} {xs ys : List Identifier} (h : Filled low high)
    (hx : Semantic.identifiers? leadingZeros low = some xs)
    (hy : Semantic.identifiers? leadingZeros high = some ys) :
    List.Forall₂ (fun x y => (Identifier.compare x y).isLE = true) xs ys := by
  unfold Semantic.identifiers? at hx hy
  have hpieces := h.splitOn
  generalize Text.splitOn '.' low = as at hx hpieces
  generalize Text.splitOn '.' high = bs at hy hpieces
  induction hpieces generalizing xs ys with
  | nil =>
    cases hx
    cases hy
    exact .nil
  | cons hab _ ih =>
    rw [List.mapM_cons] at hx hy
    simp only [Option.bind_eq_bind, Option.bind_eq_some_iff, Option.pure_def,
      Option.some.injEq] at hx hy
    obtain ⟨x, hx, xs, hxs, rfl⟩ := hx
    obtain ⟨y, hy, ys, hys, rfl⟩ := hy
    exact .cons (hab.isLE_identifier hx hy) (ih hxs hys)

theorem isLE_build {xs ys : List Identifier} (h : Filled low high)
    (hx : Semantic.build? low = some xs) (hy : Semantic.build? high = some ys) :
    (List.compareLex Identifier.compare xs ys).isLE = true := by
  unfold Semantic.build? at hx
  split at hx
  · cases h
    cases hx
    cases hy
    rfl
  · obtain ⟨rest, rfl, hrest⟩ := h.of_cons (by decide)
    exact isLE_compareLex (hrest.isLE_identifiers hx hy)
  · cases hx

theorem isLE_comparePre {xs ys : List Identifier}
    (h : List.Forall₂ (fun x y => (Identifier.compare x y).isLE = true) xs ys) :
    (Semantic.comparePre xs ys).isLE = true := by
  have hlex := isLE_compareLex h
  cases h with
  | nil => rfl
  | cons _ _ => exact hlex

theorem isLE_tail {x y : List Identifier × List Identifier} (h : Filled low high)
    (hx : Semantic.tail? low = some x) (hy : Semantic.tail? high = some y) :
    (Semantic.comparePre x.1 y.1).isLE = true ∧
      (List.compareLex Identifier.compare x.2 y.2).isLE = true := by
  unfold Semantic.tail? at hx
  split at hx
  · obtain ⟨rest, rfl, hrest⟩ := h.of_cons (by decide)
    unfold Semantic.tail? at hy
    simp only [Option.bind_eq_bind, Option.bind_eq_some_iff, Option.pure_def,
      Option.some.injEq] at hx hy
    obtain ⟨pre, hpre, build, hbuild, rfl⟩ := hx
    obtain ⟨pre', hpre', build', hbuild', rfl⟩ := hy
    have hbefore := hrest.takeWhile (p := fun c => decide (c ≠ '+')) rfl rfl
    have hafter := hrest.dropWhile (p := fun c => decide (c ≠ '+')) rfl rfl
    exact ⟨isLE_comparePre (hbefore.isLE_identifiers hpre hpre'),
      hafter.isLE_build hbuild hbuild'⟩
  · rename_i hdash
    obtain ⟨build, hbuild, rfl⟩ := Option.map_eq_some_iff.1 hx
    have hy' : (Semantic.build? high).map (fun build => (([] : List Identifier), build)) =
        some y := by
      unfold Semantic.tail? at hy
      split at hy
      · cases h with
        | char _ rest => exact absurd rfl (hdash _)
      · exact hy
    obtain ⟨build', hbuild', rfl⟩ := Option.map_eq_some_iff.1 hy'
    exact ⟨rfl, h.isLE_build hbuild hbuild'⟩

theorem number_le {m n : Nat} {rest rest' : List Char} (h : Filled low high)
    (hm : Semantic.number? low = some (m, rest)) (hn : Semantic.number? high = some (n, rest')) :
    m ≤ n ∧ Filled rest rest' := by
  obtain ⟨-, -, rfl, rfl⟩ := Semantic.number?_eq_some hm
  obtain ⟨-, -, rfl, rfl⟩ := Semantic.number?_eq_some hn
  exact ⟨(h.takeWhile (p := Char.isDigit) rfl rfl).numeral_le,
    h.dropWhile (p := Char.isDigit) rfl rfl⟩

theorem of_dot {rest rest' : List Char} (h : Filled ('.' :: rest) ('.' :: rest')) :
    Filled rest rest' := by
  obtain ⟨other, heq, hrest⟩ := h.of_cons (by decide)
  rw [List.tail_eq_of_cons_eq heq]
  exact hrest

theorem isLE_semantic {x y : Semantic} (h : Filled low high) (hx : Semantic.parse? low = some x)
    (hy : Semantic.parse? high = some y) : (x.compare y).isLE = true := by
  obtain ⟨s₁, s₂, s₃, hmajor, hminor, hpatch, htail⟩ := Semantic.parse?_eq_some.1 hx
  obtain ⟨t₁, t₂, t₃, hmajor', hminor', hpatch', htail'⟩ := Semantic.parse?_eq_some.1 hy
  obtain ⟨hm₁, h₁⟩ := h.number_le hmajor hmajor'
  obtain ⟨hm₂, h₂⟩ := h₁.of_dot.number_le hminor hminor'
  obtain ⟨hm₃, h₃⟩ := h₂.of_dot.number_le hpatch hpatch'
  obtain ⟨hpre, hbuild⟩ := h₃.isLE_tail htail htail'
  exact isLE_then (Nat.isLE_compare.2 hm₁) (isLE_then (Nat.isLE_compare.2 hm₂)
    (isLE_then (Nat.isLE_compare.2 hm₃) (isLE_then hpre hbuild)))

theorem le_ofList (h : Filled low high) : le (String.ofList low) (String.ofList high) = true := by
  have hplain := h.plain
  rw [le, bne_iff_ne]
  refine Ordering.isLE_iff_ne_gt.1 ?_
  rw [order, normalize_eq, normalize_eq, String.toList_ofList, String.toList_ofList, compareNormal]
  split
  · rename_i x y hx hy
    exact hplain.isLE_semantic hx hy
  · exact isLE_compareSegments hplain.splitOn

end Filled

end Patchboard.Version
