import Patchboard.Proofs.Version.Spelling

set_option autoImplicit false

/-!
The two orders that versions are compared by. Each is a total preorder of its own: precedence on
strict semantic versions, and the order of padded segments on all texts. Which of them compares a
pair depends on the pair, so both together are transitive only as far as they agree.
-/

namespace Patchboard.Version
open Std

theorem transCmp_on {α β : Type} (cmp : α → α → Ordering) [TransCmp cmp] (f : β → α) :
    TransCmp fun a b => cmp (f a) (f b) where
  eq_swap := OrientedCmp.eq_swap
  isLE_trans := TransCmp.isLE_trans

namespace Identifier

def rank : Identifier → Nat
  | .numeric _ _ => 0
  | .textual _ => 1

def value : Identifier → Nat
  | .numeric v _ => v
  | .textual _ => 0

def width : Identifier → Nat
  | .numeric _ w => w
  | .textual _ => 0

def text : Identifier → List Char
  | .numeric _ _ => []
  | .textual t => t

theorem compare_eq : Identifier.compare =
    compareLex (compareOn rank) (compareLex (compareOn value)
      (compareLex (compareOn width) (compareOn text))) := by
  funext a b
  cases a with
  | numeric v w =>
    cases b with
    | numeric v' w' => simp [Identifier.compare, compareLex, compareOn, rank, value, width, text]
    | textual t' => rfl
  | textual t =>
    cases b with
    | numeric v' w' => rfl
    | textual t' => simp [Identifier.compare, compareLex, compareOn, rank, value, width, text]

instance : TransCmp Identifier.compare := by
  rw [compare_eq]
  infer_instance

end Identifier

namespace Semantic

theorem comparePre_eq : comparePre =
    compareLex (compareOn List.isEmpty) (List.compareLex Identifier.compare) := by
  funext a b
  cases a <;> cases b <;> rfl

instance : TransCmp comparePre := by
  rw [comparePre_eq]
  infer_instance

instance : TransCmp Semantic.compare :=
  have := transCmp_on comparePre Semantic.pre
  have := transCmp_on (List.compareLex Identifier.compare) Semantic.build
  inferInstanceAs (TransCmp (compareLex (compareOn major) (compareLex (compareOn minor)
    (compareLex (compareOn patch) (compareLex (fun a b => comparePre a.pre b.pre)
      fun a b => List.compareLex Identifier.compare a.build b.build)))))

end Semantic

instance : TransCmp compareSegment :=
  transCmp_on (compareLex (compareOn Prod.fst) (compareOn Prod.snd)) splitSegment

theorem rightpad_nil (z : List Char) (n : Nat) :
    ([] : List (List Char)).rightpad (n + 1) z = z :: [].rightpad n z := rfl

theorem rightpad_cons (z a : List Char) (as : List (List Char)) (n : Nat) :
    (a :: as).rightpad (n + 1) z = a :: as.rightpad n z := by
  simp [List.rightpad]

theorem compareSegments_eq {as bs : List (List Char)} {n : Nat} (ha : as.length ≤ n)
    (hb : bs.length ≤ n) : compareSegments as bs =
      List.compareLex compareSegment (as.rightpad n ['0']) (bs.rightpad n ['0']) := by
  induction as, bs using compareSegments.induct generalizing n with
  | case1 =>
    rw [compareSegments]
    exact ReflCmp.compare_self.symm
  | case2 b bs ih =>
    obtain ⟨n, rfl⟩ := Nat.exists_eq_succ_of_ne_zero (Nat.ne_zero_of_lt hb)
    rw [rightpad_nil, rightpad_cons, List.compareLex_cons_cons, compareSegments,
      ih (Nat.zero_le n) (Nat.le_of_succ_le_succ hb)]
  | case3 a as ih =>
    obtain ⟨n, rfl⟩ := Nat.exists_eq_succ_of_ne_zero (Nat.ne_zero_of_lt ha)
    rw [rightpad_nil, rightpad_cons, List.compareLex_cons_cons, compareSegments,
      ih (Nat.le_of_succ_le_succ ha) (Nat.zero_le n)]
  | case4 a as b bs ih =>
    obtain ⟨n, rfl⟩ := Nat.exists_eq_succ_of_ne_zero (Nat.ne_zero_of_lt ha)
    rw [rightpad_cons, rightpad_cons, List.compareLex_cons_cons, compareSegments,
      ih (Nat.le_of_succ_le_succ ha) (Nat.le_of_succ_le_succ hb)]

instance : TransCmp compareSegments where
  eq_swap {as bs} := by
    have ha := Nat.le_max_left as.length bs.length
    have hb := Nat.le_max_right as.length bs.length
    rw [compareSegments_eq ha hb, compareSegments_eq hb ha]
    exact OrientedCmp.eq_swap
  isLE_trans {as bs cs} hab hbc := by
    let n := max as.length (max bs.length cs.length)
    have ha : as.length ≤ n := by omega
    have hb : bs.length ≤ n := by omega
    have hc : cs.length ≤ n := by omega
    rw [compareSegments_eq ha hb] at hab
    rw [compareSegments_eq hb hc] at hbc
    rw [compareSegments_eq ha hc]
    exact TransCmp.isLE_trans hab hbc

/-- A version that is compared by precedence with others of its kind. -/
def Strict (v : String) : Prop := (Semantic.parse? (normalize v)).isSome

instance (v : String) : Decidable (Strict v) :=
  inferInstanceAs (Decidable ((Semantic.parse? (normalize v)).isSome = true))

def dotted (a b : String) : Ordering :=
  compareSegments (Text.splitOn '.' (normalize a)) (Text.splitOn '.' (normalize b))

theorem dotted_eq {a b : String} (n : Nat) (ha : (Text.splitOn '.' (normalize a)).length ≤ n)
    (hb : (Text.splitOn '.' (normalize b)).length ≤ n) : dotted a b =
      List.compareLex compareSegment ((Text.splitOn '.' (normalize a)).rightpad n ['0'])
        ((Text.splitOn '.' (normalize b)).rightpad n ['0']) := compareSegments_eq ha hb

instance : TransCmp dotted := transCmp_on compareSegments fun v => Text.splitOn '.' (normalize v)

/-- Two versions of which at most one is strict, or that both orders rank in the same way. -/
def Alike (a b : String) : Prop := Strict a → Strict b → order a b = dotted a b

instance (a b : String) : Decidable (Alike a b) :=
  inferInstanceAs (Decidable (Strict a → Strict b → _))

theorem order_of_parse {a b : String} {x y : Semantic} (ha : Semantic.parse? (normalize a) = some x)
    (hb : Semantic.parse? (normalize b) = some y) : order a b = x.compare y := by
  rw [order, compareNormal, ha, hb]

theorem order_of_not_strict {a b : String} (h : ¬(Strict a ∧ Strict b)) : order a b = dotted a b := by
  rw [order, compareNormal]
  split
  · rename_i x y ha hb
    exact absurd ⟨Option.isSome_of_eq_some ha, Option.isSome_of_eq_some hb⟩ h
  · rfl

theorem Alike.order_eq {a b : String} (h : Alike a b) : order a b = dotted a b := by
  by_cases hs : Strict a ∧ Strict b
  · exact h hs.1 hs.2
  · exact order_of_not_strict hs

instance : OrientedCmp order where
  eq_swap {a b} := by
    by_cases h : Strict a ∧ Strict b
    · obtain ⟨x, hx⟩ := Option.isSome_iff_exists.1 h.1
      obtain ⟨y, hy⟩ := Option.isSome_iff_exists.1 h.2
      rw [order_of_parse hx hy, order_of_parse hy hx]
      exact OrientedCmp.eq_swap
    · rw [order_of_not_strict h, order_of_not_strict fun hb => h hb.symm]
      exact OrientedCmp.eq_swap

theorem admits_exact (v : String) (terms : List Term) :
    admits (.exact v) terms = terms.any fun t => t.contains v := rfl

end Patchboard.Version
