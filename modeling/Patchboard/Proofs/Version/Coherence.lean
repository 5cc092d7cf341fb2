import Mathlib.Data.List.Basic
import Patchboard.Proofs.Version.Order
import Patchboard.Proofs.Version.Semantic

set_option autoImplicit false

/-!
Where versions are ordered as one would expect. Any two versions are compared the same way from both
sides, but a third one may lie between them in an order of its own: two strict versions that the two
orders rank differently are told apart by what is not strict. Apart from such pairs the order is
transitive, and what depends on it does not see how a version is spelled.
-/

namespace Patchboard.Version
open Std

/-- The three are compared by one order: they are all strict, or no two of them are ranked
differently by the two orders. -/
def Coherent (a b c : String) : Prop :=
  (Strict a ∧ Strict b ∧ Strict c) ∨ (Alike a b ∧ Alike b c ∧ Alike a c)

theorem order_self (v : String) : order v v = .eq := ReflCmp.compare_self

theorem order_swap (a b : String) : order b a = (order a b).swap := OrientedCmp.eq_swap

section
variable {a b c : String} (h : Coherent a b c)
include h

theorem Coherent.exists_cmp : ∃ cmp : String → String → Ordering, TransCmp cmp ∧
    order a b = cmp a b ∧ order b c = cmp b c ∧ order a c = cmp a c := by
  rcases h with ⟨ha, hb, hc⟩ | ⟨hab, hbc, hac⟩
  · obtain ⟨x, hx⟩ := Option.isSome_iff_exists.1 ha
    obtain ⟨y, hy⟩ := Option.isSome_iff_exists.1 hb
    obtain ⟨z, hz⟩ := Option.isSome_iff_exists.1 hc
    let precedence (v : String) : Semantic := (Semantic.parse? (normalize v)).getD x
    refine ⟨fun v w => (precedence v).compare (precedence w), transCmp_on _ precedence, ?_, ?_, ?_⟩
    · rw [order_of_parse hx hy]
      simp only [precedence, hx, hy, Option.getD_some]
    · rw [order_of_parse hy hz]
      simp only [precedence, hy, hz, Option.getD_some]
    · rw [order_of_parse hx hz]
      simp only [precedence, hx, hz, Option.getD_some]
  · exact ⟨dotted, inferInstance, hab.order_eq, hbc.order_eq, hac.order_eq⟩

theorem Coherent.trans (hab : order a b ≠ .gt) (hbc : order b c ≠ .gt) : order a c ≠ .gt := by
  obtain ⟨cmp, _, eab, ebc, eac⟩ := h.exists_cmp
  rw [eab] at hab
  rw [ebc] at hbc
  rw [eac]
  exact Ordering.isLE_iff_ne_gt.1 (TransCmp.isLE_trans (Ordering.isLE_iff_ne_gt.2 hab)
    (Ordering.isLE_iff_ne_gt.2 hbc))

theorem Coherent.congr_left (hab : order a b = .eq) : order a c = order b c := by
  obtain ⟨cmp, _, eab, ebc, eac⟩ := h.exists_cmp
  rw [eab] at hab
  rw [eac, ebc]
  exact TransCmp.congr_left hab

theorem Coherent.congr_right (hab : order a b = .eq) : order c a = order c b := by
  rw [order_swap a c, order_swap b c, h.congr_left hab]

end

def padded (v : String) : String := String.ofList ('0' :: normalize v)

theorem normalize_padded (v : String) : normalize (padded v) = '0' :: normalize v := by
  rw [normalize_eq, padded, String.toList_ofList, plain_cons, normalize_eq, plain_plain]
  rfl

theorem splitSegment_zero (s : List Char) : splitSegment ('0' :: s) = splitSegment s := rfl

theorem dotted_padded (v w : String) : dotted (padded v) w = dotted v w := by
  refine TransCmp.congr_left ?_
  rw [dotted, normalize_padded]
  cases hs : Text.splitOn '.' (normalize v) with
  | nil => exact absurd hs (Text.splitOn_ne_nil '.' _)
  | cons segment segments =>
    have hself (s : List Char) : compareSegment s s = .eq := ReflCmp.compare_self
    have hsame : compareSegment ('0' :: segment) segment = .eq := by
      rw [compareSegment, splitSegment_zero]
      exact hself segment
    rw [Text.splitOn_cons_of_ne (by decide) hs, compareSegments, hsame]
    exact ReflCmp.compare_self

theorem not_strict_padded {v : String} (h : Strict v) : ¬Strict (padded v) := by
  rw [Strict, normalize_padded, Semantic.parse?_zero h]
  exact Bool.noConfusion

theorem order_padded {v : String} (h : Strict v) (w : String) : order (padded v) w = dotted v w := by
  rw [order_of_not_strict fun hs => not_strict_padded h hs.1, dotted_padded]

/-- Three of these versions, one after the other, are not in order. -/
def Broken (versions : List String) : Prop :=
  ∃ x ∈ versions, ∃ y ∈ versions, ∃ z ∈ versions,
    order x y ≠ .gt ∧ order y z ≠ .gt ∧ order x z = .gt

/-- Strict versions that the two orders rank differently are told apart by a spelling of one of
them that is not strict. -/
theorem broken_of_not_alike {a b : String} (h : ¬Alike a b) : Broken [a, b, padded a] := by
  unfold Alike at h
  push Not at h
  obtain ⟨ha, hb, hne⟩ := h
  have hpa (w : String) : order (padded a) w = dotted a w := order_padded ha w
  have hap (w : String) : order w (padded a) = (dotted a w).swap := by
    rw [order_swap (padded a), hpa]
  have hself : dotted a a = .eq := ReflCmp.compare_self
  have hswap := order_swap a b
  -- The padded version is ranked with `b` as the segments are, and with `a` as equal to it.
  cases ho : order a b with
  | lt =>
    refine ⟨b, by simp, padded a, by simp, a, by simp, fun hg => ?_, by simp [hpa, hself],
      by simp [hswap, ho]⟩
    rw [hap, Ordering.swap_eq_gt] at hg
    exact hne (ho.trans hg.symm)
  | gt =>
    refine ⟨a, by simp, padded a, by simp, b, by simp, by simp [hap, hself], fun hg => ?_, ho⟩
    rw [hpa] at hg
    exact hne (ho.trans hg.symm)
  | eq =>
    cases hd : dotted a b with
    | lt => exact ⟨b, by simp, a, by simp, padded a, by simp, by simp [hswap, ho],
        by simp [hap, hself], by simp [hap, hd]⟩
    | eq => exact absurd (ho.trans hd.symm) hne
    | gt => exact ⟨padded a, by simp, a, by simp, b, by simp, by simp [hpa, hself], by simp [ho],
        by simp [hpa, hd]⟩

variable {a b : String}

/-- The versions that a term is made of. -/
def Term.ends (t : Term) : List String := t.bounds?.elim [] fun e => [e.1, e.2]

theorem Term.contains_congr {t : Term} (he : order a b = .eq)
    (h : ∀ v ∈ t.ends, Coherent a b v) : t.contains a = t.contains b := by
  unfold Term.contains
  unfold Term.ends at h
  cases hb : t.bounds? with
  | none => rfl
  | some e =>
    obtain ⟨lower, upper⟩ := e
    rw [hb] at h
    have hlower := (h lower (by simp)).congr_right he
    have hupper := (h upper (by simp)).congr_left he
    simp only [le, hlower, hupper]

theorem admits_congr {terms : List Term} (he : order a b = .eq)
    (h : ∀ t ∈ terms, ∀ v ∈ t.ends, Coherent a b v) :
    admits (.exact a) terms = admits (.exact b) terms := by
  rw [admits_exact, admits_exact, Bool.eq_iff_iff, List.any_eq_true, List.any_eq_true]
  exact exists_congr fun t => and_congr_right fun ht => by rw [Term.contains_congr he (h t ht)]

/-- A text that stands for itself, and not for a range or for all versions. -/
def Names (a : String) : Prop := Term.parse? a = some (.exact (String.ofList (normalize a)))

instance (a : String) : Decidable (Names a) :=
  inferInstanceAs (Decidable (_ = _))

theorem order_normalize (a b : String) : order (String.ofList (normalize a)) b = order a b := by
  rw [order, order, normalize_eq a, normalize_plain]

theorem admits_normalize (a : String) (terms : List Term) :
    admits (.exact (String.ofList (normalize a))) terms = admits (.exact a) terms := by
  have hright (v : String) : order v (String.ofList (normalize a)) = order v a := by
    rw [order_swap (String.ofList (normalize a)), order_normalize, order_swap a v]
  simp only [admits_exact, Term.contains, le, order_normalize, hright]

theorem isMatch_of_names {expression : String} (h : Names a) :
    isMatch a expression = admits (.exact a) (parseExpression expression) := by
  rw [isMatch, h]
  exact admits_normalize a _

theorem isMatch_congr {expression : String} (ha : Names a) (hb : Names b) (he : order a b = .eq)
    (h : ∀ t ∈ parseExpression expression, ∀ v ∈ t.ends, Coherent a b v) :
    isMatch a expression = isMatch b expression := by
  rw [isMatch_of_names ha, isMatch_of_names hb, admits_congr he h]

theorem bestUpperBound_congr {expressions : List String} (he : order a b = .eq)
    (h : ∀ t ∈ expressions.flatMap parseExpression, ∀ v ∈ candidate? t, Coherent a b v) :
    bestUpperBound expressions a = bestUpperBound expressions b := by
  refine List.foldl_ext _ _ _ fun best v hv => ?_
  obtain ⟨t, ht, hc⟩ := List.mem_filterMap.1 hv
  unfold improve
  rw [(h t ht v hc).congr_right he]

/-- Versions form a total preorder as far as strict versions are ranked alike by both orders: two
that are not are out of order with a third version. Where they form one, equal versions are compared
alike with every other, lie in the same terms, match the same expressions and are the same bound. -/
theorem order_preorder :
    (∀ a b, order b a = (order a b).swap) ∧
    (∀ a b c, Coherent a b c → order a b ≠ .gt → order b c ≠ .gt → order a c ≠ .gt) ∧
    (∀ a b, ¬Alike a b → ∃ c, ¬Strict c ∧ Broken [a, b, c]) ∧
    ∀ a b, order a b = .eq →
      (∀ c, Coherent a b c → order a c = order b c) ∧
      (∀ t : Term, (∀ v ∈ t.ends, Coherent a b v) → t.contains a = t.contains b) ∧
      (∀ expression, Names a → Names b →
        (∀ t ∈ parseExpression expression, ∀ v ∈ t.ends, Coherent a b v) →
          isMatch a expression = isMatch b expression) ∧
      ∀ expressions, (∀ t ∈ expressions.flatMap parseExpression, ∀ v ∈ candidate? t,
        Coherent a b v) → bestUpperBound expressions a = bestUpperBound expressions b := by
  refine ⟨order_swap, fun a b c h => h.trans, fun a b h => ?_, fun a b he => ⟨?_, ?_, ?_, ?_⟩⟩
  · have ha : Strict a := by
      by_contra ha
      exact h fun hs => absurd hs ha
    exact ⟨padded a, not_strict_padded ha, broken_of_not_alike h⟩
  · exact fun c h => h.congr_left he
  · exact fun t h => Term.contains_congr he h
  · exact fun expression ha hb h => isMatch_congr ha hb he h
  · exact fun expressions h => bestUpperBound_congr he h

/-- Pre-releases in order, a release and its pre-release that a third version sets apart, and two
spellings of a version that match the same range. -/
theorem order_preorder_releases :
    order "2.1.0-rc.2" "2.1.0-rc.10" ≠ .gt ∧ order "2.1.0-rc.10" "2.1.0" ≠ .gt ∧
    order "2.1.0-rc.2" "2.1.0" ≠ .gt ∧
    (∃ c, ¬Strict c ∧ Broken ["2.1.0-rc.1", "2.1.0", c]) ∧
    order "2.1" "2.1.0" = .eq ∧ isMatch "2.1" "2.0-3" = isMatch "2.1.0" "2.0-3" := by
  obtain ⟨-, htrans, hbroken, hspelled⟩ := order_preorder
  have hcandidates : order "2.1.0-rc.2" "2.1.0-rc.10" = .lt := by decide +kernel
  have hrelease : order "2.1.0-rc.10" "2.1.0" = .lt := by decide +kernel
  have hequal : order "2.1" "2.1.0" = .eq := by
    rw [order_of_not_strict (by decide +kernel), dotted_eq 3 (by decide) (by decide)]
    decide +kernel
  have hranked : order "2.1.0-rc.1" "2.1.0" = .lt := by decide +kernel
  have hdotted : dotted "2.1.0-rc.1" "2.1.0" = .gt := by
    rw [dotted_eq 4 (by decide) (by decide)]
    decide +kernel
  have hstrict : Strict "2.1.0-rc.1" ∧ Strict "2.1.0" := by decide +kernel
  have hother : ¬Strict "2.1" ∧ ¬Strict "2.0" ∧ ¬Strict "3" := by decide +kernel
  have hterms : parseExpression "2.0-3" = [.range "2.0" "3"] := by decide +kernel
  refine ⟨by simp [hcandidates], by simp [hrelease], ?_, ?_, hequal, ?_⟩
  · exact htrans _ "2.1.0-rc.10" _ (.inl (by decide +kernel)) (by simp [hcandidates])
      (by simp [hrelease])
  · refine hbroken _ _ fun h => ?_
    rw [Alike, hranked, hdotted] at h
    exact absurd (h hstrict.1 hstrict.2) (by decide)
  · refine (hspelled _ _ hequal).2.2.1 _ (by decide +kernel) (by decide +kernel) fun t ht v hv => ?_
    rw [hterms, List.mem_singleton] at ht
    subst ht
    have hv : ¬Strict v := by
      rcases List.mem_pair.1 hv with rfl | rfl
      · exact hother.2.1
      · exact hother.2.2
    exact .inr ⟨fun h => absurd h hother.1, fun _ h => absurd h hv, fun _ h => absurd h hv⟩

/-- A release is the same version as its short spelling, which comes before the pre-release that
the release comes after. -/
theorem order_not_transitive : order "2.1.0" "2.1" = .eq ∧ order "2.1" "2.1.0-rc.1" = .lt ∧
    order "2.1.0" "2.1.0-rc.1" = .gt := by
  refine ⟨?_, ?_, by decide +kernel⟩
  · rw [order_of_not_strict (by decide +kernel), dotted_eq 3 (by decide) (by decide)]
    decide +kernel
  · rw [order_of_not_strict (by decide +kernel), dotted_eq 4 (by decide) (by decide)]
    decide +kernel

end Patchboard.Version
