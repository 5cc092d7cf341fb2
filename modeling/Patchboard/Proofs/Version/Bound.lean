import Mathlib.Data.List.Induction
import Patchboard.Proofs.Version.Coherence

set_option autoImplicit false

/-!
The best version below a ceiling is the first of the highest versions that the terms name. Only the
best so far is kept on the way, so this needs the versions to be in an order of their own; how they
compare with the ceiling does not matter, since the ceiling only passes over some of them.
-/

namespace Patchboard.Version
open Std

/-- The versions that expressions name, in order: the exact ones, and the lower ends of ranges and
wildcards. -/
def candidates (expressions : List String) : List String :=
  (expressions.flatMap parseExpression).filterMap candidate?

/-- The first of the highest versions that do not exceed the ceiling. -/
def FirstMax (ceiling : String) (vs : List String) (c : String) : Prop :=
  ∃ before after, vs = before ++ c :: after ∧ order c ceiling ≠ .gt ∧
    (∀ v ∈ vs, order v ceiling ≠ .gt → order v c ≠ .gt) ∧
    ∀ v ∈ before, order v ceiling ≠ .gt → order v c = .lt

/-- Versions of one kind: all strict, or none. -/
def Uniform (vs : List String) : Prop := (∀ v ∈ vs, Strict v) ∨ ∀ v ∈ vs, ¬Strict v

instance (vs : List String) : Decidable (Uniform vs) :=
  inferInstanceAs (Decidable (_ ∨ _))

theorem Uniform.coherent {vs : List String} (h : Uniform vs) {a b c : String} (ha : a ∈ vs)
    (hb : b ∈ vs) (hc : c ∈ vs) : Coherent a b c := by
  rcases h with h | h
  · exact .inl ⟨h a ha, h b hb, h c hc⟩
  · exact .inr ⟨fun hs => absurd hs (h a ha), fun hs => absurd hs (h b hb),
      fun hs => absurd hs (h a ha)⟩

theorem Uniform.initial {vs more : List String} (h : Uniform (vs ++ more)) : Uniform vs :=
  h.imp (fun h v hv => h v (List.mem_append_left _ hv))
    fun h v hv => h v (List.mem_append_left _ hv)

theorem Coherent.lt_of_lt {a b c : String} (h : Coherent a b c) (hab : order a b ≠ .gt)
    (hbc : order b c = .lt) : order a c = .lt := by
  obtain ⟨cmp, _, eab, ebc, eac⟩ := h.exists_cmp
  rw [eab] at hab
  rw [ebc] at hbc
  rw [eac]
  exact TransCmp.lt_of_isLE_of_lt (Ordering.isLE_iff_ne_gt.2 hab) hbc

section
variable {ceiling c v : String} {vs : List String}

theorem FirstMax.mem (h : FirstMax ceiling vs c) : c ∈ vs := by
  obtain ⟨before, after, rfl, -⟩ := h
  simp

theorem FirstMax.unique {d : String} (hc : FirstMax ceiling vs c) (hd : FirstMax ceiling vs d) :
    c = d := by
  have hcmem := hc.mem
  have hdmem := hd.mem
  obtain ⟨before, after, hsplit, hcin, hcmax, hcfirst⟩ := hc
  obtain ⟨before', after', hsplit', hdin, hdmax, hdfirst⟩ := hd
  have hc' : c ∉ before' := by
    intro hm
    have hswap := order_swap c d
    rw [hdfirst c hm hcin] at hswap
    exact hcmax d hdmem hdin hswap
  have hd' : d ∉ before := by
    intro hm
    have hswap := order_swap d c
    rw [hcfirst d hm hdin] at hswap
    exact hdmax c hcmem hcin hswap
  rcases List.append_eq_append_iff.1 (hsplit.symm.trans hsplit') with
    ⟨between, hb, heq⟩ | ⟨between, hb, heq⟩
  · cases between with
    | nil => exact (List.cons.inj heq).1
    | cons first between =>
      rw [hb, (List.cons.inj heq).1] at hc'
      exact absurd (by simp) hc'
  · cases between with
    | nil => exact (List.cons.inj heq).1.symm
    | cons first between =>
      rw [hb, (List.cons.inj heq).1] at hd'
      exact absurd (by simp) hd'

theorem FirstMax.keep (h : FirstMax ceiling vs c)
    (hv : order v ceiling ≠ .gt → order v c ≠ .gt) : FirstMax ceiling (vs ++ [v]) c := by
  obtain ⟨before, after, rfl, hin, hmax, hfirst⟩ := h
  refine ⟨before, after ++ [v], by simp, hin, fun w hw => ?_, hfirst⟩
  rcases List.mem_append.1 hw with hw | hw
  · exact hmax w hw
  · rw [List.mem_singleton.1 hw]
    exact hv

theorem FirstMax.replace (hu : Uniform (vs ++ [v])) (h : FirstMax ceiling vs c)
    (hin : order v ceiling ≠ .gt) (hv : order v c = .gt) : FirstMax ceiling (vs ++ [v]) v := by
  have hcv : order c v = .lt := by rw [order_swap v c, hv]; rfl
  have hcmem := h.mem
  obtain ⟨-, -, -, -, hmax, -⟩ := h
  have hlower : ∀ w ∈ vs, order w ceiling ≠ .gt → order w v = .lt := by
    intro w hw hwin
    have hcoherent : Coherent w c v := hu.coherent (List.mem_append_left _ hw)
      (List.mem_append_left _ hcmem) (List.mem_append_right _ (List.mem_singleton_self v))
    exact hcoherent.lt_of_lt (hmax w hw hwin) hcv
  refine ⟨vs, [], rfl, hin, fun w hw hwin => ?_, hlower⟩
  rcases List.mem_append.1 hw with hw | hw
  · rw [hlower w hw hwin]
    decide
  · rw [List.mem_singleton.1 hw, order_self]
    decide

theorem improve_above {best : Option String} (h : order v ceiling = .gt) :
    improve ceiling best v = best := by
  unfold improve
  rw [if_pos (by simp [h])]

theorem improve_none (h : order v ceiling ≠ .gt) : improve ceiling none v = some v := by
  unfold improve
  rw [if_neg (by simp [h])]

theorem improve_some (h : order v ceiling ≠ .gt) :
    improve ceiling (some c) v = some (if order v c = .gt then v else c) := by
  unfold improve
  rw [if_neg (by simp [h])]
  by_cases hv : order v c = .gt <;> simp [hv]

theorem foldl_improve_eq_none :
    vs.foldl (improve ceiling) none = none ↔ ∀ v ∈ vs, order v ceiling = .gt := by
  induction vs using List.reverseRecOn with
  | nil => simp
  | append_singleton vs v ih =>
    rw [List.foldl_concat]
    by_cases hv : order v ceiling = .gt
    · rw [improve_above hv, ih]
      simp [or_imp, forall_and, hv]
    · refine iff_of_false ?_ fun h => hv (h v (by simp))
      cases vs.foldl (improve ceiling) none with
      | none => simp [improve_none hv]
      | some best => simp [improve_some hv]

theorem firstMax_of_foldl (hu : Uniform vs) (h : vs.foldl (improve ceiling) none = some c) :
    FirstMax ceiling vs c := by
  induction vs using List.reverseRecOn generalizing c with
  | nil => cases h
  | append_singleton vs v ih =>
    rw [List.foldl_concat] at h
    by_cases hv : order v ceiling = .gt
    · rw [improve_above hv] at h
      exact (ih hu.initial h).keep fun hin => absurd hv hin
    · cases hbest : vs.foldl (improve ceiling) none with
      | none =>
        rw [hbest, improve_none hv] at h
        obtain rfl : v = c := Option.some.inj h
        have hover := foldl_improve_eq_none.1 hbest
        refine ⟨vs, [], rfl, hv, fun w hw hwin => ?_, fun w hw hwin => absurd (hover w hw) hwin⟩
        rcases List.mem_append.1 hw with hw | hw
        · exact absurd (hover w hw) hwin
        · rw [List.mem_singleton.1 hw, order_self]
          decide
      | some best =>
        rw [hbest, improve_some hv] at h
        by_cases hgt : order v best = .gt
        · rw [if_pos hgt] at h
          obtain rfl : v = c := Option.some.inj h
          exact (ih hu.initial hbest).replace hu hv hgt
        · rw [if_neg hgt] at h
          obtain rfl : best = c := Option.some.inj h
          exact (ih hu.initial hbest).keep fun _ => hgt

end

/-- No version is found exactly when all that are named exceed the ceiling. When those named are all
strict, or none of them is, the one that is found is the first of the highest that do not. -/
theorem bestUpperBound_first (expressions : List String) (ceiling : String) :
    (bestUpperBound expressions ceiling = none ↔
      ∀ v ∈ candidates expressions, order v ceiling = .gt) ∧
    (Uniform (candidates expressions) → ∀ c, bestUpperBound expressions ceiling = some c ↔
      FirstMax ceiling (candidates expressions) c) := by
  have hnone : bestUpperBound expressions ceiling = none ↔
      ∀ v ∈ candidates expressions, order v ceiling = .gt := foldl_improve_eq_none
  refine ⟨hnone, fun hu c => ⟨firstMax_of_foldl hu, fun hc => ?_⟩⟩
  cases hbest : bestUpperBound expressions ceiling with
  | none =>
    have hover := hnone.1 hbest c hc.mem
    obtain ⟨-, -, -, hin, -⟩ := hc
    exact absurd hover hin
  | some best => rw [(firstMax_of_foldl hu hbest).unique hc]

/-- Two spellings of the highest version below the ceiling, in different expressions. -/
theorem bestUpperBound_first_spelling :
    Uniform (candidates ["1.10,1.9", "02.0 - 2.5, all", "2.*,3"]) ∧
      bestUpperBound ["1.10,1.9", "02.0 - 2.5, all", "2.*,3"] "2.9" = some "02.0" := by
  have hnamed : candidates ["1.10,1.9", "02.0 - 2.5, all", "2.*,3"] =
      ["1.10", "1.9", "02.0", "2.0", "3"] := by decide +kernel
  have huniform : Uniform ["1.10", "1.9", "02.0", "2.0", "3"] := by decide +kernel
  have horder (a b : String) (ha : ¬Strict a) (hl : (Text.splitOn '.' (normalize a)).length ≤ 2)
      (hr : (Text.splitOn '.' (normalize b)).length ≤ 2) : order a b =
        List.compareLex compareSegment ((Text.splitOn '.' (normalize a)).rightpad 2 ['0'])
          ((Text.splitOn '.' (normalize b)).rightpad 2 ['0']) := by
    rw [order_of_not_strict fun h => ha h.1, dotted_eq 2 hl hr]
  rw [hnamed]
  refine ⟨huniform, ((bestUpperBound_first _ _).2 (hnamed ▸ huniform) _).2 ?_⟩
  rw [hnamed]
  refine ⟨["1.10", "1.9"], ["2.0", "3"], rfl, ?_, ?_, ?_⟩
  · rw [horder _ _ (by decide +kernel) (by decide) (by decide)]
    decide +kernel
  · simp only [List.mem_cons, List.not_mem_nil, or_false]
    rintro v (rfl | rfl | rfl | rfl | rfl)
    all_goals
      rw [horder _ _ (by decide +kernel) (by decide) (by decide),
        horder _ _ (by decide +kernel) (by decide) (by decide)]
      decide +kernel
  · simp only [List.mem_cons, List.not_mem_nil, or_false]
    rintro v (rfl | rfl)
    all_goals
      rw [horder _ _ (by decide +kernel) (by decide) (by decide),
        horder _ _ (by decide +kernel) (by decide) (by decide)]
      decide +kernel

end Patchboard.Version
