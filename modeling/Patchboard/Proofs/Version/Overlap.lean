import Patchboard.Proofs.Version.Coherence
import Patchboard.Proofs.Version.Release
import Patchboard.Proofs.Version.Wildcard

set_option autoImplicit false

/-!
When two terms have a version in common. The test compares the lower end of each term with the upper
end of the other, and finds a version if the ends of each term are in order; the converse needs what
lies between two ends to keep them in order. A range that is written the wrong way round holds no
version, and the test does not see this.
-/

namespace Patchboard.Version
open Std

theorem le_self (v : String) : le v v = true := by
  rw [le, order_self]
  rfl

theorem le_total (a b : String) : le a b = true ∨ le b a = true := by
  rw [le, le, order_swap a b]
  cases order a b <;> decide

theorem le_of_not_strict {a b : String} (n : Nat) (h : ¬(Strict a ∧ Strict b))
    (ha : (Text.splitOn '.' (normalize a)).length ≤ n)
    (hb : (Text.splitOn '.' (normalize b)).length ≤ n) : le a b =
      (List.compareLex compareSegment ((Text.splitOn '.' (normalize a)).rightpad n ['0'])
        ((Text.splitOn '.' (normalize b)).rightpad n ['0']) != .gt) := by
  rw [le, order_of_not_strict h, dotted_eq n ha hb]

theorem le_iff_ne_gt {a b : String} : le a b = true ↔ order a b ≠ .gt := by rw [le, bne_iff_ne]

/-- No version can lie between two that are out of order: they are in order, or of different
releases, or of one kind and ranked alike by both orders. -/
def Settled (lower upper : String) : Prop :=
  le lower upper = true ∨ compareRelease lower upper ≠ .eq ∨
    ((Strict lower ↔ Strict upper) ∧ Alike lower upper)

instance (lower upper : String) : Decidable (Settled lower upper) :=
  inferInstanceAs (Decidable (_ ∨ _ ∨ _))

theorem Settled.le_of_between {lower upper v : String} (h : Settled lower upper)
    (hl : le lower v = true) (hu : le v upper = true) : le lower upper = true := by
  rw [le_iff_ne_gt] at hl hu
  rcases h with h | h | ⟨hkind, halike⟩
  · exact h
  · rw [le_iff_ne_gt, order_of_release_ne h]
    exact Ordering.isLE_iff_ne_gt.1 (TransCmp.isLE_trans
      (Ordering.isLE_iff_ne_gt.2 (release_ne_gt hl)) (Ordering.isLE_iff_ne_gt.2 (release_ne_gt hu)))
  · have hcoherent : Coherent lower v upper := by
      by_cases hs : Strict lower ∧ Strict v
      · exact .inl ⟨hs.1, hs.2, hkind.1 hs.1⟩
      · refine .inr ⟨fun hl hv => absurd ⟨hl, hv⟩ hs, fun hv hu => ?_, halike⟩
        exact absurd ⟨hkind.2 hu, hv⟩ hs
    exact le_iff_ne_gt.2 (hcoherent.trans hl hu)

theorem settled_of_not_strict {lower upper : String} (hl : ¬Strict lower) (hu : ¬Strict upper) :
    Settled lower upper :=
  .inr (.inr ⟨iff_of_false hl hu, fun h => absurd h hl⟩)

/-- For versions of one kind nothing is lost: any others that are out of order have a version between
them. -/
theorem settled_iff_of_kind {lower upper : String} (hkind : Strict lower ↔ Strict upper) :
    Settled lower upper ↔
      ∀ v, le lower v = true → le v upper = true → le lower upper = true := by
  refine ⟨fun h v => h.le_of_between, fun h => ?_⟩
  by_cases halike : Alike lower upper
  · exact .inr (.inr ⟨hkind, halike⟩)
  left
  by_contra hle
  unfold Alike at halike
  push Not at halike
  obtain ⟨hstrict, -, hne⟩ := halike
  have hpadded (v : String) : order (padded lower) v = dotted lower v := order_padded hstrict v
  have hself : dotted lower lower = .eq := ReflCmp.compare_self
  refine hle (h (padded lower) ?_ ?_)
  · rw [le_iff_ne_gt, order_swap (padded lower), hpadded, hself]
    decide
  · rw [le_iff_ne_gt, not_not] at hle
    rw [le_iff_ne_gt, hpadded]
    exact fun hgt => hne (hle.trans hgt.symm)

namespace Term

variable {a b t : Term}

def lowers (t : Term) : List String := t.bounds?.toList.map (·.1)

def uppers (t : Term) : List String := t.bounds?.toList.map (·.2)

/-- A term whose lower end does not exceed its upper one. -/
def Upright (t : Term) : Prop := ∀ l ∈ t.lowers, ∀ u ∈ t.uppers, le l u = true

instance (t : Term) : Decidable t.Upright :=
  inferInstanceAs (Decidable (∀ l ∈ t.lowers, ∀ u ∈ t.uppers, le l u = true))

/-- No version lies between ends of the two terms that are out of order. -/
def Settled (a b : Term) : Prop :=
  ∀ l ∈ a.lowers ++ b.lowers, ∀ u ∈ a.uppers ++ b.uppers, Version.Settled l u

instance (a b : Term) : Decidable (a.Settled b) :=
  inferInstanceAs (Decidable (∀ l ∈ a.lowers ++ b.lowers, ∀ u ∈ a.uppers ++ b.uppers,
    Version.Settled l u))

theorem contains_iff_between {v : String} : t.contains v = true ↔
    (∀ l ∈ t.lowers, le l v = true) ∧ ∀ u ∈ t.uppers, le v u = true := by
  unfold contains lowers uppers
  cases t.bounds? with
  | none => simp
  | some ends => simp

theorem overlaps_iff_ends : a.overlaps b = true ↔
    (∀ l ∈ a.lowers, ∀ u ∈ b.uppers, le l u = true) ∧
      ∀ l ∈ b.lowers, ∀ u ∈ a.uppers, le l u = true := by
  unfold overlaps lowers uppers
  cases a.bounds? <;> cases b.bounds? <;> simp

theorem exists_common (ha : a.Upright) (hb : b.Upright) (h : a.overlaps b = true) :
    ∃ v, a.contains v = true ∧ b.contains v = true := by
  obtain ⟨hab, hba⟩ := overlaps_iff_ends.1 h
  simp only [contains_iff_between]
  unfold Upright at ha hb
  unfold lowers uppers at *
  cases hca : a.bounds? with
  | none =>
    cases hcb : b.bounds? with
    | none => exact ⟨"", by simp, by simp⟩
    | some ends' =>
      rw [hcb] at hb
      exact ⟨ends'.1, by simp, by simpa [le_self] using hb⟩
  | some ends =>
    rw [hca] at ha hab hba
    cases hcb : b.bounds? with
    | none => exact ⟨ends.1, by simpa [le_self] using ha, by simp⟩
    | some ends' =>
      rw [hcb] at hb hab hba
      simp only [Option.toList_some, List.map_cons, List.map_nil, List.mem_singleton,
        forall_eq] at ha hb hab hba ⊢
      rcases le_total ends.1 ends'.1 with hle | hle
      · exact ⟨ends'.1, ⟨hle, hba⟩, le_self _, hb⟩
      · exact ⟨ends.1, ⟨le_self _, ha⟩, hle, hab⟩

/-- As long as nothing lies between ends that are out of order, two terms have a version in common
exactly when the test says so and neither is written the wrong way round. -/
theorem exists_common_iff (h : Settled a b) :
    (∃ v, a.contains v = true ∧ b.contains v = true) ↔
      a.Upright ∧ b.Upright ∧ a.overlaps b = true := by
  refine ⟨?_, fun ⟨ha, hb, ho⟩ => exists_common ha hb ho⟩
  rintro ⟨v, hva, hvb⟩
  obtain ⟨hla, hua⟩ := contains_iff_between.1 hva
  obtain ⟨hlb, hub⟩ := contains_iff_between.1 hvb
  have hbetween : ∀ l ∈ a.lowers ++ b.lowers, ∀ u ∈ a.uppers ++ b.uppers, le l u = true := by
    intro l hl u hu
    refine (h l hl u hu).le_of_between (v := v) ?_ ?_
    · exact (List.mem_append.1 hl).elim (hla l) (hlb l)
    · exact (List.mem_append.1 hu).elim (hua u) (hub u)
  refine ⟨fun l hl u hu => ?_, fun l hl u hu => ?_, overlaps_iff_ends.2 ⟨?_, ?_⟩⟩
  · exact hbetween l (List.mem_append_left _ hl) u (List.mem_append_left _ hu)
  · exact hbetween l (List.mem_append_right _ hl) u (List.mem_append_right _ hu)
  · exact fun l hl u hu => hbetween l (List.mem_append_left _ hl) u (List.mem_append_right _ hu)
  · exact fun l hl u hu => hbetween l (List.mem_append_right _ hl) u (List.mem_append_left _ hu)

theorem upright_of_parse {raw : String} (h : parse? raw = some t)
    (hs : splitRange? (normalize raw) = none) : t.Upright := by
  unfold parse? ofNormal? at h
  rw [Option.ite_none_left_eq_some] at h
  obtain ⟨-, h⟩ := h
  split at h
  · cases h
    intro l hl
    cases hl
  · rw [hs] at h
    dsimp only at h
    split at h
    · cases h
      simpa [Upright, lowers, uppers, bounds?] using (filled_fill (normalize raw)).le_ofList
    · cases h
      simp [Upright, lowers, uppers, bounds?, le_self]

theorem wildcard_of_parse {raw : String} (h : parse? raw = some t) (hs : '*' ∈ normalize raw) :
    splitRange? (normalize raw) = none ∧ ∀ v, t ≠ .exact v := by
  unfold parse? ofNormal? at h
  rw [Option.ite_none_left_eq_some] at h
  obtain ⟨-, h⟩ := h
  split at h
  · rename_i hall
    cases h
    refine ⟨?_, fun v hv => by cases hv⟩
    rcases Bool.or_eq_true_iff.1 hall with hall | hall
    · rw [of_decide_eq_true hall]
      decide
    · rw [of_decide_eq_true hall]
      decide
  · split at h
    · rename_i lower upper hsplit
      have hparts : normalize raw = lower ++ '-' :: upper := by
        unfold splitRange? at hsplit
        split at hsplit
        · rename_i hcut
          rw [Option.ite_none_right_eq_some] at hsplit
          obtain ⟨rfl, rfl⟩ := Prod.mk.inj (Option.some.inj hsplit.2)
          exact Text.eq_append_of_splitOnce? hcut
        · cases hsplit
      rw [hparts] at hs
      rw [Option.ite_none_left_eq_some] at h
      exact absurd hs (by simpa using h.1)
    · rename_i hsplit
      refine ⟨hsplit, ?_⟩
      rw [if_pos (by simpa using hs)] at h
      cases h
      exact fun v hv => by cases hv

end Term

theorem admits_wildcard {t : Term} (h : ∀ v, t ≠ .exact v) (terms : List Term) :
    admits t terms = terms.any fun other => other.overlaps t := by
  cases t with
  | any => rfl
  | exact v => exact absurd rfl (h v)
  | range lower upper => rfl

theorem isMatch_wildcard {version expression : String} {candidate : Term}
    (hp : Term.parse? version = some candidate) (hs : '*' ∈ normalize version)
    (h : ∀ t ∈ parseExpression expression, t.Upright ∧ t.Settled candidate) :
    isMatch version expression = true ↔
      ∃ v, candidate.contains v = true ∧ admits (.exact v) (parseExpression expression) = true := by
  obtain ⟨hsplit, hexact⟩ := Term.wildcard_of_parse hp hs
  have hupright : candidate.Upright := Term.upright_of_parse hp hsplit
  have hcommon : ∀ t ∈ parseExpression expression, (t.overlaps candidate = true ↔
      ∃ v, t.contains v = true ∧ candidate.contains v = true) := by
    intro t ht
    obtain ⟨ht, hsettled⟩ := h t ht
    exact ⟨Term.exists_common ht hupright, fun hv => ((Term.exists_common_iff hsettled).1 hv).2.2⟩
  unfold isMatch
  rw [hp]
  dsimp only
  simp only [admits_wildcard hexact, admits_exact, List.any_eq_true]
  constructor
  · rintro ⟨t, ht, ho⟩
    obtain ⟨v, hvt, hvc⟩ := (hcommon t ht).1 ho
    exact ⟨v, hvc, t, ht, hvt⟩
  · rintro ⟨v, hvc, t, ht, hvt⟩
    exact ⟨t, ht, (hcommon t ht).2 ⟨v, hvt, hvc⟩⟩

/-- Terms overlap when they have a version in common, and the other way round, if the ends of each
are in order and nothing lies between ends of the two that are not. The first can fail only for a
range that gives both of its ends, the second only for ends of one release and two kinds or orders.
A wildcard is then admitted when one of the versions that it stands for is. -/
theorem overlaps_iff_common (a b : Term) :
    (a.Settled b → ((∃ v, a.contains v = true ∧ b.contains v = true) ↔
      a.Upright ∧ b.Upright ∧ a.overlaps b = true)) ∧
    (a.Upright → b.Upright → a.overlaps b = true →
      ∃ v, a.contains v = true ∧ b.contains v = true) ∧
    (∀ raw, Term.parse? raw = some a → Term.splitRange? (normalize raw) = none → a.Upright) ∧
    (∀ lower upper, (Strict lower ↔ Strict upper) → (Settled lower upper ↔
      ∀ v, le lower v = true → le v upper = true → le lower upper = true)) ∧
    ∀ version expression, Term.parse? version = some a → '*' ∈ normalize version →
      (∀ t ∈ parseExpression expression, t.Upright ∧ t.Settled a) →
      (isMatch version expression = true ↔ ∃ v, a.contains v = true ∧
        admits (.exact v) (parseExpression expression) = true) := by
  refine ⟨?_, ?_, ?_, ?_, ?_⟩
  · intro h
    exact Term.exists_common_iff h
  · intro ha hb ho
    exact Term.exists_common ha hb ho
  · intro raw hp hs
    exact Term.upright_of_parse hp hs
  · intro lower upper hkind
    exact settled_iff_of_kind hkind
  · intro version expression hp hs h
    exact isMatch_wildcard hp hs h

/-- A wildcard overlaps the range around its lower end, and the two have a version in common. -/
theorem overlaps_iff_common_wildcard :
    Term.parse? "2.1.*" = some (.range "2.1.0" "2.1.999") ∧
    (∃ v, (Term.range "2.1.0" "2.1.999").contains v = true ∧
      (Term.range "2.0.0" "2.1.4").contains v = true) ∧
    (∃ v, (Term.range "2.1.0" "2.1.999").contains v = true ∧
      admits (.exact v) (parseExpression "2.0.0-2.1.4, 3.0.0") = true) ∧
    (¬∃ v, (Term.range "2.1.0" "2.1.999").contains v = true ∧
      (Term.exact "3.0.0").contains v = true) ∧
    ¬Settled "2.1.0" "2.1.0-rc" := by
  obtain ⟨-, hcommon, hupright, hkind, hmatch⟩ :=
    overlaps_iff_common (.range "2.1.0" "2.1.999") (.range "2.0.0" "2.1.4")
  obtain ⟨hiff, -⟩ := overlaps_iff_common (.range "2.1.0" "2.1.999") (.exact "3.0.0")
  have hparse : Term.parse? "2.1.*" = some (.range "2.1.0" "2.1.999") := by decide +kernel
  have hwhole := hupright _ hparse (by decide +kernel)
  refine ⟨hparse, ?_, ?_, fun hv => ?_, ?_⟩
  · exact hcommon hwhole (by decide +kernel) (by decide +kernel)
  · refine (hmatch _ _ hparse (by decide +kernel) ?_).1 (by decide +kernel)
    rw [show parseExpression "2.0.0-2.1.4, 3.0.0" = [.range "2.0.0" "2.1.4", .exact "3.0.0"]
      by decide +kernel]
    decide +kernel
  · exact absurd ((hiff (by decide +kernel)).1 hv) (by decide +kernel)
  · -- Between a release and its pre-release lies the short spelling of the release.
    have hlower : le "2.1.0" "2.1" = true := by
      rw [le_of_not_strict 3 (by decide +kernel) (by decide) (by decide)]
      decide +kernel
    have hupper : le "2.1" "2.1.0-rc" = true := by
      rw [le_of_not_strict 3 (by decide +kernel) (by decide) (by decide)]
      decide +kernel
    rw [hkind _ _ (by decide +kernel)]
    exact fun h => absurd (h "2.1" hlower hupper) (by decide +kernel)

/-- Ranges that are written the wrong way round overlap others without a version in common, and so a
wildcard is admitted that stands for none of the versions; a pre-release lies in two ranges that do
not overlap. -/
theorem overlaps_without_common :
    (∃ a b, Term.parse? "2.0-1.0" = some a ∧ Term.parse? "1.0-2.0" = some b ∧
      a.overlaps b = true ∧ ¬∃ v, a.contains v = true ∧ b.contains v = true) ∧
    (∃ a b, Term.parse? "2.1.0.1-3" = some a ∧ Term.parse? "2.0-2.1.0" = some b ∧
      a.overlaps b = false ∧ a.contains "2.1.0-rc.1" = true ∧ b.contains "2.1.0-rc.1" = true) ∧
    isMatch "*" "2.0-1.0" = true ∧
      ¬∃ v, Term.any.contains v = true ∧ admits (.exact v) (parseExpression "2.0-1.0") = true := by
  have hreversed : le "2.0" "1.0" = false := by
    rw [le_of_not_strict 2 (by decide +kernel) (by decide) (by decide)]
    decide +kernel
  have hnone : ¬∃ v, (Term.range "2.0" "1.0").contains v = true := by
    rintro ⟨v, hv⟩
    obtain ⟨hl, hu⟩ := Term.contains_iff_between.1 hv
    have hsettled : Settled "2.0" "1.0" :=
      settled_of_not_strict (by decide +kernel) (by decide +kernel)
    have hle := hsettled.le_of_between (hl "2.0" (by decide)) (hu "1.0" (by decide))
    rw [hreversed] at hle
    cases hle
  refine ⟨⟨.range "2.0" "1.0", .range "1.0" "2.0", by decide +kernel, by decide +kernel, ?_, ?_⟩,
    ⟨.range "2.1.0.1" "3", .range "2.0" "2.1.0", by decide +kernel, by decide +kernel, ?_, ?_, ?_⟩,
    ?_, ?_⟩
  · simp only [Term.overlaps, Term.bounds?, le_self, Bool.and_self]
  · rintro ⟨v, hv, -⟩
    exact hnone ⟨v, hv⟩
  · simp only [Term.overlaps, Term.bounds?]
    rw [le_of_not_strict (a := "2.1.0.1") (b := "2.1.0") 4 (by decide +kernel) (by decide) (by decide)]
    decide +kernel
  · simp only [Term.contains, Term.bounds?]
    rw [le_of_not_strict (a := "2.1.0.1") 4 (by decide +kernel) (by decide) (by decide),
      le_of_not_strict (b := "3") 4 (by decide +kernel) (by decide) (by decide)]
    decide +kernel
  · simp only [Term.contains, Term.bounds?]
    rw [le_of_not_strict (a := "2.0") 4 (by decide +kernel) (by decide) (by decide),
      show le "2.1.0-rc.1" "2.1.0" = true by decide +kernel]
    decide +kernel
  · decide +kernel
  · rintro ⟨v, -, hv⟩
    rw [show parseExpression "2.0-1.0" = [.range "2.0" "1.0"] by decide +kernel] at hv
    exact hnone ⟨v, by simpa [admits_exact] using hv⟩

end Patchboard.Version
