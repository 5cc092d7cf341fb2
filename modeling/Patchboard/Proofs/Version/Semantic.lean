import Patchboard.Version.Semantic

set_option autoImplicit false

namespace Patchboard.Version.Semantic

theorem number?_eq_some {s rest : List Char} {n : Nat} (h : number? s = some (n, rest)) :
    s.takeWhile Char.isDigit ≠ [] ∧
      ¬(1 < (s.takeWhile Char.isDigit).length ∧ (s.takeWhile Char.isDigit).head? = some '0') ∧
      n = Text.numeral (s.takeWhile Char.isDigit) ∧ rest = s.dropWhile Char.isDigit := by
  unfold number? at h
  simp only [Bool.or_eq_true, Bool.and_eq_true, decide_eq_true_eq, Option.ite_none_left_eq_some,
    Option.some.injEq, Prod.mk.injEq, not_or, List.isEmpty_iff] at h
  exact ⟨h.1.1.1, h.1.1.2, h.2.1.symm, h.2.2.symm⟩

theorem dot?_eq_some {s rest : List Char} : dot? s = some rest ↔ s = '.' :: rest := by
  constructor
  · intro h
    unfold dot? at h
    split at h
    · rw [Option.some.inj h]
    · cases h
  · rintro rfl
    rfl

theorem parse?_eq_some {s : List Char} {x : Semantic} : parse? s = some x ↔ ∃ s₁ s₂ s₃,
    number? s = some (x.major, '.' :: s₁) ∧ number? s₁ = some (x.minor, '.' :: s₂) ∧
      number? s₂ = some (x.patch, s₃) ∧ tail? s₃ = some (x.pre, x.build) := by
  cases x
  simp only [parse?, Option.bind_eq_bind, Option.bind_eq_some_iff, Option.pure_def,
    Option.some.injEq, Prod.exists, Semantic.mk.injEq, dot?_eq_some]
  constructor
  · rintro ⟨_, _, hmajor, s₁, rfl, _, _, hminor, s₂, rfl, _, s₃, hpatch, _, _, htail, rfl, rfl, rfl,
      rfl, rfl⟩
    exact ⟨s₁, s₂, s₃, hmajor, hminor, hpatch, htail⟩
  · rintro ⟨s₁, s₂, s₃, hmajor, hminor, hpatch, htail⟩
    exact ⟨_, _, hmajor, s₁, rfl, _, _, hminor, s₂, rfl, _, s₃, hpatch, _, _, htail, rfl, rfl, rfl,
      rfl, rfl⟩

theorem parse?_zero {s : List Char} (h : (parse? s).isSome) : parse? ('0' :: s) = none := by
  obtain ⟨x, hx⟩ := Option.isSome_iff_exists.1 h
  obtain ⟨s₁, s₂, s₃, hmajor, -⟩ := parse?_eq_some.1 hx
  have hdigits := (number?_eq_some hmajor).1
  rw [Option.eq_none_iff_forall_ne_some]
  intro y hy
  obtain ⟨s₁', s₂', s₃', hmajor', -⟩ := parse?_eq_some.1 hy
  refine (number?_eq_some hmajor').2.1 ⟨?_, rfl⟩
  exact Nat.succ_lt_succ (List.length_pos_iff.2 hdigits)

end Patchboard.Version.Semantic
