import Patchboard.Text.Basic

set_option autoImplicit false

namespace Patchboard.Text

theorem toNat_toLower (c : Char) : c.toLower.toNat =
    if 65 ≤ c.toNat ∧ c.toNat ≤ 90 then c.toNat + 32 else c.toNat := by
  have hupper : c.val ≥ 'A'.val ∧ c.val ≤ 'Z'.val ↔ 65 ≤ c.toNat ∧ c.toNat ≤ 90 := by
    simp only [ge_iff_le, UInt32.le_iff_toNat_le]
    rfl
  by_cases h : c.val ≥ 'A'.val ∧ c.val ≤ 'Z'.val
  · have hc := hupper.1 h
    have hlower : c.toLower.val = c.val + ('a'.val - 'A'.val) := congrArg Char.val (dif_pos h)
    rw [if_pos hc]
    change c.toLower.val.toNat = c.val.toNat + 32
    have hsmall : c.val.toNat ≤ 90 := hc.2
    rw [hlower, UInt32.toNat_add]
    exact Nat.mod_eq_of_lt (show c.val.toNat + 32 < 2 ^ 32 by omega)
  · have hlower : c.toLower = c := dif_neg h
    rw [if_neg (mt hupper.2 h), hlower]

theorem isBlank_toLower (c : Char) : isBlank c.toLower = isBlank c := by
  have hlower := toNat_toLower c
  rw [Bool.eq_iff_iff]
  simp only [isBlank, blankRanges, List.any_cons, List.any_nil, Bool.or_false, Bool.or_eq_true,
    Bool.and_eq_true, decide_eq_true_eq]
  split at hlower <;> omega

theorem toLower_toLower (c : Char) : c.toLower.toLower = c.toLower := by
  have hlower := toNat_toLower c
  refine Char.toNat_inj.1 ((toNat_toLower _).trans (if_neg ?_))
  split at hlower <;> omega

theorem toLower_eq_iff {c d : Char} (hd : d.isAlpha = false) : c.toLower = d ↔ c = d := by
  have hletter : ¬(65 ≤ d.toNat ∧ d.toNat ≤ 90) ∧ ¬(97 ≤ d.toNat ∧ d.toNat ≤ 122) := by
    delta Char.isAlpha Char.isUpper Char.isLower at hd
    simpa [UInt32.le_iff_toNat_le] using hd
  rw [← Char.toNat_inj, ← Char.toNat_inj, toNat_toLower]
  split <;> omega

theorem lowerAscii_append (s s' : List Char) :
    lowerAscii (s ++ s') = lowerAscii s ++ lowerAscii s' :=
  List.map_append

theorem length_lowerAscii (s : List Char) : (lowerAscii s).length = s.length := List.length_map ..

theorem mem_lowerAscii_iff {c : Char} (hc : c.isAlpha = false) {s : List Char} :
    c ∈ lowerAscii s ↔ c ∈ s := by
  unfold lowerAscii
  rw [List.mem_map]
  constructor
  · rintro ⟨d, hd, hlower⟩
    rwa [← (toLower_eq_iff hc).1 hlower]
  · exact fun h => ⟨c, h, (toLower_eq_iff hc).2 rfl⟩

end Patchboard.Text
