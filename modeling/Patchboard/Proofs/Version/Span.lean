import Patchboard.Proofs.Version.Overlap

set_option autoImplicit false

namespace Patchboard.Version
open Text

namespace Term

/-- A text that is read as a range although it does not give two ends. -/
def IsWildcard (raw : String) : Prop :=
  splitRange? (normalize raw) = none ∧ ∃ lower upper, parse? raw = some (.range lower upper)

def lowest (raw : String) : String := String.ofList (fill starLow (normalize raw))

def highest (raw : String) : String := String.ofList (fill starHigh (normalize raw))

variable {raw : String}

theorem parse?_of_star (hs : splitRange? (normalize raw) = none) (hstar : '*' ∈ normalize raw)
    (hne : normalize raw ≠ ['*']) : parse? raw = some (.range (lowest raw) (highest raw)) := by
  have hall : normalize raw ≠ ['a', 'l', 'l'] := by
    intro h
    rw [h] at hstar
    exact absurd hstar (by decide)
  unfold parse? ofNormal?
  rw [if_neg (by simpa using List.ne_nil_of_mem hstar), if_neg (by simp [hall, hne]), hs]
  dsimp only
  rw [if_pos (by simpa using hstar)]
  rfl

theorem star_of_parse {lower upper : String} (hs : splitRange? (normalize raw) = none)
    (hp : parse? raw = some (.range lower upper)) : '*' ∈ normalize raw ∧ normalize raw ≠ ['*'] := by
  unfold parse? ofNormal? at hp
  rw [Option.ite_none_left_eq_some] at hp
  obtain ⟨-, hp⟩ := hp
  split at hp
  · cases hp
  · rename_i hword
    rw [hs] at hp
    dsimp only at hp
    split at hp
    · rename_i hstar
      exact ⟨by simpa using hstar, fun h => hword (by simp [h])⟩
    · cases hp

theorem isWildcard_iff : IsWildcard raw ↔
    splitRange? (normalize raw) = none ∧ '*' ∈ normalize raw ∧ normalize raw ≠ ['*'] := by
  refine and_congr_right fun hs => ⟨?_, fun ⟨hstar, hne⟩ => ⟨_, _, parse?_of_star hs hstar hne⟩⟩
  rintro ⟨lower, upper, hp⟩
  exact star_of_parse hs hp

theorem contains_lower {lower upper : String} (h : le lower upper = true) :
    (Term.range lower upper).contains lower = true := by
  simp [contains, bounds?, le_self, h]

theorem contains_upper {lower upper : String} (h : le lower upper = true) :
    (Term.range lower upper).contains upper = true := by
  simp [contains, bounds?, le_self, h]

end Term

theorem parseExpression_of_not_mem {raw : String} (h : ',' ∉ raw.toList) :
    parseExpression raw = (Term.parse? raw).toList := by
  unfold parseExpression pieces
  rw [splitOn_of_not_mem h, List.map_singleton, String.ofList_toList]
  cases hp : Term.parse? raw <;> simp [hp]

theorem isMatch_self {raw lower upper : String} (hp : Term.parse? raw = some (.range lower upper))
    (h : le lower upper = true) (hc : ',' ∉ raw.toList) : isMatch raw raw = true := by
  unfold isMatch
  rw [hp]
  dsimp only
  rw [parseExpression_of_not_mem hc, hp]
  simp [admits, Term.overlaps, Term.bounds?, h]

/-- The wildcards are the texts with a star, but for a star alone, that do not give two ends. Each is
read as the range from itself with zeros for its stars to itself with nines, and these two ends are in
order, whatever stands around the stars. So the range holds both of them, and the wildcard matches
itself when it is a single term. -/
theorem wildcard_spans (raw : String) :
    (Term.IsWildcard raw ↔ Term.splitRange? (normalize raw) = none ∧ '*' ∈ normalize raw ∧
      normalize raw ≠ ['*']) ∧
    (Term.IsWildcard raw →
      Term.parse? raw = some (.range (Term.lowest raw) (Term.highest raw)) ∧
      order (Term.lowest raw) (Term.highest raw) ≠ .gt ∧
      (Term.range (Term.lowest raw) (Term.highest raw)).contains (Term.lowest raw) = true ∧
      (Term.range (Term.lowest raw) (Term.highest raw)).contains (Term.highest raw) = true ∧
      (',' ∉ raw.toList → isMatch raw raw = true)) := by
  refine ⟨Term.isWildcard_iff, fun h => ?_⟩
  obtain ⟨hs, hstar, hne⟩ := Term.isWildcard_iff.1 h
  have hp := Term.parse?_of_star hs hstar hne
  have hle : le (Term.lowest raw) (Term.highest raw) = true := (filled_fill (normalize raw)).le_ofList
  exact ⟨hp, le_iff_ne_gt.1 hle, Term.contains_lower hle, Term.contains_upper hle,
    isMatch_self hp hle⟩

/-- The lower end is a strict version and the upper one is not, since its first number is too large
for a word. -/
theorem wildcard_spans_overlong :
    Term.IsWildcard " 1844674407370955161*.0.0-RC.*x+*" ∧
      Strict "18446744073709551610.0.0-rc.0x+0" ∧
      ¬Strict "1844674407370955161999.0.0-rc.999x+999" ∧
      order "18446744073709551610.0.0-rc.0x+0" "1844674407370955161999.0.0-rc.999x+999" ≠ .gt ∧
      isMatch " 1844674407370955161*.0.0-RC.*x+*" " 1844674407370955161*.0.0-RC.*x+*" = true := by
  obtain ⟨hiff, hspans⟩ := wildcard_spans " 1844674407370955161*.0.0-RC.*x+*"
  have hwild : Term.IsWildcard " 1844674407370955161*.0.0-RC.*x+*" := hiff.2 (by decide +kernel)
  obtain ⟨-, hends, -, -, hself⟩ := hspans hwild
  have hlowest : Term.lowest " 1844674407370955161*.0.0-RC.*x+*" =
      "18446744073709551610.0.0-rc.0x+0" := by decide +kernel
  have hhighest : Term.highest " 1844674407370955161*.0.0-RC.*x+*" =
      "1844674407370955161999.0.0-rc.999x+999" := by decide +kernel
  rw [hlowest, hhighest] at hends
  exact ⟨hwild, by decide +kernel, by decide +kernel, hends, hself (by decide)⟩

end Patchboard.Version
