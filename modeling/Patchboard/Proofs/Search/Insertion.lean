import Patchboard.Proofs.Pattern.Enclosure
import Patchboard.Proofs.Pattern.Gaps
import Patchboard.Proofs.Search.Literal

set_option autoImplicit false

/-!
Insertions. The pattern of an insertion is put between parentheses, and what the first group matched
is written back beside the addition. If the pattern can be read on its own, the group is the whole
match, so nothing is lost. The patterns of literal and loose searches always can. A regular expression
may close the group itself, and then what it matches outside of the group is lost.
-/

namespace Patchboard.Search
open Pattern

/-- The search for the same text that puts the addition in its place. -/
def alone (s : Search) : Search := { s with position := .replace }

theorem exists_compile_alone {s : Search} (h : s.isPattern = false) :
    ∃ own, s.alone.compile = .ok own := by
  have hparse : ∃ node, Node.parse? s.alone.wholePattern = some node := by
    cases hl : s.loose with
    | false => exact ⟨_, parse?_wholePattern ⟨h, hl⟩⟩
    | true =>
      refine ⟨looseNode (collapse s.search.toList), ?_⟩
      rw [← parse?_loosen]
      simp [wholePattern, alone, body, h, hl]
  obtain ⟨node, hnode⟩ := hparse
  exact ⟨_, by rw [compile, hnode]⟩

theorem compile_eq_ok {s : Search} {c : Compiled} (h : s.compile = .ok c) :
    Node.parse? s.wholePattern = some c.node ∧ c.pieces = s.replacement := by
  unfold compile at h
  split at h
  · rename_i node hnode
    cases h
    exact ⟨hnode, rfl⟩
  · cases h

theorem node_of_alone {s : Search} (hp : s.position = .before ∨ s.position = .after)
    {c own : Compiled} (hc : s.compile = .ok c) (hown : s.alone.compile = .ok own) :
    ∃ body, c.node = .group 1 body ∧ body.bare = own.node.bare := by
  have hread := (compile_eq_ok hc).1
  have halone := (compile_eq_ok hown).1
  refine parse?_enclosed (s := s.body) halone ?_
  rw [← hread]
  rcases hp with hp | hp <;> simp [wholePattern, hp]

theorem applyOnce_insertion {s : Search} (hp : s.position = .before ∨ s.position = .after)
    {c : Compiled} (hc : s.compile = .ok c) {body : Node} (hbody : c.node = .group 1 body)
    {h : List Char} {f : Found} (hf : c.node.find? h = some f) :
    c.applyOnce h = edited s.position f.before f.matched f.after (hidden s.add.toList) := by
  have hgroup : f.group 1 = f.matched := group_of_find? (n := body) (by rw [← hbody, hf])
  rw [Compiled.applyOnce, hf]
  dsimp only
  rw [(compile_eq_ok hc).2, expand_pieces f (faithful_replacement s)]
  rcases hp with hp | hp <;> simp [replacement, edited, hp, Piece.expand, hgroup]

/-- An insertion whose pattern can be read on its own finds the same first match as that pattern,
puts the addition right before or right behind it, and keeps every character. -/
theorem insertion_keeps_text {s : Search} (hp : s.position = .before ∨ s.position = .after)
    (hpattern : s.isPattern = true → ∃ own, s.alone.compile = .ok own)
    {c : Compiled} (hc : s.compile = .ok c) (hadd : Clear s.add.toList)
    {h : List Char} (hh : Clear h) :
    ∃ own, s.alone.compile = .ok own ∧ c.isFound h = own.isFound h ∧
      (c.isFound h = true → ∃ f, c.node.find? h = some f ∧
        (own.node.find? h).map Found.bare = some f.bare ∧
        h = f.before ++ f.matched ++ f.after ∧
        revealed (c.applyOnce h) =
          edited s.position f.before f.matched f.after s.add.toList) ∧
      (c.isFound h = false → revealed (c.applyOnce h) = h) := by
  obtain ⟨own, hown⟩ : ∃ own, s.alone.compile = .ok own := by
    cases hs : s.isPattern with
    | false => exact exists_compile_alone hs
    | true => exact hpattern hs
  obtain ⟨body, hbody, hbare⟩ := node_of_alone hp hc hown
  have hsame : (c.node.find? h).map Found.bare = (own.node.find? h).map Found.bare := by
    rw [← find?_bare, ← find?_bare, hbody, Node.bare, hbare]
  refine ⟨own, hown, ?_, fun hfound => ?_, fun hlost => ?_⟩
  · have hsome := congrArg Option.isSome hsame
    rw [Option.isSome_map, Option.isSome_map] at hsome
    rw [Compiled.isFound_eq, Compiled.isFound_eq, hsome]
  · rw [Compiled.isFound_eq] at hfound
    obtain ⟨f, hf⟩ := Option.isSome_iff_exists.1 hfound
    have heq := eq_of_find? hf
    refine ⟨f, hf, ?_, heq, ?_⟩
    · rw [← hsame, hf]
      rfl
    · rw [applyOnce_insertion hp hc hbody hf]
      exact revealed_edited (heq ▸ hh) hadd
  · rw [Compiled.isFound_eq] at hlost
    have hnone : c.node.find? h = none := Option.not_isSome_iff_eq_none.1 (by simp [hlost])
    rw [Compiled.applyOnce, hnone]
    exact revealed_of_clear hh

theorem exists_of_any (result : Except Problem Compiled) (p : Compiled → Bool)
    (h : result.toOption.any p = true) : ∃ c, result = .ok c ∧ p c = true := by
  cases result with
  | error problem => cases h
  | ok c => exact ⟨c, rfl, h⟩

/-- A regular expression with a group of its own, in an alternative that takes part. -/
theorem insertion_keeps_text_groups :
    ∃ c own, (⟨.before, true, false, "a|(b)", "$1x"⟩ : Search).compile = .ok c ∧
      (⟨.before, true, false, "a|(b)", "$1x"⟩ : Search).alone.compile = .ok own ∧
      Clear "$1x".toList ∧ Clear "cbd".toList ∧ c.isFound "cbd".toList = true ∧
      own.isFound "cbd".toList = true ∧
      ∃ f, c.node.find? "cbd".toList = some f ∧
        (own.node.find? "cbd".toList).map Found.bare = some f.bare ∧
        "cbd".toList = f.before ++ f.matched ++ f.after ∧
        revealed (c.applyOnce "cbd".toList) = f.before ++ "$1x".toList ++ f.matched ++ f.after := by
  have hadd : Clear "$1x".toList := by decide
  have hh : Clear "cbd".toList := by decide
  obtain ⟨c, hc, hfound⟩ := exists_of_any
    (⟨.before, true, false, "a|(b)", "$1x"⟩ : Search).compile
    (fun c => c.isFound "cbd".toList) (by decide +kernel)
  have hpattern : ∃ own, (⟨.before, true, false, "a|(b)", "$1x"⟩ : Search).alone.compile =
      .ok own := by
    obtain ⟨own, hown, -⟩ := exists_of_any
      (⟨.before, true, false, "a|(b)", "$1x"⟩ : Search).alone.compile (fun _ => true)
      (by decide +kernel)
    exact ⟨own, hown⟩
  obtain ⟨own, hown, hsame, hkeep, -⟩ :=
    insertion_keeps_text (.inl rfl) (fun _ => hpattern) hc hadd hh
  exact ⟨c, own, hc, hown, hadd, hh, hfound, hsame ▸ hfound, hkeep hfound⟩

/-- A pattern that closes the group itself: what it matches outside of the group is lost. -/
theorem insertion_loses_text : Clear "x".toList ∧ Clear "ab".toList ∧
    ∃ c, (⟨.before, true, false, "a)(b", "x"⟩ : Search).compile = .ok c ∧
      c.isFound "ab".toList = true ∧ revealed (c.applyOnce "ab".toList) = "xa".toList ∧
      ∀ before after, "ab".toList = before ++ after →
        revealed (c.applyOnce "ab".toList) ≠ before ++ "x".toList ++ after := by
  refine ⟨by decide, by decide, ?_⟩
  obtain ⟨c, hc, hrun⟩ := exists_of_any
    (⟨.before, true, false, "a)(b", "x"⟩ : Search).compile
    (fun c => c.isFound "ab".toList && revealed (c.applyOnce "ab".toList) == "xa".toList)
    (by decide +kernel)
  rw [Bool.and_eq_true, beq_iff_eq] at hrun
  refine ⟨c, hc, hrun.1, hrun.2, fun before after hab he => ?_⟩
  rw [hrun.2] at he
  have hlen := congrArg List.length he
  have hlen' := congrArg List.length hab
  simp only [List.length_append] at hlen hlen'
  simp at hlen hlen'
  omega

end Patchboard.Search
