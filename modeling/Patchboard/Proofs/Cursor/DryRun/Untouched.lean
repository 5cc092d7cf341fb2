import Patchboard.Proofs.Cursor.DryRun.Action
import Patchboard.Proofs.Cursor.Walk

set_option autoImplicit false

namespace Patchboard

theorem Patch.site_applyTo_testing {b : Board} {undo : Bool} (patch : Patch) (s : Site) :
    (patch.applyTo b ⟨true, undo⟩ s).site = s := by
  have hsame := Patch.applyTo_of_settles (b := b) (o := ⟨true, undo⟩)
    (R := fun p p' => p'.site = p.site) (fun _ => rfl) (fun _ _ _ h h' => h'.trans h)
    (fun _ _ _ h => h.site_of_testing) patch s
  exact hsame

namespace Cursor

section
variable {c : RunContext} {a : Action} {s : Cursor}

theorem site_runModification_testing :
    (runModification (c.withTesting true) a s).2.site = s.site := by
  cases ht : s.site.tree.text? (patchFile a) with
  | error e =>
    rw [runModification_unread (by simp [ht])]
  | ok raw =>
    cases hp : patch? a raw with
    | error problem =>
      rw [runModification_malformed ht hp]
    | ok patch =>
      obtain ⟨-, hsite, -⟩ := runModification_ok (c := c.withTesting true) ht hp
      rw [hsite]
      exact patch.site_applyTo_testing s.site

theorem site_runAction_testing (actions : List Action) (index : Nat) :
    (runAction (c.withTesting true) actions index a s).2.site = s.site := by
  have htree : (runTree (c.withTesting true) a s).2.site = s.site := by rw [runTree_testing]
  unfold runAction
  split
  · exact runChmod_testing
  · exact site_runModification_testing
  · rfl
  · exact site_runDocument actions index
  · exact site_runDocument actions index
  · rfl
  · exact site_runDeferred
  · exact site_runDeferred
  · exact site_runDeferred
  · exact site_runDeferred
  · exact site_runDeferred
  · exact htree

theorem site_next_testing (actions : List Action) :
    (next (c.withTesting true) actions s).2.site = s.site := by
  cases h : actions[s.position]? with
  | none => rw [next_none h]
  | some a =>
    rw [next_some actions h]
    exact site_runAction_testing (s := { s with position := s.position + 1 }) actions s.position

theorem site_walk_testing (actions : List Action) (n : Nat) :
    (walk (c.withTesting true) actions n s).2.site = s.site := by
  induction n generalizing s with
  | zero => rfl
  | succ n ih =>
    cases h : actions[s.position]? with
    | none => rw [walk_of_done (n + 1) h]
    | some a =>
      have hnext := next_some (c := c.withTesting true) actions h
      have hsite := site_next_testing (c := c) (s := s) actions
      rw [hnext] at hsite
      rw [walk_succ hnext]
      exact ih.trans hsite

end

/-- A test of any plan is carried out to its end and leaves the site as it is after every action, so
a second test reports the same. -/
theorem site_runAllActions_testing (c : RunContext) (actions : List Action) (site : Site) :
    (∀ n, (walk (c.withTesting true) actions n (start site)).2.site = site) ∧
      isDone actions (runAllActions (c.withTesting true) actions site).2 = true ∧
      (runAllActions (c.withTesting true) actions site).2.site = site ∧
      (runAllActions (c.withTesting true) actions
          (runAllActions (c.withTesting true) actions site).2.site).1 =
        (runAllActions (c.withTesting true) actions site).1 := by
  have hwalk : ∀ n, (walk (c.withTesting true) actions n (start site)).2.site = site :=
    fun n => site_walk_testing actions n
  have hsite : (runAllActions (c.withTesting true) actions site).2.site = site :=
    hwalk actions.length
  have hdone : isDone actions (runAllActions (c.withTesting true) actions site).2 = true :=
    isDone_walk (s := start site) (by simp [start])
  exact ⟨hwalk, hdone, hsite, by rw [hsite]⟩

end Cursor

end Patchboard
