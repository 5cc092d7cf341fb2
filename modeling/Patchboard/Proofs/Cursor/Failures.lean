import Patchboard.Proofs.Cursor.DryRun.Action
import Patchboard.Proofs.Cursor.Walk

set_option autoImplicit false

namespace Patchboard

theorem Patch.sound_applyTo (b : Board) (o : PatchOptions) (patch : Patch) (s : Site) :
    (patch.applyTo b o s).report.Sound := by
  have hsound := Patch.applyTo_of_settles (b := b) (o := o)
    (R := fun p p' => p.report.Sound → p'.report.Sound) (fun _ h => h)
    (fun _ _ _ h h' hp => h' (h hp)) (fun path? p p' h hp => by
      obtain ⟨new, hr⟩ := h.records
      exact hr.sound hp) patch s
  exact hsound Report.sound_empty

namespace Cursor

section
variable {c : RunContext} {a : Action} {s : Cursor}

theorem isFailure_applyEvent {kind : EventKind} (hk : kind.isFailure = false) (path : Path)
    {r : StepResult} (hr : r.isFailure = false) :
    (applyEvent path kind r).isFailure = false := by
  cases kind with
  | opened | replace outcome => exact hr
  | saved =>
    unfold applyEvent
    dsimp only
    rw [if_neg (by simp [hr])]
    rfl
  | skipped => rfl
  | chmodNeeded =>
    unfold applyEvent
    dsimp only
    split
    · rfl
    · exact hr
  | failure outcome | missing | error problem => simp [EventKind.isFailure] at hk

theorem isFailure_foldInto {kind : EventKind} (hk : kind.isFailure = false) (path : Path)
    (theme : Nat) {folded : List Folded} (h : ∀ f ∈ folded, f.result.isFailure = false) :
    ∀ f ∈ foldInto c a path theme kind folded, f.result.isFailure = false := by
  induction folded with
  | nil =>
    intro f hf
    rw [foldInto, List.mem_singleton] at hf
    rw [hf]
    exact isFailure_applyEvent hk path rfl
  | cons first folded ih =>
    have hfirst := h first (List.mem_cons_self ..)
    have hrest := ih fun f hf => h f (List.mem_cons_of_mem _ hf)
    intro f hf
    rw [foldInto] at hf
    split at hf
    · rcases List.mem_cons.1 hf with rfl | hf
      · exact isFailure_applyEvent hk path hfirst
      · exact h f (List.mem_cons_of_mem _ hf)
    · rcases List.mem_cons.1 hf with rfl | hf
      · exact hfirst
      · exact hrest f hf

theorem isFailure_foldl_foldInto {events : List Event}
    (h : ∀ e ∈ events, e.kind.isFailure = false) (folded : List Folded)
    (hfolded : ∀ f ∈ folded, f.result.isFailure = false) :
    ∀ f ∈ events.foldl (fun folded e =>
      match e.path with
      | some path => foldInto c a path e.theme e.kind folded
      | none => folded) folded, f.result.isFailure = false := by
  induction events generalizing folded with
  | nil => exact hfolded
  | cons e events ih =>
    refine ih (fun other ho => h other (List.mem_cons_of_mem _ ho)) _ ?_
    dsimp only
    split
    · exact isFailure_foldInto (h e (List.mem_cons_self ..)) _ e.theme hfolded
    · exact hfolded

theorem isFailure_foldEvents {events : List Event} (h : ∀ e ∈ events, e.kind.isFailure = false) :
    ∀ f ∈ foldEvents c a events, f.result.isFailure = false :=
  isFailure_foldl_foldInto h [] (by simp)

theorem isFailure_settleMessage (r : StepResult) :
    (settleMessage r).isFailure = r.isFailure := by
  unfold settleMessage
  split <;> rfl

theorem looseResult?_eq_none {e : Event} (hk : e.kind.isFailure = false) :
    looseResult? a e = none := by
  unfold looseResult?
  split
  · rename_i hkind
    rw [hkind] at hk
    simp [EventKind.isFailure] at hk
  · rfl

theorem anyFailure_patchResults {report : Report} (h : report.Sound) :
    anyFailure (patchResults c a report) = !report.everythingFound := by
  unfold patchResults anyFailure
  dsimp only
  split
  · rename_i hadded
    obtain ⟨hfound, -⟩ := Bool.and_eq_true_iff.1 hadded
    rw [List.any_append, hfound]
    exact Bool.or_true _
  · rename_i hkept
    cases hf : report.everythingFound with
    | false =>
      rw [hf, Bool.not_false, Bool.true_and, Bool.not_eq_true', Bool.not_eq_false] at hkept
      exact hkept
    | true =>
      have hclean : ∀ e ∈ report.events, e.kind.isFailure = false := by
        intro e he
        cases hk : e.kind.isFailure with
        | false => rfl
        | true =>
          rw [h.2 ⟨e, he, hk⟩] at hf
          simp at hf
      have hloose : report.events.filterMap (looseResult? a) = [] :=
        List.filterMap_eq_nil_iff.2 fun e he => looseResult?_eq_none (hclean e he)
      have hfolded := isFailure_foldEvents (c := c) (a := a) hclean
      rw [hloose]
      simpa [isFailure_settleMessage] using hfolded

theorem exists_failure_iff (results : List StepResult) :
    (∃ r ∈ results, r.status = .failed ∨ r.status = .missing) ↔
      results.any StepResult.isFailure = true := by
  have hstatus (r : StepResult) :
      (r.status = .failed ∨ r.status = .missing) ↔ r.isFailure = true := by
    unfold StepResult.isFailure
    cases r.status <;> simp [Status.isFailure]
  simp [hstatus]

theorem failure_next {actions : List Action} {raw : String} {patch : Patch}
    (ha : actions[s.position]? = some a) (hk : a.kind = .modification)
    (ht : s.site.tree.text? (patchFile a) = .ok raw) (hp : patch? a raw = .ok patch) :
    ∃ step, (next c actions s).1 = some step ∧
      ((∃ r ∈ step.results, r.status = .failed ∨ r.status = .missing) ↔
        (patch.applyTo c.board ⟨c.options.testing, a.reverse⟩ s.site).report.everythingFound =
          false) := by
  have hresults : (runAction c actions s.position a { s with position := s.position + 1 }).1 =
      patchResults c a (patch.applyTo c.board ⟨c.options.testing, a.reverse⟩ s.site).report := by
    rw [runAction_modification hk]
    exact (runModification_ok (s := { s with position := s.position + 1 }) ht hp).1
  have hany := anyFailure_patchResults (c := c) (a := a)
    (patch.sound_applyTo c.board ⟨c.options.testing, a.reverse⟩ s.site)
  unfold anyFailure at hany
  rw [next_some actions ha]
  refine ⟨_, rfl, ?_⟩
  rw [exists_failure_iff]
  dsimp only
  rw [hresults, hany, Bool.not_eq_true']

theorem failed_walk_eq (actions : List Action) (n : Nat) :
    (walk c actions n s).2.failed =
      (s.failed || (walk c actions n s).1.any ActionStep.failed) := by
  induction n generalizing s with
  | zero => simp [walk]
  | succ n ih =>
    cases h : actions[s.position]? with
    | none =>
      rw [walk_of_done (n + 1) h]
      simp
    | some a =>
      have hkeeps := keeps_runAction (c := c) (a := a) (s := { s with position := s.position + 1 })
        actions s.position
      have hfailed := hkeeps.failed
      dsimp only at hfailed
      rw [walk_succ (next_some actions h), ih, List.any_cons]
      dsimp only [record, ActionStep.failed]
      rw [hfailed, Bool.or_assoc]

theorem failed_walk_iff (actions : List Action) (site : Site) (n : Nat) :
    (walk c actions n (start site)).2.failed = true ↔
      ∃ step ∈ (walk c actions n (start site)).1,
        ∃ r ∈ step.results, r.status = .failed ∨ r.status = .missing := by
  have hstart : (start site).failed = false := rfl
  simp only [exists_failure_iff]
  rw [failed_walk_eq, hstart, Bool.false_or, List.any_eq_true]
  rfl

end

/-- No failure of a patch is lost. Its report says that not everything was found exactly when it
holds a failure, a missing file or an error; then and only then the step of the patch has a failing
result; and a run has failed exactly when one of its steps has a failing result. -/
theorem failures_reported (c : RunContext) :
    (∀ (b : Board) (o : PatchOptions) (patch : Patch) (s : Site),
      (patch.applyTo b o s).report.everythingFound = false ↔
        ∃ e ∈ (patch.applyTo b o s).report.events, e.kind.isFailure = true) ∧
      (∀ (actions : List Action) (s : Cursor) (a : Action) (raw : String) (patch : Patch),
        actions[s.position]? = some a → a.kind = .modification →
          s.site.tree.text? (patchFile a) = .ok raw → patch? a raw = .ok patch →
            ∃ step, (next c actions s).1 = some step ∧
              ((∃ r ∈ step.results, r.status = .failed ∨ r.status = .missing) ↔
                (patch.applyTo c.board ⟨c.options.testing, a.reverse⟩
                  s.site).report.everythingFound = false)) ∧
      (∀ (actions : List Action) (site : Site) (n : Nat),
        (walk c actions n (start site)).2.failed = true ↔
          ∃ step ∈ (walk c actions n (start site)).1,
            ∃ r ∈ step.results, r.status = .failed ∨ r.status = .missing) ∧
      ∀ (actions : List Action) (site : Site),
        (runAllActions c actions site).1.failed = true ↔
          ∃ step ∈ (runAllActions c actions site).1.steps,
            ∃ r ∈ step.results, r.status = .failed ∨ r.status = .missing := by
  refine ⟨fun b o patch s => patch.sound_applyTo b o s, ?_, failed_walk_iff, ?_⟩
  · intro actions s a raw patch ha hk ht hp
    exact failure_next ha hk ht hp
  · intro actions site
    exact failed_walk_iff actions site actions.length

def plainContext : RunContext :=
  ⟨⟨.empty, [], none, true⟩, fun _ _ => .ok none, ⟨.install, false, "english"⟩⟩

def streamAction : Action := { Action.make .modification "/p" with isBoardmod := true }

def namelessSite : Site :=
  ⟨⟨[(["p"], .file (.text "<file>\n/f\n</file>\n") 0o644)], []⟩, .byMode⟩

theorem failures_reported_missing :
    ∃ step, (next plainContext [streamAction] (start namelessSite)).1 = some step ∧
      ∃ r ∈ step.results, r.status = .failed ∨ r.status = .missing := by
  obtain ⟨-, hstep, -⟩ := failures_reported plainContext
  obtain ⟨step, hnext, hiff⟩ := hstep [streamAction] (start namelessSite) streamAction
    "<file>\n/f\n</file>\n" (.stream "<file>\n/f\n</file>\n") rfl rfl (by decide) rfl
  exact ⟨step, hnext, hiff.2 (by decide +kernel)⟩

end Cursor

end Patchboard
