import Patchboard.Plan
import Patchboard.Proofs.Tree.Confinement

set_option autoImplicit false

namespace Patchboard.Plan
open Path Tree

theorem isName_inlineName (number : Nat) {extension : String} (he : '/' ∉ extension.toList) :
    IsName (inlineName number extension) := by
  have hchars : (inlineName number extension).toList =
      "$auto_".toList ++ Nat.toDigits 10 number ++ ".".toList ++ extension.toList := by
    simp [inlineName, Text.decimal]
  have hdigits : '/' ∉ Nat.toDigits 10 number := fun h =>
    absurd (Nat.isDigit_of_mem_toDigits (by decide) (by decide) h) (by decide)
  refine ⟨?_, ?_, ?_⟩ <;> rw [hchars]
  · simp [isIdle]
  · simp [hdigits, he]
  · simp

section
variable {R : Tree → Tree → Prop} (hR : Lasting R) {c : Context}
  (hd : Follows R (FileTree.ensureDirectory c.staging))
  (hw : ∀ number extension text, '/' ∉ extension.toList →
    Follows R (writeText (c.staging.join ⟨inlineName number extension⟩) text))
include hR hd hw

theorem follows_attach (a : Action) (node : Document) {extension : String}
    (he : '/' ∉ extension.toList) (count : Nat) : Follows R (attach c a node extension count) := by
  unfold attach
  split
  · exact .bind hR hd fun _ => .bind hR (follows_on (hw _ _ _ he) _ _) fun _ => .pure hR _
  · exact .pure hR _

theorem follows_actionOf (kind : ActionKind) (node : Document) (count : Nat) :
    Follows R (actionOf c kind node count) := by
  have hattach (a : Action) {extension : String} (he : '/' ∉ extension.toList) :=
    follows_attach hR hd hw a node he count
  unfold actionOf
  cases kind with
  | readme | license | redirect =>
    exact .bind hR (hattach _ (by decide)) fun _ => .pure hR _
  | code | database => exact hattach _ (by decide)
  | modification => exact hattach _ (by split <;> decide)
  | _ => exact .pure hR _

theorem follows_planNode (node : Document) (count : Nat) : Follows R (planNode c node count) := by
  unfold planNode
  dsimp only
  split
  · exact .pure hR _
  · exact .pure hR _
  · refine .bind hR (follows_actionOf hR hd hw _ _ _) fun _ => ?_
    split <;> exact .pure hR _

theorem follows_planNodes (permissions : Permissions) (nodes : List Document) (count : Nat)
    (blocked : List Path) : Follows R (planNodes c permissions nodes count blocked) := by
  induction nodes generalizing count blocked with
  | nil => exact .pure hR _
  | cons node nodes ih =>
    unfold planNodes
    exact .bind hR (follows_planNode hR hd hw node count) fun _ => .bind hR (.get hR) fun _ =>
      .bind hR (ih _ _) fun _ => .pure hR _

end

/-- Planning takes no other steps than to make the directory that a package is staged in and to
write files with numbered names there. -/
theorem follows_actions {R : Tree → Tree → Prop} (hR : Lasting R) {request : PlanRequest}
    (hd : Follows R (FileTree.ensureDirectory request.staging))
    (hw : ∀ number extension text, '/' ∉ extension.toList →
      Follows R (writeText (request.staging.join ⟨inlineName number extension⟩) text))
    (m : Manifest) (vars : PathVariables) (permissions : Permissions) :
    Follows R (actions m request vars permissions) := by
  unfold actions
  split
  · exact .throw hR _
  · exact .bind hR (follows_planNodes (c := ⟨vars, request.staging⟩) hR hd hw permissions _ _ _)
      fun _ => .pure hR _

theorem outgrown_actions (m : Manifest) (request : PlanRequest) (vars : PathVariables)
    (permissions : Permissions) : Follows Outgrown (actions m request vars permissions) :=
  follows_actions lasting_outgrown (outgrown_ensureDirectory _)
    (fun _ _ _ _ => outgrown_writeText _ _) m vars permissions

theorem confines_actions (base : Tree) (m : Manifest) (request : PlanRequest)
    (vars : PathVariables) (permissions : Permissions) :
    Confines base (base.lexicalPlace request.staging <+: ·) (base.way request.staging)
      (actions m request vars permissions) := by
  have hd : Confines base (base.lexicalPlace request.staging <+: ·) (base.way request.staging)
      (FileTree.ensureDirectory request.staging) := confines_fileTree_ensureDirectory _
  have hw (number : Nat) (extension text : String) (he : '/' ∉ extension.toList) :
      Confines base (base.lexicalPlace request.staging <+: ·) (base.way request.staging)
        (writeText (request.staging.join ⟨inlineName number extension⟩) text) := by
    refine confines_writeContents ?_ _
    rw [lexicalPlace_join (isName_inlineName number he)]
    exact List.prefix_append ..
  exact follows_actions lasting_confined hd hw m vars permissions

end Patchboard.Plan
