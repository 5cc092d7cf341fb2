import Patchboard.Proofs.Patch.Groups
import Patchboard.Proofs.Patch.Jobs

set_option autoImplicit false

namespace Patchboard
open Progress

inductive Patch where
  | modification (document : Document)
  | stream (raw : String)

namespace Patch

def applyTo (b : Board) (o : PatchOptions) : Patch → Site → Progress
  | .modification d, s => Modification.applyTo b o d s
  | .stream raw, s => Boardmod.applyTo b o raw s

/-- The files of a patch and their copies, in the order they are opened. -/
def paths (b : Board) (t : Tree) : Patch → List Path
  | .modification d => (Modification.jobs b d t).filterMap Modification.Job.path?
  | .stream raw => (Boardmod.visited b raw t).filterMap Boardmod.fileOf?

inductive Task where
  | job (block : Modification.Job)
  | group (tokens : List Token)

def Task.path? : Task → Option Path
  | .job block => block.path?
  | .group tokens => tokens.head?.bind Boardmod.fileOf?

def perform (b : Board) (o : PatchOptions) (p : Progress) : Task → Progress
  | .job block => Modification.runJob b o p block
  | .group tokens => Boardmod.runGroup b o p tokens

def tasks (b : Board) (t : Tree) : Patch → List Task
  | .modification d => (Modification.jobs b d t).map .job
  | .stream raw =>
    if Boardmod.namesFile raw then (Boardmod.groups (Boardmod.visited b raw t)).map .group else []

/-- What is recorded about the patch as a whole, before its first task. -/
def opening (b : Board) (s : Site) : Patch → Progress
  | .modification d =>
    if Modification.targets b d = [] then
      Modification.malformed ⟨s, .empty⟩ "modification has no file blocks"
    else ⟨s, .empty⟩
  | .stream raw =>
    if Boardmod.namesFile raw then (Boardmod.start raw s).progress
    else (Boardmod.start raw s).progress.fail none Theme.noCustom
      (.error (.malformedPatch "boardmod patch names no files"))

theorem applyTo_eq_foldl (b : Board) (o : PatchOptions) (patch : Patch) (s : Site) :
    patch.applyTo b o s = (patch.tasks b s.tree).foldl (perform b o) (patch.opening b s) := by
  cases patch with
  | modification d =>
    unfold applyTo tasks opening
    dsimp only
    rw [List.foldl_map]
    split
    · rename_i ht
      have hjobs : Modification.jobs b d s.tree = [] := by simp [Modification.jobs, ht]
      rw [Modification.applyTo_nil ht, hjobs]
      rfl
    · rename_i ht
      exact Modification.applyTo_eq ht o s
  | stream raw =>
    unfold applyTo tasks opening
    dsimp only
    cases hn : Boardmod.namesFile raw with
    | true =>
      rw [if_pos rfl, if_pos rfl, List.foldl_map, Boardmod.applyTo_eq hn]
      exact Boardmod.foldl_advance_eq ..
    | false =>
      rw [if_neg (by simp), if_neg (by simp)]
      exact Boardmod.applyTo_nameless hn b o s

theorem settles_perform {b : Board} {patch : Patch} {t : Tree} {task : Task}
    (ht : task ∈ patch.tasks b t) (o : PatchOptions) (p : Progress) :
    Settles b o task.path? p (perform b o p task) := by
  cases patch with
  | modification d =>
    obtain ⟨block, -, rfl⟩ := List.mem_map.1 ht
    exact Modification.settles_runJob b o p block
  | stream raw =>
    unfold tasks at ht
    dsimp only at ht
    split at ht
    · obtain ⟨group, hg, rfl⟩ := List.mem_map.1 ht
      refine Boardmod.settles_runGroup (Boardmod.kind_ne_of_mem_tail hg) (fun token hm => ?_) b o p
      have hmem : token ∈ (Boardmod.groups (Boardmod.visited b raw t)).flatten :=
        List.mem_flatten.2 ⟨group, hg, hm⟩
      rw [Boardmod.flatten_groups] at hmem
      exact Boardmod.isSome_of_mem_visited hmem
    · simp at ht

theorem settles_opening (b : Board) (o : PatchOptions) (patch : Patch) (s : Site) :
    ∃ p, Settles b o none ⟨s, .empty⟩ p ∧ Settles b o none p (patch.opening b s) := by
  have hrefl (p : Progress) : Settles b o none p p := .kept (Report.Records.refl p.report)
  cases patch with
  | modification d =>
    refine ⟨_, hrefl _, ?_⟩
    unfold opening
    dsimp only
    split
    · exact Modification.settles_malformed ..
    · exact hrefl _
  | stream raw =>
    refine ⟨_, Boardmod.settles_reportProblems b o (Token.problems raw.toList) ⟨s, .empty⟩, ?_⟩
    unfold opening
    dsimp only
    split
    · exact hrefl _
    · exact Modification.settles_malformed ..

section
variable {b : Board} {o : PatchOptions} {R : Progress → Progress → Prop}

theorem foldl_of_settles (hrefl : ∀ p, R p p) (htrans : ∀ p p' p'', R p p' → R p' p'' → R p p'')
    (hsettles : ∀ path? p p', Settles b o path? p p' → R p p') {tasks : List Task}
    (h : ∀ task ∈ tasks, ∀ p, Settles b o task.path? p (perform b o p task)) (p : Progress) :
    R p (tasks.foldl (perform b o) p) := by
  induction tasks generalizing p with
  | nil => exact hrefl p
  | cons task tasks ih =>
    have hfirst := hsettles _ _ _ (h task (List.mem_cons_self ..) p)
    have hrest := ih (fun other ho => h other (List.mem_cons_of_mem _ ho)) (perform b o p task)
    exact htrans _ _ _ hfirst hrest

/-- What holds from the start of a task to its end, and of one after the other, holds from the start
of a patch to its end. -/
theorem applyTo_of_settles (hrefl : ∀ p, R p p)
    (htrans : ∀ p p' p'', R p p' → R p' p'' → R p p'')
    (hsettles : ∀ path? p p', Settles b o path? p p' → R p p') (patch : Patch) (s : Site) :
    R ⟨s, .empty⟩ (patch.applyTo b o s) := by
  obtain ⟨p, hproblems, hopening⟩ := settles_opening b o patch s
  have hperform := fun task (ht : task ∈ patch.tasks b s.tree) => settles_perform ht o
  have htasks := foldl_of_settles hrefl htrans hsettles hperform (patch.opening b s)
  rw [applyTo_eq_foldl]
  exact htrans _ _ _ (htrans _ _ _ (hsettles _ _ _ hproblems) (hsettles _ _ _ hopening)) htasks

end

end Patch

end Patchboard
