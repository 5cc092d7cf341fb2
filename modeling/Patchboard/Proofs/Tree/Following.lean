import Patchboard.FileTree
import Patchboard.Proofs.Tree.Access

set_option autoImplicit false

namespace Patchboard.Tree

/-- A relation between a tree and a later one. -/
structure Lasting (R : Tree → Tree → Prop) : Prop where
  refl : ∀ t, R t t
  trans : ∀ {t t' t'' : Tree}, R t t' → R t' t'' → R t t''

def Follows {ε α : Type} (R : Tree → Tree → Prop) (job : ExceptT ε (StateM Tree) α) : Prop :=
  ∀ t, R t (job.run.run t).2

section
variable {ε ε' α : Type} {R : Tree → Tree → Prop}

theorem run_adapt (f : ε → ε') (job : ExceptT ε (StateM Tree) α) (t : Tree) :
    (ExceptT.adapt f job).run.run t = ((job.run.run t).1.mapError f, (job.run.run t).2) := rfl

theorem Follows.adapt {job : ExceptT ε (StateM Tree) α} (h : Follows R job) (f : ε → ε') :
    Follows R (ExceptT.adapt f job) := by
  intro t
  rw [run_adapt]
  exact h t

theorem follows_doing {job : Job α} (h : Follows R job) (context : String) :
    Follows R (Job.doing context job) :=
  h.adapt _

theorem follows_ofAction {action : Action α} (h : Follows R action) :
    Follows R (Job.ofAction action) :=
  h.adapt _

theorem follows_on {action : Action α} (h : Follows R action) (context : String) (p : Path) :
    Follows R (Job.on context p action) :=
  (h.adapt _).adapt _

end

section
variable {ε α β : Type} {R : Tree → Tree → Prop} (hR : Lasting R)
include hR

theorem Follows.of_reads {job : ExceptT ε (StateM Tree) α} (h : ∀ t, (job.run.run t).2 = t) :
    Follows R job := by
  intro t
  rw [h t]
  exact hR.refl t

theorem Follows.pure (a : α) : Follows R (Pure.pure a : ExceptT ε (StateM Tree) α) :=
  .of_reads hR fun _ => rfl

theorem Follows.throw (e : ε) : Follows R (MonadExcept.throw e : ExceptT ε (StateM Tree) α) :=
  .of_reads hR fun _ => rfl

theorem Follows.get : Follows R (MonadState.get : ExceptT ε (StateM Tree) Tree) :=
  .of_reads hR fun _ => rfl

theorem Follows.ask (f : Tree → Except FileError α) : Follows R (Tree.ask f) :=
  .of_reads hR fun t => by rw [run_ask]

theorem Follows.bind {x : ExceptT ε (StateM Tree) α} {f : α → ExceptT ε (StateM Tree) β}
    (hx : Follows R x) (hf : ∀ a, Follows R (f a)) : Follows R (x >>= f) := by
  intro t
  have hfirst := hx t
  rw [run_bind]
  rcases h : x.run.run t with ⟨result, t'⟩
  rw [h] at hfirst
  cases result with
  | error e => exact hfirst
  | ok a => exact hR.trans hfirst (hf a t')

theorem Follows.forM {as : List α} {f : α → ExceptT ε (StateM Tree) PUnit}
    (hf : ∀ a ∈ as, Follows R (f a)) : Follows R (as.forM f) := by
  induction as with
  | nil => exact .pure hR _
  | cons a as ih =>
    exact .bind hR (hf a (List.mem_cons_self ..)) fun _ =>
      ih fun other ho => hf other (List.mem_cons_of_mem _ ho)

theorem follows_ofExcept (result : Except Failure α) : Follows R (Job.ofExcept result) := by
  cases result with
  | ok a => exact .pure hR a
  | error f => exact .throw hR f

theorem follows_makeDirectoriesFrom (hm : ∀ p, Follows R (makeDirectory p)) (fuel : Nat)
    (p : Path) : Follows R (makeDirectoriesFrom fuel p) := by
  have hensure (p : Path) : Follows R (Tree.ensureDirectory p) := by
    intro t
    have hmake := hm p t
    unfold Tree.ensureDirectory
    rw [run_bind, run_get]
    dsimp only
    split
    · rename_i t' h
      rwa [h] at hmake
    · split <;> exact hR.refl t
  induction fuel generalizing p with
  | zero => exact .throw hR _
  | succ fuel ih =>
    intro t
    have hmake := hm p t
    rw [makeDirectoriesFrom]
    split
    · exact hR.refl t
    · rw [run_bind, run_get]
      dsimp only
      split
      · rename_i t' h
        rwa [h] at hmake
      · split
        · exact hR.refl t
        · rename_i parent _
          exact Follows.bind hR (ih parent) (fun _ => hensure p) t
      · split <;> exact hR.refl t

theorem follows_copyDirectory (hd : ∀ p, Follows R (FileTree.ensureDirectory p))
    (hc : ∀ source target, Follows R (FileTree.copyEntry source target)) (source target : Path) :
    Follows R (FileTree.copyDirectory source target) := by
  unfold FileTree.copyDirectory
  generalize pathLimit + 1 = fuel
  induction fuel generalizing source target with
  | zero => exact .throw hR _
  | succ fuel ih =>
    refine .bind hR (hd target) fun _ => .bind hR (follows_on (.ask hR _) _ _) fun names =>
      .forM hR fun name _ => .bind hR (.get hR) fun t => ?_
    split
    · exact ih _ _
    · exact hc _ _

end

def Reads {ε α : Type} (job : ExceptT ε (StateM Tree) α) : Prop :=
  Follows (fun t t' => t' = t) job

theorem lasting_reads : Lasting fun t t' => t' = t where
  refl _ := rfl
  trans h h' := h'.trans h

theorem Reads.run {ε α : Type} {job : ExceptT ε (StateM Tree) α} (h : Reads job) (t : Tree) :
    job.run.run t = ((job.run.run t).1, t) :=
  Prod.ext rfl (h t)

/-- One tree has grown into the other. -/
def Outgrown (t t' : Tree) : Prop := ∃ written, Grown t t' written

theorem lasting_outgrown : Lasting Outgrown where
  refl t := ⟨[], .refl t []⟩
  trans := fun ⟨_, h⟩ ⟨_, h'⟩ => ⟨_, h.trans h'⟩

theorem outgrown_makeDirectories (p : Path) : Follows Outgrown (makeDirectories p) :=
  fun t => ⟨[], (prepared_makeDirectoriesFrom _ p t).grown⟩

theorem outgrown_ensureDirectory (p : Path) : Follows Outgrown (FileTree.ensureDirectory p) :=
  follows_on (outgrown_makeDirectories p) _ _

theorem outgrown_writeText (p : Path) (s : String) : Follows Outgrown (writeText p s) :=
  fun t => ⟨_, grown_writeContents p (.text s) t⟩

theorem outgrown_copyDirectory (source target : Path) :
    Follows Outgrown (FileTree.copyDirectory source target) :=
  follows_copyDirectory lasting_outgrown outgrown_ensureDirectory
    (fun source target =>
      follows_doing (follows_ofAction fun t => ⟨_, grown_copyFile source target t⟩) _)
    source target

end Patchboard.Tree
