import Patchboard.FileTree
import Patchboard.Proofs.Tree.Twins

set_option autoImplicit false

namespace Patchboard.Tree
open Path

section
variable {ε ε' α β : Type} {Q : Tree → Tree → Prop}

/-- Two jobs, each on a tree of its own, give the same result and leave trees that are related. -/
structure AlikeOn (Q : Tree → Tree → Prop) (t u : Tree) (x y : ExceptT ε (StateM Tree) α) :
    Prop where
  result : (y.run.run u).1 = (x.run.run t).1
  related : Q (x.run.run t).2 (y.run.run u).2

/-- A job gives the same result on related trees and leaves them related. -/
def Alike (Q : Tree → Tree → Prop) (x : ExceptT ε (StateM Tree) α) : Prop :=
  ∀ t u, Q t u → AlikeOn Q t u x x

theorem Alike.pure (a : α) : Alike Q (Pure.pure a : ExceptT ε (StateM Tree) α) :=
  fun _ _ hq => ⟨rfl, hq⟩

theorem Alike.throw (e : ε) : Alike Q (MonadExcept.throw e : ExceptT ε (StateM Tree) α) :=
  fun _ _ hq => ⟨rfl, hq⟩

theorem Alike.ask {f : Tree → Except FileError α} (hf : ∀ t u, Q t u → f u = f t) :
    Alike Q (Tree.ask f) := by
  intro t u hq
  constructor <;> rw [run_ask, run_ask]
  · exact hf t u hq
  · exact hq

theorem AlikeOn.bind {t u : Tree} {x y : ExceptT ε (StateM Tree) α}
    {f g : α → ExceptT ε (StateM Tree) β} (hx : AlikeOn Q t u x y)
    (hf : ∀ a t' u', (x.run.run t) = (.ok a, t') → Q t' u' → AlikeOn Q t' u' (f a) (g a)) :
    AlikeOn Q t u (x >>= f) (y >>= g) := by
  obtain ⟨hresult, hrelated⟩ := hx
  rcases hrun : x.run.run t with ⟨result, t'⟩
  rcases hrun' : y.run.run u with ⟨result', u'⟩
  rw [hrun, hrun'] at hresult hrelated
  dsimp only at hresult hrelated
  subst hresult
  constructor <;> rw [run_bind, run_bind, hrun, hrun']
  · cases result' with
    | error e => rfl
    | ok a => exact (hf a t' u' hrun hrelated).result
  · cases result' with
    | error e => exact hrelated
    | ok a => exact (hf a t' u' hrun hrelated).related

theorem Alike.bind {x : ExceptT ε (StateM Tree) α} {f : α → ExceptT ε (StateM Tree) β}
    (hx : Alike Q x) (hf : ∀ a, Alike Q (f a)) : Alike Q (x >>= f) :=
  fun t u hq => (hx t u hq).bind fun a t' u' _ hq' => hf a t' u' hq'

theorem Alike.get_bind {f : Tree → ExceptT ε (StateM Tree) β}
    (hf : ∀ t u, Q t u → AlikeOn Q t u (f t) (f u)) : Alike Q (MonadState.get >>= f) := by
  intro t u hq
  constructor <;> rw [run_bind, run_bind, run_get, run_get]
  · exact (hf t u hq).result
  · exact (hf t u hq).related

theorem Alike.forM {as : List α} {f : α → ExceptT ε (StateM Tree) PUnit}
    (hf : ∀ a ∈ as, Alike Q (f a)) : Alike Q (as.forM f) := by
  induction as with
  | nil => exact .pure _
  | cons a as ih =>
    exact .bind (hf a (List.mem_cons_self ..)) fun _ =>
      ih fun other ho => hf other (List.mem_cons_of_mem _ ho)

theorem Alike.adapt {x : ExceptT ε (StateM Tree) α} (h : Alike Q x) (f : ε → ε') :
    Alike Q (ExceptT.adapt f x) := by
  intro t u hq
  obtain ⟨hresult, hrelated⟩ := h t u hq
  constructor <;> rw [run_adapt, run_adapt]
  · rw [hresult]
  · exact hrelated

theorem alike_modify {f : Tree → Tree} (hf : ∀ t u, Q t u → Q (f t) (f u)) :
    Alike Q (modify f : ExceptT ε (StateM Tree) PUnit) :=
  fun t u hq => ⟨rfl, hf t u hq⟩

theorem alike_doing {job : Job α} (h : Alike Q job) (context : String) :
    Alike Q (Job.doing context job) :=
  h.adapt _

theorem alike_ofAction {action : Action α} (h : Alike Q action) : Alike Q (Job.ofAction action) :=
  h.adapt _

theorem alike_on {action : Action α} (h : Alike Q action) (context : String) (p : Path) :
    Alike Q (Job.on context p action) :=
  (h.adapt _).adapt _

theorem alike_fail (cause : Cause) : Alike Q (Job.fail cause : Job α) := .throw _

end

variable {r : Reserve} {base : Tree} {Q : Tree → Tree → Prop} (h : Blind r base Q) {p : Path}
include h

theorem alike_makeDirectory (hp : Seen r base p) : Alike Q (makeDirectory p) := by
  intro t u hq
  constructor <;> rw [run_makeDirectory, run_makeDirectory, h.locate hq hp] <;>
    cases hl : t.locate p with
    | error e => first | rfl | exact hq
    | ok place =>
      obtain ⟨hoff, hspelled, -⟩ := h.off_of_locate hq hp hl
      dsimp only
      rw [h.at? hq hoff]
      split
      · first | rfl | exact hq
      · first | rfl | exact h.put hq hoff hspelled fun _ _ => rfl

theorem alike_ensureDirectory (hp : Seen r base p) : Alike Q (ensureDirectory p) := by
  refine .get_bind fun t u hq => ?_
  have hmake := alike_makeDirectory h hp t u hq
  obtain ⟨hresult, hrelated⟩ := hmake
  rcases hrun : (makeDirectory p).run.run t with ⟨result, t'⟩
  rcases hrun' : (makeDirectory p).run.run u with ⟨result', u'⟩
  rw [hrun, hrun'] at hresult hrelated
  dsimp only at hresult hrelated ⊢
  subst hresult
  cases result' with
  | ok _ => exact ⟨rfl, hrelated⟩
  | error e =>
    dsimp only
    rw [h.isDirectory hq hp]
    split
    · exact ⟨rfl, hq⟩
    · exact ⟨rfl, hq⟩

theorem alike_makeDirectoriesFrom (fuel : Nat) (hp : Seen r base p) :
    Alike Q (makeDirectoriesFrom fuel p) := by
  induction fuel generalizing p with
  | zero => exact .throw _
  | succ fuel ih =>
    rw [makeDirectoriesFrom]
    split
    · exact .pure _
    · refine .get_bind fun t u hq => ?_
      obtain ⟨hresult, hrelated⟩ := alike_makeDirectory h hp t u hq
      rcases hrun : (makeDirectory p).run.run t with ⟨result, t'⟩
      rcases hrun' : (makeDirectory p).run.run u with ⟨result', u'⟩
      rw [hrun, hrun'] at hresult hrelated
      dsimp only at hresult hrelated
      subst hresult
      rcases result' with e | _
      · cases e with
        | notFound =>
          dsimp only
          split
          · exact ⟨rfl, hq⟩
          · rename_i parent hparent
            exact (ih (seen_of_parent hp hparent)).bind
              (fun _ => alike_ensureDirectory h hp) t u hq
        | _ =>
          dsimp only
          rw [h.isDirectory hq hp]
          split
          · exact ⟨rfl, hq⟩
          · exact ⟨rfl, hq⟩
      · exact ⟨rfl, hrelated⟩

theorem alike_makeDirectories (hp : Seen r base p) : Alike Q (makeDirectories p) :=
  alike_makeDirectoriesFrom h _ hp

theorem alike_makeParents (hp : Seen r base p) : Alike Q (makeParents p) := by
  unfold makeParents
  split
  · rename_i parent hparent
    exact alike_makeDirectories h (seen_of_parent hp hparent)
  · exact .pure _

theorem alike_writeContents (hp : Seen r base p) (contents : Contents) :
    Alike Q (writeContents p contents) := by
  intro t u hq
  constructor <;> rw [run_writeContents, run_writeContents, h.writable? hq hp] <;>
    cases hw : t.writable? p with
    | error e => first | rfl | exact hq
    | ok found =>
      obtain ⟨place, mode⟩ := found
      first
        | rfl
        | obtain ⟨hplace, hlook⟩ := writable?_ok hw
          rw [(h.lexicalPlace hq p).1] at hplace
          subst hplace
          exact h.put hq (hp _ (lexicalPlace_mem_way base p)) (spelled_lexicalPlace h.spelled p)
            fun mode hd => absurd (look_directory hd) hlook

theorem alike_writeText (hp : Seen r base p) (s : String) : Alike Q (writeText p s) :=
  alike_writeContents h hp (.text s)

theorem alike_copyFile {source target : Path} (hs : Seen r base source)
    (ht : Seen r base target) : Alike Q (copyFile source target) := by
  refine .bind (.ask fun t u hq => h.find hq hs) fun found => ?_
  obtain ⟨origin, entry⟩ := found
  cases entry with
  | directory mode => exact .throw _
  | file contents mode =>
    intro t u hq
    have hask : Alike Q (ask fun t => t.writable? target) := .ask fun t u hq => h.writable? hq ht
    refine (hask t u hq).bind fun found t' u' hrun hq' => ?_
    rw [run_ask, Prod.mk.injEq] at hrun
    obtain ⟨hw, rfl⟩ := hrun
    obtain ⟨hplace, hlook⟩ := writable?_ok hw
    rw [(h.lexicalPlace hq' target).1] at hplace
    obtain ⟨place, old⟩ := found
    dsimp only at hplace hlook
    subst hplace
    exact ⟨rfl, h.put hq' (ht _ (lexicalPlace_mem_way base target))
      (spelled_lexicalPlace h.spelled target)
      fun mode hd => absurd (look_directory hd) hlook⟩

theorem alike_removeFile (hp : Clear r base p) : Alike Q (removeFile p) := by
  intro t u hq
  refine (Alike.ask (fun t u hq => h.find hq hp.seen) t u hq).bind fun found t' u' hrun hq' => ?_
  rw [run_ask, Prod.mk.injEq] at hrun
  obtain ⟨hf, rfl⟩ := hrun
  obtain ⟨-, -, hplace⟩ := h.off_of_locate hq' hp.seen (find_ok hf).1
  dsimp only
  split
  · exact ⟨rfl, hq'⟩
  · refine ⟨rfl, h.removeBelow hq' ?_⟩
    rw [hplace]
    exact hp.apart

theorem alike_removeDirectory (hp : Clear r base p) : Alike Q (removeDirectory p) := by
  intro t u hq
  refine (Alike.ask (fun t u hq => h.find hq hp.seen) t u hq).bind fun found t' u' hrun hq' => ?_
  rw [run_ask, Prod.mk.injEq] at hrun
  obtain ⟨hf, rfl⟩ := hrun
  obtain ⟨place, entry⟩ := found
  obtain ⟨hoff, hspelled, hplace⟩ := h.off_of_locate hq' hp.seen (find_ok hf).1
  have hapart : Aloof r place := hplace ▸ hp.apart
  dsimp only
  cases hentry : entry.isFile with
  | true =>
    rw [if_pos rfl]
    exact ⟨rfl, hq'⟩
  | false =>
    rw [if_neg Bool.false_ne_true]
    have hclear : Alike Q (modify fun t => (t.removeBelow place).put place entry :
        Action PUnit) :=
      alike_modify fun t u hq => h.put (h.removeBelow hq hapart) hoff hspelled
        fun mode _ => by rw [Entry.isDirectory, hentry]; rfl
    have hremove : Alike Q (modify fun t => t.removeBelow place : Action PUnit) :=
      alike_modify fun t u hq => h.removeBelow hq hapart
    have hemptied : Alike Q (removeEmptied p place) := by
      refine Alike.get_bind fun t u hq => ?_
      rw [h.retrace hq hp.seen]
      cases t.retrace p with
      | error e => cases e <;> exact ⟨rfl, hq⟩
      | ok goal =>
        dsimp only
        split
        · exact ⟨rfl, hq⟩
        · exact ⟨rfl, hq⟩
        · exact ⟨rfl, hq⟩
        · exact hremove t u hq
    exact hclear.bind (fun _ => hemptied) _ u' hq'

theorem alike_setMode (hp : Seen r base p) (mode : Nat) : Alike Q (setMode p mode) := by
  intro t u hq
  refine (Alike.ask (fun t u hq => h.find hq hp) t u hq).bind fun found t' u' hrun hq' => ?_
  rw [run_ask, Prod.mk.injEq] at hrun
  obtain ⟨hf, rfl⟩ := hrun
  obtain ⟨hoff, hspelled, -⟩ := h.off_of_locate hq' hp (find_ok hf).1
  refine ⟨rfl, h.put hq' hoff hspelled fun old hd => ?_⟩
  rw [(find_ok hf).2] at hd
  rw [Option.some.inj hd]
  rfl

theorem alike_rename {source target : Path} (hs : Clear r base source)
    (ht : Clear r base target) : Alike Q (rename source target) := by
  intro t u hq
  refine (Alike.ask (fun t u hq => h.locate hq hs.seen) t u hq).bind fun start t' u' hrun hq' => ?_
  rw [run_ask, Prod.mk.injEq] at hrun
  obtain ⟨hstart, rfl⟩ := hrun
  obtain ⟨hoff, -, hplace⟩ := h.off_of_locate hq' hs.seen hstart
  refine (Alike.ask (fun t u hq => h.locate hq ht.seen) t u' hq').bind
    fun goal t' v hrun hq'' => ?_
  rw [run_ask, Prod.mk.injEq] at hrun
  obtain ⟨hgoal, rfl⟩ := hrun
  obtain ⟨hoff', hspelled', hplace'⟩ := h.off_of_locate hq'' ht.seen hgoal
  have hapart : Aloof r start := hplace ▸ hs.apart
  have hapart' : Aloof r goal := hplace' ▸ ht.apart
  split
  · exact ⟨rfl, hq''⟩
  · refine Alike.get_bind (fun t u hq => ?_) t v hq''
    rw [h.at? hq hoff]
    split
    · exact ⟨rfl, hq⟩
    · rename_i entry hentry
      split
      · exact ⟨rfl, hq⟩
      · split
        · exact ⟨rfl, hq⟩
        · have hreplace (t u : Tree) (hq : Q t u) :
              u.replaceable start goal entry (u.at? goal) =
                t.replaceable start goal entry (t.at? goal) := by
            unfold replaceable
            rw [h.at? hq hoff', h.names hq fun k hk => (hapart'.closed k hk).1]
          refine (Alike.ask hreplace t u hq).bind fun _ t' u' _ hq' => ?_
          exact ⟨rfl, h.relocate (h.removeBelow hq' hapart') hapart hapart' hspelled'⟩

theorem alike_fileTree_ensureDirectory (hp : Seen r base p) :
    Alike Q (FileTree.ensureDirectory p) :=
  alike_on (alike_makeDirectories h hp) _ _

theorem alike_ensureParent (hp : Seen r base p) : Alike Q (FileTree.ensureParent p) := by
  unfold FileTree.ensureParent
  split
  · rename_i parent hparent
    exact alike_fileTree_ensureDirectory h (seen_of_parent hp hparent)
  · exact .pure _

theorem alike_write (hp : Seen r base p) (s : String) : Alike Q (FileTree.write p s) :=
  (alike_ensureParent h hp).bind fun _ => alike_on (alike_writeText h hp s) _ _

theorem alike_copyEntry {source target : Path} (hs : Seen r base source)
    (ht : Seen r base target) : Alike Q (FileTree.copyEntry source target) :=
  alike_doing (alike_ofAction (alike_copyFile h hs ht)) _

theorem alike_fileTree_copyFile {source target : Path} (hs : Seen r base source)
    (ht : Seen r base target) : Alike Q (FileTree.copyFile source target) :=
  (alike_ensureParent h ht).bind fun _ => alike_copyEntry h hs ht

theorem alike_move {source target : Path} (hs : Clear r base source)
    (ht : Clear r base target) : Alike Q (FileTree.move source target) :=
  (alike_ensureParent h ht.seen).bind fun _ =>
    alike_doing (alike_ofAction (alike_rename h hs ht)) _

theorem alike_remove (hp : Clear r base p) : Alike Q (FileTree.remove p) := by
  have hfile : Alike Q (FileTree.removeFileIfThere p) := by
    refine .get_bind fun t u hq => ?_
    rw [h.pathExists hq hp.seen]
    split
    · exact alike_removeFile h hp t u hq
    · exact ⟨rfl, hq⟩
  refine .get_bind fun t u hq => ?_
  rw [h.isDirectory hq hp.seen]
  split
  · exact alike_on (alike_removeDirectory h hp) _ _ t u hq
  · exact alike_on hfile _ _ t u hq

theorem alike_copyDirectoryFrom (fuel : Nat) {source target : Path} (hs : Clear r base source)
    (ht : Clear r base target) : Alike Q (FileTree.copyDirectoryFrom fuel source target) := by
  induction fuel generalizing source target with
  | zero => exact .throw _
  | succ fuel ih =>
    rw [FileTree.copyDirectoryFrom]
    refine (alike_fileTree_ensureDirectory h ht.seen).bind fun _ => ?_
    have hlist : Alike Q (listDirectory source) := by
      refine .ask fun t u hq => ?_
      rw [h.find hq hs.seen]
      cases hf : t.find source with
      | error e => rfl
      | ok found =>
        obtain ⟨place, entry⟩ := found
        obtain ⟨-, -, hplace⟩ := h.off_of_locate hq hs.seen (find_ok hf).1
        cases entry with
        | file contents mode => rfl
        | directory mode =>
          dsimp only
          rw [h.names hq fun k hk => ((hplace ▸ hs.apart).closed k hk).1]
    intro t u hq
    refine (alike_on hlist _ source t u hq).bind fun names t' u' hrun hq' => ?_
    have hnames : ∀ name ∈ names, IsName name := by
      have hread := (run_on_eq_ok.1 hrun)
      rw [listDirectory, run_ask, Prod.mk.injEq] at hread
      obtain ⟨hread, rfl⟩ := hread
      intro name hn
      split at hread
      · cases hread
      · cases hread
      · cases hread
        exact h.named hq _ name (mem_names.1 hn)
    refine Alike.forM (fun name hname => .get_bind fun t u hq => ?_) t' u' hq'
    have hs' := hs.join (hnames name hname)
    have ht' := ht.join (hnames name hname)
    rw [h.isDirectory hq hs'.seen]
    split
    · exact ih hs' ht' t u hq
    · exact alike_copyEntry h hs'.seen ht'.seen t u hq

theorem alike_copyDirectory {source target : Path} (hs : Clear r base source)
    (ht : Clear r base target) : Alike Q (FileTree.copyDirectory source target) :=
  alike_copyDirectoryFrom h _ hs ht

end Patchboard.Tree
