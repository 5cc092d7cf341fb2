import Patchboard.Proofs.Patch.Jobs
import Patchboard.Proofs.Tree.View

set_option autoImplicit false

namespace Patchboard.Modification
open Tree

def looks (b : Board) (d : Document) : List Path :=
  ((targets b d).filterMap (·.path)).flatMap fun p =>
    (ThemeCopy.candidates b.themes p).map ThemeCopy.path

theorem jobs_congr {b : Board} {d : Document} {t t' : Tree}
    (h : ∀ p ∈ looks b d, t.isFile p = t'.isFile p) : jobs b d t = jobs b d t' := by
  unfold jobs
  rw [CopyIndex.ofTargets_congr fun p hp copy hc => h copy.path ?_]
  exact List.mem_flatMap.2 ⟨p, hp, List.mem_map_of_mem hc⟩

theorem jobs_of_view {b : Board} {d : Document} {t t' : Tree}
    (h : ∀ p ∈ looks b d, t.view p = t'.view p) : jobs b d t = jobs b d t' :=
  jobs_congr fun p hp => isFile_of_view (h p hp)

theorem patchText_on {b : Board} {undo : Bool} {block : Document} {path : Path} {theme : Nat}
    {text : List Char} {existed : Bool} {p : Progress} {site : Site}
    (hw : site.isWritable path = true)
    (hr : (patchText b ⟨false, undo⟩ block path theme text existed p).report.Unrefused) :
    patchText b ⟨true, undo⟩ block path theme text existed (p.on site) =
      (patchText b ⟨false, undo⟩ block path theme text existed p).on site := by
  unfold patchText at hr ⊢
  dsimp only at hr ⊢
  split at hr
  · rename_i hf
    rw [if_pos hf]
    exact if_pos hf
  · rename_i hf
    rw [if_neg hf]
    exact (if_neg hf).trans (Save.save_on b path theme _ existed hw hr)

theorem applyBlock_on {b : Board} {undo : Bool} {block : Document} {path : Path} {theme : Nat}
    {p : Progress} {site : Site} (hw : site.isWritable path = true)
    (hf : p.site.tree.file? path = site.tree.file? path)
    (hr : (applyBlock b ⟨false, undo⟩ block path theme p).report.Unrefused) :
    applyBlock b ⟨true, undo⟩ block path theme (p.on site) =
      (applyBlock b ⟨false, undo⟩ block path theme p).on site := by
  have hsite : (p.on site).site = site := rfl
  rw [applyBlock_eq, hsite, ← hf]
  rw [applyBlock_eq] at hr ⊢
  split at hr
  · exact patchText_on hw hr
  · rfl
  · split at hr
    · rfl
    · exact patchText_on hw hr
    · rfl

theorem runJob_on {b : Board} {undo : Bool} {job : Job} {p : Progress} {site : Site}
    (h : ∀ path ∈ job.path?, site.isWritable path = true ∧
      p.site.tree.file? path = site.tree.file? path)
    (hr : (runJob b ⟨false, undo⟩ p job).report.Unrefused) :
    runJob b ⟨true, undo⟩ (p.on site) job = (runJob b ⟨false, undo⟩ p job).on site := by
  cases job with
  | nameless number => rfl
  | block document copy =>
    obtain ⟨hw, hf⟩ := h copy.path rfl
    exact applyBlock_on hw hf hr

def Undisturbed (b : Board) (undo : Bool) (site : Site) : List Job → Progress → Prop
  | [], _ => True
  | job :: rest, p =>
    (∀ path ∈ job.path?, p.site.tree.file? path = site.tree.file? path) ∧
      Undisturbed b undo site rest (runJob b ⟨false, undo⟩ p job)

theorem foldl_runJob_on {b : Board} {undo : Bool} {site : Site} {jobs : List Job} {p : Progress}
    (hw : ∀ job ∈ jobs, ∀ path ∈ job.path?, site.isWritable path = true)
    (hu : Undisturbed b undo site jobs p)
    (hr : (jobs.foldl (runJob b ⟨false, undo⟩) p).report.Unrefused) :
    jobs.foldl (runJob b ⟨true, undo⟩) (p.on site) =
      (jobs.foldl (runJob b ⟨false, undo⟩) p).on site := by
  induction jobs generalizing p with
  | nil => rfl
  | cons job jobs ih =>
    obtain ⟨hf, hu⟩ := hu
    obtain ⟨new, hrest⟩ := records_foldl_runJob b ⟨false, undo⟩ jobs (runJob b ⟨false, undo⟩ p job)
    have hstep : (runJob b ⟨false, undo⟩ p job).report.Unrefused :=
      hr.of_prefix hrest.prefix_events
    rw [List.foldl_cons, List.foldl_cons, runJob_on (fun path hp =>
      ⟨hw job (List.mem_cons_self ..) path hp, hf path hp⟩) hstep]
    exact ih (fun other ho => hw other (List.mem_cons_of_mem _ ho)) hu hr

theorem applyTo_on {b : Board} {undo : Bool} {d : Document} {site s : Site}
    (hj : jobs b d s.tree = jobs b d site.tree)
    (hw : ∀ job ∈ jobs b d site.tree, ∀ path ∈ job.path?, site.isWritable path = true)
    (hu : Undisturbed b undo site (jobs b d s.tree) ⟨s, .empty⟩)
    (hr : (applyTo b ⟨false, undo⟩ d s).report.Unrefused) :
    applyTo b ⟨true, undo⟩ d site = (applyTo b ⟨false, undo⟩ d s).on site := by
  by_cases ht : targets b d = []
  · rw [applyTo_nil ht, applyTo_nil ht]
    rfl
  · rw [applyTo_eq ht] at hr ⊢
    rw [applyTo_eq ht, ← hj]
    rw [← hj] at hw
    exact foldl_runJob_on (b := b) hw hu hr

end Patchboard.Modification
