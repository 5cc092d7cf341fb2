import Patchboard.Proofs.Patch.DryRun.Boardmod
import Patchboard.Proofs.Patch.DryRun.Modification
import Patchboard.Proofs.Patch.Tasks

set_option autoImplicit false

namespace Patchboard

namespace Patch

/-- Where the files of a patch and their copies are looked for, before any of them is opened. -/
def looks (b : Board) (t : Tree) : Patch → List Path
  | .modification d => Modification.looks b d
  | .stream raw => Boardmod.looks b raw t

/-- Carried out on `s`, a patch finds each of its files, when it opens it, as it is on `site`. -/
def Undisturbed (b : Board) (undo : Bool) (site s : Site) : Patch → Prop
  | .modification d =>
    Modification.Undisturbed b undo site (Modification.jobs b d site.tree) ⟨s, .empty⟩
  | .stream raw =>
    Boardmod.Undisturbed b undo site (Boardmod.visited b raw site.tree) (Boardmod.start raw s)

theorem applyTo_on {b : Board} {undo : Bool} {patch : Patch} {site s : Site}
    (hl : ∀ p ∈ patch.looks b site.tree, site.tree.view p = s.tree.view p)
    (hu : patch.Undisturbed b undo site s)
    (hw : ∀ path ∈ patch.paths b site.tree, site.isWritable path = true)
    (hr : (patch.applyTo b ⟨false, undo⟩ s).report.Unrefused) :
    patch.applyTo b ⟨true, undo⟩ site = (patch.applyTo b ⟨false, undo⟩ s).on site := by
  cases patch with
  | modification d =>
    have hj := Modification.jobs_of_view hl
    refine Modification.applyTo_on hj.symm (fun job hm path hp => hw path ?_) (hj ▸ hu) hr
    exact List.mem_filterMap.2 ⟨job, hm, hp⟩
  | stream raw =>
    have hv := Boardmod.visited_of_view hl
    refine Boardmod.applyTo_on hv.symm (fun t ht path hp => hw path ?_) (hv ▸ hu) hr
    exact List.mem_filterMap.2 ⟨t, ht, hp⟩

end Patch

end Patchboard
