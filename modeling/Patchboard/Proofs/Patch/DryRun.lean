import Patchboard.Proofs.Patch.DryRun.Apart

set_option autoImplicit false

namespace Patchboard
open Tree

namespace Patch

theorem undisturbed_of_clears {b : Board} {undo : Bool} {patch : Patch} {s : Site}
    (hc : s.tree.Closed) (hpair : (patch.paths b s.tree).Pairwise (Clears b s.tree))
    (hs : ∀ path ∈ patch.paths b s.tree, s.tree.Steady path) : patch.Undisturbed b undo s s := by
  have hg : Grown s.tree s.tree [] := Grown.refl ..
  cases patch with
  | modification d => exact Modification.undisturbed_of_pairwise hc hg (by simp) hpair hs
  | stream raw =>
    have hsite : (Boardmod.start raw s).progress.site = s := by
      have hon := congrArg (fun s => s.progress.site) (Boardmod.start_on raw s s)
      exact hon.symm
    have hstart : Grown s.tree (Boardmod.start raw s).progress.site.tree [] := by
      rw [hsite]
      exact hg
    exact Boardmod.undisturbed_of_pairwise hc
      (fun t ht => Boardmod.isSome_of_mem_visited ht) hstart
      (by simp [Boardmod.start, Boardmod.State.path?]) (by simp) hpair hs

/-- A test says what a patch of files that lie apart will do. -/
theorem report_test {b : Board} {undo : Bool} {patch : Patch} {s : Site}
    (hc : s.tree.Closed) (ha : Apart b s.tree (patch.paths b s.tree))
    (hw : ∀ path ∈ patch.paths b s.tree, s.isWritable path = true)
    (hr : (patch.applyTo b ⟨false, undo⟩ s).report.Unrefused) :
    (patch.applyTo b ⟨true, undo⟩ s).report = (patch.applyTo b ⟨false, undo⟩ s).report := by
  rw [applyTo_on (fun _ _ => rfl) (undisturbed_of_clears hc ha.pairwise ha.steady) hw hr]
  rfl

def blockFor (name policy : String) : Toml :=
  .table [("error", .string policy), ("name", .string name)]

def patchOf (blocks : List Toml) : Patch :=
  .modification ⟨.table [("file", .array blocks)]⟩

def themedBoard : Board :=
  ⟨.empty, [⟨1, "default", ⟨"/t/d"⟩⟩, ⟨2, "other", ⟨"/t/o"⟩⟩], none, true⟩

def themedSite : Site :=
  ⟨⟨[(["t"], .directory 0o755), (["t", "d"], .directory 0o755), (["t", "o"], .directory 0o755),
    (["t", "d", "x"], .file (.text "a") 0o644), (["t", "o", "x"], .file (.text "b") 0o644)], []⟩,
    .byMode⟩

def themedPatch : Patch := patchOf [blockFor "/t/d/x" "fatal", blockFor "/n/y" "ignore"]

theorem report_test_themed :
    themedSite.tree.Closed ∧
      themedPatch.paths themedBoard themedSite.tree = [⟨"/t/d/x"⟩, ⟨"/t/o/x"⟩, ⟨"/n/y"⟩] ∧
      (themedPatch.applyTo themedBoard ⟨true, false⟩ themedSite).report =
        (themedPatch.applyTo themedBoard ⟨false, false⟩ themedSite).report := by
  have hc : themedSite.tree.Closed := closed_of_entries (by decide)
  refine ⟨hc, by decide, report_test hc ⟨by decide, by decide, by decide⟩ (by decide)
    (by decide +kernel)⟩

def oneFileSite : Site := ⟨⟨[(["f"], .file (.text "a") 0o644)], []⟩, .byMode⟩

def upwardPatch : Patch := patchOf [blockFor "/n/y" "ignore", blockFor "/n/../f" "fatal"]

theorem report_test_upward :
    oneFileSite.tree.Closed ∧
      ((upwardPatch.paths themedBoard oneFileSite.tree).map oneFileSite.tree.lexicalPlace).Nodup ∧
      (∀ p ∈ upwardPatch.paths themedBoard oneFileSite.tree,
        ∀ q ∈ upwardPatch.paths themedBoard oneFileSite.tree,
          oneFileSite.tree.lexicalPlace (Backup.ofFile p themedBoard.settings) ≠
            oneFileSite.tree.lexicalPlace q) ∧
      (∀ path ∈ upwardPatch.paths themedBoard oneFileSite.tree,
        oneFileSite.isWritable path = true) ∧
      (upwardPatch.applyTo themedBoard ⟨false, false⟩ oneFileSite).report.Unrefused ∧
      (upwardPatch.applyTo themedBoard ⟨true, false⟩ oneFileSite).report.everythingFound = false ∧
      (upwardPatch.applyTo themedBoard ⟨false, false⟩ oneFileSite).report.everythingFound =
        true := by
  have hc : oneFileSite.tree.Closed := closed_of_entries (by decide)
  exact ⟨hc, by decide, by decide, by decide, by decide +kernel, by decide +kernel,
    by decide +kernel⟩

end Patch

end Patchboard
