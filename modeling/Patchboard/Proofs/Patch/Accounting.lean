import Patchboard.Proofs.Patch.Tasks
import Patchboard.Proofs.Tree.Writing

set_option autoImplicit false

namespace Patchboard
open Tree

/-- An event of a file that was saved, or whose save ended in an error, and this file or its backup
stands at the place. -/
def Event.Accounts (b : Board) (t : Tree) (place : Place) (e : Event) : Prop :=
  ∃ path, e.path = some path ∧
    (e.kind = .saved ∨ e.kind = .error (.permissionDenied path)) ∧
      (t.locate path = .ok place ∨ t.locate (Backup.ofFile path b.settings) = .ok place)

/-- Every place with other contents than before is accounted for. -/
structure Progress.Accounted (b : Board) (p p' : Progress) : Prop where
  events : p.report.events <+: p'.report.events
  grown : ∃ written, Grown p.site.tree p'.site.tree written
  changed : ∀ place, p'.site.tree.contentsAt? place ≠ p.site.tree.contentsAt? place →
    ∃ e ∈ p'.report.events, e.Accounts b p'.site.tree place

/-- What was recorded on the way from one progress to another. -/
def Progress.recorded (p p' : Progress) : List Event :=
  p'.report.events.drop p.report.events.length

variable {b : Board}

theorem Event.Accounts.of_grown {t t' : Tree} {written : List Place} {place : Place} {e : Event}
    (h : Grown t t' written) (he : e.Accounts b t place) : e.Accounts b t' place := by
  obtain ⟨path, hpath, hkind, hplace⟩ := he
  exact ⟨path, hpath, hkind, hplace.imp (locate_of_grown h) (locate_of_grown h)⟩

namespace Progress

variable {p p' p'' : Progress}

theorem Accounted.refl (p : Progress) : p.Accounted b p :=
  ⟨List.prefix_refl _, ⟨[], Grown.refl ..⟩, fun _ h => absurd rfl h⟩

theorem Accounted.trans (h : p.Accounted b p') (h' : p'.Accounted b p'') : p.Accounted b p'' := by
  obtain ⟨written, hg⟩ := h.grown
  obtain ⟨written', hg'⟩ := h'.grown
  refine ⟨h.events.trans h'.events, ⟨_, hg.trans hg'⟩, fun place hne => ?_⟩
  by_cases hsame : p''.site.tree.contentsAt? place = p'.site.tree.contentsAt? place
  · rw [hsame] at hne
    obtain ⟨e, he, hacc⟩ := h.changed place hne
    exact ⟨e, h'.events.subset he, hacc.of_grown hg'⟩
  · exact h'.changed place hsame

theorem Accounted.of_grown (hr : p.report.events <+: p'.report.events)
    (hg : Grown p.site.tree p'.site.tree []) : p.Accounted b p' := by
  refine ⟨hr, ⟨[], hg⟩, fun place hne => ?_⟩
  exact absurd (contentsAt?_of_grown hg (by simp)) hne

end Progress

namespace Save
open Progress

variable (path : Path) (theme : Nat) (text : List Char) (existed : Bool)

theorem writtenAt_backUp (b : Board) (s : Site) :
    WrittenAt (Backup.ofFile path b.settings) s.tree (backUp b path existed s).tree := by
  unfold backUp
  split
  · exact writtenAt_inside (writtenAt_copyFile path _) s.tree
  · exact .of_grown (Grown.refl ..)

theorem changed_written (b : Board) (s : Site) {place : Place}
    (hne : (written b path text existed s).2.tree.contentsAt? place ≠ s.tree.contentsAt? place) :
    (written b path text existed s).2.tree.locate path = .ok place ∨
      (written b path text existed s).2.tree.locate (Backup.ofFile path b.settings) =
        .ok place := by
  have hbackup := writtenAt_backUp path existed b s
  have hwrite := writtenAt_inside (writtenAt_writeContents path (.text (String.ofList text)))
    (backUp b path existed s).tree
  have hafter : (written b path text existed s).2.tree =
      after (write path text) (backUp b path existed s).tree := rfl
  rw [hafter] at hne ⊢
  by_cases hsame : (after (write path text) (backUp b path existed s).tree).contentsAt? place =
      (backUp b path existed s).tree.contentsAt? place
  · rw [hsame] at hne
    obtain ⟨_, hg⟩ := hwrite.grown
    exact .inr (locate_of_grown hg (hbackup.changed place hne))
  · exact .inl (hwrite.changed place hsame)

theorem accounted_store (b : Board) (p : Progress) :
    p.Accounted b (store b path theme text existed p) := by
  have hg := grown_store b path theme text existed p
  rcases store_cases b path theme text existed p with ⟨-, hs⟩ | ⟨-, hs⟩
  · rw [hs] at hg ⊢
    refine ⟨List.prefix_append .., ⟨_, hg⟩, fun place hne => ?_⟩
    refine ⟨⟨some path, theme, .saved⟩, List.mem_append_right _ (List.mem_singleton_self _), ?_⟩
    exact ⟨path, rfl, .inl rfl, changed_written path text existed b p.site hne⟩
  · rw [hs] at hg ⊢
    refine ⟨List.prefix_append .., ⟨_, hg⟩, fun place hne => ?_⟩
    refine ⟨⟨some path, theme, .error (.permissionDenied path)⟩,
      List.mem_append_right _ (List.mem_singleton_self _), ?_⟩
    exact ⟨path, rfl, .inr rfl, changed_written path text existed b p.site hne⟩

theorem accounted_save (b : Board) (o : PatchOptions) (p : Progress) :
    p.Accounted b (save b o path theme text existed p) := by
  obtain ⟨new, hr, -⟩ := records_save b path theme text existed o p
  have hevents := hr.prefix_events
  have hwritable := p.site.grown_ensureWritable path
  rcases save_cases b path theme text existed o p with
    ⟨-, hs⟩ | ⟨-, ⟨-, hs⟩ | ⟨-, -, hs⟩ | ⟨-, -, hs⟩⟩
  · rw [hs] at hevents ⊢
    exact .of_grown hevents (Grown.refl ..)
  · rw [hs] at hevents ⊢
    refine .of_grown hevents ?_
    split <;> exact Grown.refl ..
  · rw [hs] at hevents ⊢
    exact .of_grown hevents hwritable
  · rw [hs]
    have hfirst : p.Accounted b (p.on (p.site.ensureWritable path).2) :=
      .of_grown (List.prefix_refl _) hwritable
    exact hfirst.trans (accounted_store path theme text existed b _)

end Save

theorem Progress.Settles.accounted {o : PatchOptions} {path? : Option Path} {p p' : Progress}
    (h : Progress.Settles b o path? p p') : p.Accounted b p' := by
  cases h with
  | kept hr => exact .of_grown hr.prefix_events (Grown.refl ..)
  | @saved new report path theme text existed hr hn hp =>
    have hfirst : p.Accounted b { p with report } :=
      .of_grown hr.prefix_events (Grown.refl ..)
    exact hfirst.trans (Save.accounted_save path theme text existed b o _)

namespace Patch

theorem site_opening (patch : Patch) (s : Site) : (patch.opening b s).site = s := by
  obtain ⟨p, hproblems, hopening⟩ := settles_opening b ⟨true, false⟩ patch s
  rw [hopening.site_of_testing, hproblems.site_of_testing]

/-- A patch is carried out task by task on the site. A task that records a search that counts as a
failure, a missing file or a wrong patch leaves the site as it is, and whatever other contents stand
anywhere in the end, a file that was saved or could not be saved stands there, or its backup. -/
theorem site_of_failure (b : Board) (o : PatchOptions) (patch : Patch) (s : Site) :
    patch.applyTo b o s = (patch.tasks b s.tree).foldl (perform b o) (patch.opening b s) ∧
      (patch.opening b s).site = s ∧
      (∀ task ∈ patch.tasks b s.tree, ∀ p,
        (perform b o p task).report.events =
            p.report.events ++ p.recorded (perform b o p task) ∧
          ((∃ e ∈ p.recorded (perform b o p task), e.kind.spoils = true) →
            (perform b o p task).site = p.site)) ∧
      ∀ place, (patch.applyTo b o s).site.tree.contentsAt? place ≠ s.tree.contentsAt? place →
        ∃ e ∈ (patch.applyTo b o s).report.events,
          e.Accounts b (patch.applyTo b o s).site.tree place := by
  refine ⟨applyTo_eq_foldl b o patch s, site_opening patch s, fun task ht p => ?_, ?_⟩
  · have hsettles := settles_perform ht o p
    obtain ⟨new, hr⟩ := hsettles.records
    refine ⟨?_, fun hspoils => ?_⟩
    · rw [Progress.recorded, hr.drop_events, hr.events]
    · obtain ⟨e, he, hs⟩ := hspoils
      exact hsettles.site_of_spoils he hs
  · have haccounted := applyTo_of_settles (b := b) (o := o) (R := Progress.Accounted b)
      Progress.Accounted.refl (fun _ _ _ h h' => h.trans h') (fun _ _ _ h => h.accounted) patch s
    exact haccounted.changed

def plainBoard : Board := ⟨.empty, [], none, true⟩

def plainSite : Site := ⟨⟨[(["g"], .file (.text "a") 0o644)], []⟩, .byMode⟩

def halfMissingPatch : Patch :=
  .modification ⟨.table [("file",
    .array [.table [("name", .string "/f")], .table [("name", .string "/g")]])]⟩

theorem site_of_failure_half :
    (halfMissingPatch.tasks plainBoard plainSite.tree).length = 2 ∧
      (∀ task ∈ (halfMissingPatch.tasks plainBoard plainSite.tree).take 1,
        (perform plainBoard ⟨false, false⟩ (halfMissingPatch.opening plainBoard plainSite)
          task).site = plainSite) ∧
      ∃ e ∈ (halfMissingPatch.applyTo plainBoard ⟨false, false⟩ plainSite).report.events,
        e.Accounts plainBoard
          (halfMissingPatch.applyTo plainBoard ⟨false, false⟩ plainSite).site.tree ["g.bak"] := by
  obtain ⟨-, hopening, htask, hplace⟩ :=
    site_of_failure plainBoard ⟨false, false⟩ halfMissingPatch plainSite
  have hspoils : ∀ task ∈ (halfMissingPatch.tasks plainBoard plainSite.tree).take 1,
      ∃ e ∈ (halfMissingPatch.opening plainBoard plainSite).recorded
        (perform plainBoard ⟨false, false⟩ (halfMissingPatch.opening plainBoard plainSite) task),
          e.kind.spoils = true := by decide +kernel
  refine ⟨by decide +kernel, fun task ht => ?_, hplace ["g.bak"] (by decide +kernel)⟩
  obtain ⟨-, hsite⟩ := htask task (List.mem_of_mem_take ht) _
  rw [hsite (hspoils task ht), hopening]

end Patch

end Patchboard
