import Patchboard.Proofs.State.Layout
import Patchboard.Proofs.Tree.Copying
import Patchboard.Run

set_option autoImplicit false

namespace Patchboard.StateLayout
open Path Tree

variable {l : StateLayout} {base t t' : Tree}

theorem isName_active : IsName "active" := by decide

theorem activeMarker_eq (l : StateLayout) : l.activeMarker = l.runs.join ⟨"active"⟩ := rfl

theorem lexicalPlace_receipts (l : StateLayout) (t : Tree) :
    t.lexicalPlace l.receipts = t.lexicalPlace l.root ++ ["installed"] :=
  lexicalPlace_join isName_installed t l.root

theorem lexicalPlace_runs (l : StateLayout) (t : Tree) :
    t.lexicalPlace l.runs = t.lexicalPlace l.root ++ ["runs"] :=
  lexicalPlace_join isName_runs t l.root

/-- The directories of a state directory are there. -/
structure Based (l : StateLayout) (t : Tree) : Prop where
  receipts : t.isDirectory l.receipts = true
  staging : t.isDirectory l.staging = true
  runs : t.isDirectory l.runs = true

theorem isDirectory_of_ensure {p : Path} (he : p.text.isEmpty = false)
    (h : (FileTree.ensureDirectory p).run.run t = (.ok (), t')) : t'.isDirectory p = true :=
  isDirectory_of_makeDirectoriesFrom he (run_on_eq_ok.1 h)

theorem run_ensure {p : Path} (h : t.isDirectory p = true) :
    (FileTree.ensureDirectory p).run.run t = (.ok (), t) :=
  run_on_eq_ok.2 (run_makeDirectories h)

theorem outgrown_ensureBase (l : StateLayout) : Follows Outgrown l.ensureBase :=
  .bind lasting_outgrown (outgrown_ensureDirectory _) fun _ =>
    .bind lasting_outgrown (outgrown_ensureDirectory _) fun _ => outgrown_ensureDirectory _

theorem confines_ensureBase {inside : Place → Prop} (l : StateLayout) :
    Confines base inside (base.way l.receipts ++ base.way l.staging ++ base.way l.runs)
      l.ensureBase := by
  refine .bind ?_ fun _ => .bind ?_ fun _ => ?_ <;>
    refine (confines_fileTree_ensureDirectory _).mono (fun _ => id) fun place hp => .inr ?_ <;>
    simp [hp]

theorem based_of_ensureBase (h : l.ensureBase.run.run t = (.ok (), t')) : Based l t' := by
  unfold ensureBase at h
  rw [run_bind] at h
  rcases hr : (FileTree.ensureDirectory l.receipts).run.run t with ⟨_ | _, t₁⟩
  · rw [hr] at h
    cases h
  rw [hr] at h
  dsimp only at h
  rw [run_bind] at h
  rcases hs : (FileTree.ensureDirectory l.staging).run.run t₁ with ⟨_ | _, t₂⟩
  · rw [hs] at h
    cases h
  rw [hs] at h
  dsimp only at h
  obtain ⟨_, hstaged⟩ := outgrown_ensureDirectory l.staging t₁
  obtain ⟨_, hran⟩ := outgrown_ensureDirectory l.runs t₂
  rw [hs] at hstaged
  rw [h] at hran
  have hreceipts := isDirectory_of_ensure (text_receipts l) hr
  have hstaging := isDirectory_of_ensure (text_staging l) hs
  exact ⟨isDirectory_of_grown hran (isDirectory_of_grown hstaged hreceipts),
    isDirectory_of_grown hran hstaging, isDirectory_of_ensure (text_runs l) h⟩

theorem run_ensureBase (h : Based l t) : l.ensureBase.run.run t = (.ok (), t) := by
  unfold ensureBase
  rw [run_bind, run_ensure h.receipts]
  dsimp only
  rw [run_bind, run_ensure h.staging]
  exact run_ensure h.runs

/-- A run holds the marker. -/
def Held (l : StateLayout) (t : Tree) : Prop := t.pathExists l.activeMarker = true

instance (l : StateLayout) (t : Tree) : Decidable (Held l t) :=
  inferInstanceAs (Decidable (t.pathExists l.activeMarker = true))

theorem held_iff : Held l t ↔ Fits l.runs "active" ∧ t.isDirectory l.runs = true ∧
    (t.at? (t.lexicalPlace l.root ++ ["runs", "active"])).isSome := by
  have hplace : t.lexicalPlace l.runs ++ ["active"] =
      t.lexicalPlace l.root ++ ["runs", "active"] := by
    rw [lexicalPlace_runs, List.append_assoc]
    rfl
  rw [Held, activeMarker_eq, pathExists_join_iff isName_active, hplace]
  refine and_congr_right fun hf => and_congr_left fun _ => ⟨fun h => ?_, enters_of_isDirectory⟩
  exact isDirectory_of_enters (text_runs l) ((size_join isName_active.piece l.runs).trans hf.path) h

theorem Held.enters (h : Held l t) : t.Enters l.root :=
  ((isDirectory_join_iff isName_runs).1 (held_iff.1 h).2.1).2.1

theorem Held.keep (h : Held l t) (hw : t'.working = t.working) (he : t'.Enters l.root)
    (hr : ∀ mode, t.at? (t.lexicalPlace l.root ++ ["runs"]) = some (.directory mode) →
      ∃ mode, t'.at? (t.lexicalPlace l.root ++ ["runs"]) = some (.directory mode))
    (ha : (t.at? (t.lexicalPlace l.root ++ ["runs", "active"])).isSome →
      (t'.at? (t.lexicalPlace l.root ++ ["runs", "active"])).isSome) : Held l t' := by
  obtain ⟨hfits, hruns, hmarker⟩ := held_iff.1 h
  obtain ⟨hfits', -, mode, hdirectory⟩ := (isDirectory_join_iff isName_runs).1 hruns
  rw [held_iff, runs, isDirectory_join_iff isName_runs, lexicalPlace_congr hw]
  exact ⟨hfits, ⟨hfits', he, hr mode hdirectory⟩, ha hmarker⟩

theorem Held.of_grown (h : Held l t) {written : List Place} (hg : Grown t t' written) :
    Held l t' :=
  h.keep hg.working (h.enters.of_grown hg)
    (fun _ hd => at?_of_look_directory (hg.directory _ (look_directory hd)))
    (isSome_at?_of_grown hg)

theorem confined_ensureBase {inside : Place → Prop} (h : Held l t) :
    Confined inside [t.lexicalPlace l.receipts, t.lexicalPlace l.staging] t
      (l.ensureBase.run.run t).2 := by
  obtain ⟨-, hruns, -⟩ := held_iff.1 h
  refine ((confines_ensureBase l) t rfl).narrow fun place hp hn => .inr ?_
  have hthere {p : Path} (he : t.Enters p) : place ∉ t.way p := by
    intro hw
    obtain ⟨mode, hd⟩ := directory_of_mem_way he hw
    rw [hn] at hd
    cases hd
  rw [List.mem_append, List.mem_append, receipts, staging, mem_way_join isName_installed,
    mem_way_join isName_staging] at hp
  rw [lexicalPlace_receipts, lexicalPlace_staging]
  rcases hp with ((hp | hp) | hp | hp) | hp
  · exact absurd hp (hthere h.enters)
  · simp [hp]
  · exact absurd hp (hthere h.enters)
  · simp [hp]
  · exact absurd hp (hthere (enters_of_isDirectory hruns))

end Patchboard.StateLayout
