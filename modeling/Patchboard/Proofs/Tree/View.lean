import Patchboard.Proofs.Tree.Growth
import Patchboard.ThemeCopies

set_option autoImplicit false

namespace Patchboard

namespace Tree

def view (t : Tree) (p : Path) : Option Entry := (t.find? p).map (Entry.withMode 0)

variable {t t' : Tree} {p : Path}

theorem isFile_withMode (mode : Nat) (e : Entry) : (e.withMode mode).isFile = e.isFile := by
  cases e <;> rfl

theorem isFile_eq_view (t : Tree) (p : Path) : t.isFile p = (t.view p).any Entry.isFile := by
  unfold isFile view
  cases t.find? p with
  | none => rfl
  | some e => exact (isFile_withMode 0 e).symm

theorem isDirectory_eq_view (t : Tree) (p : Path) :
    t.isDirectory p = (t.view p).any Entry.isDirectory := by
  unfold isDirectory view
  cases t.find? p with
  | none => rfl
  | some e => exact congrArg not (isFile_withMode 0 e).symm

theorem pathExists_eq_view (t : Tree) (p : Path) : t.pathExists p = (t.view p).isSome := by
  unfold pathExists view
  cases t.find? p <;> rfl

theorem file?_eq_view (t : Tree) (p : Path) :
    t.file? p = match t.view p with
      | some (.file contents _) => some contents
      | _ => none := by
  unfold file? view find?
  cases t.find p with
  | error e => rfl
  | ok found =>
    obtain ⟨place, entry⟩ := found
    cases entry <;> rfl

theorem isFile_of_view (h : t.view p = t'.view p) : t.isFile p = t'.isFile p := by
  rw [isFile_eq_view, isFile_eq_view, h]

theorem isDirectory_of_view (h : t.view p = t'.view p) :
    t.isDirectory p = t'.isDirectory p := by
  rw [isDirectory_eq_view, isDirectory_eq_view, h]

theorem pathExists_of_view (h : t.view p = t'.view p) : t.pathExists p = t'.pathExists p := by
  rw [pathExists_eq_view, pathExists_eq_view, h]

theorem file?_of_view (h : t.view p = t'.view p) : t.file? p = t'.file? p := by
  rw [file?_eq_view, file?_eq_view, h]

theorem text?_ok_of_view (h : t.view p = t'.view p) (s : String) :
    t.text? p = .ok s ↔ t'.text? p = .ok s := by
  rw [text?_eq_ok_iff, text?_eq_ok_iff, file?_of_view h]

end Tree

variable {themes : List Theme} {t t' : Tree}

theorem ThemeCopy.ofFile_congr {p : Path}
    (h : ∀ copy ∈ ThemeCopy.candidates themes p, t.isFile copy.path = t'.isFile copy.path) :
    ThemeCopy.ofFile themes t p = ThemeCopy.ofFile themes t' p :=
  List.filter_congr fun copy hc => h copy hc

def ThemeCopy.lookups (themes : List Theme) (a : Action) (destination : Path) : List Path :=
  if a.kind.isRequire then (candidates themes destination).filterMap (·.path.parent?)
  else if a.kind.isRemoval then (candidates themes destination).map (·.path)
  else []

theorem ThemeCopy.isTarget_of_view {a : Action} {destination : Path} {copy : ThemeCopy}
    (hk : (a.kind.isRequire || a.kind.isRemoval) = true)
    (hc : copy ∈ candidates themes destination)
    (h : ∀ p ∈ lookups themes a destination, t.view p = t'.view p) :
    isTarget a t copy = isTarget a t' copy := by
  unfold lookups at h
  unfold isTarget
  split
  · rename_i hr
    rw [if_pos hr] at h
    cases hp : copy.path.parent? with
    | none => rfl
    | some parent => exact Tree.isDirectory_of_view (h parent (List.mem_filterMap.2 ⟨copy, hc, hp⟩))
  · rename_i hr
    rw [Bool.not_eq_true] at hr
    rw [hr, Bool.false_or] at hk
    rw [if_neg (by simp [hr]), if_pos hk] at h
    exact Tree.pathExists_of_view (h copy.path (List.mem_map_of_mem hc))

theorem ThemeCopy.ofAction_of_view {a : Action} {destination : Path}
    (hd : a.destination = some destination)
    (h : ∀ p ∈ lookups themes a destination, t.view p = t'.view p) :
    ofAction themes t a = ofAction themes t' a := by
  unfold ofAction
  split
  · rfl
  · rename_i hk
    rw [Bool.not_eq_true, Bool.not_eq_false'] at hk
    have hfilter : (candidates themes destination).filter (isTarget a t) =
        (candidates themes destination).filter (isTarget a t') :=
      List.filter_congr fun copy hc => isTarget_of_view hk hc h
    rw [hd]
    cases Theme.default? themes with
    | none => rfl
    | some main =>
      dsimp only
      rw [hfilter]

theorem CopyIndex.ofTargets_congr {targets : List Path}
    (h : ∀ p ∈ targets, ∀ copy ∈ ThemeCopy.candidates themes p,
      t.isFile copy.path = t'.isFile copy.path) :
    CopyIndex.ofTargets themes t targets = CopyIndex.ofTargets themes t' targets := by
  have hmap := List.map_congr_left fun p hp =>
    congrArg (Prod.mk p) (ThemeCopy.ofFile_congr (h p hp))
  unfold CopyIndex.ofTargets
  rw [hmap]

theorem CopyIndex.ofTargets_of_view {targets : List Path}
    (h : ∀ p ∈ targets, ∀ copy ∈ ThemeCopy.candidates themes p,
      t.view copy.path = t'.view copy.path) :
    CopyIndex.ofTargets themes t targets = CopyIndex.ofTargets themes t' targets :=
  CopyIndex.ofTargets_congr fun p hp copy hc => Tree.isFile_of_view (h p hp copy hc)

end Patchboard
