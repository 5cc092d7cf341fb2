import Patchboard.Proofs.Patch.Saving
import Patchboard.Proofs.Tree.Regularity
import Patchboard.Proofs.Tree.Sparing

set_option autoImplicit false

namespace Patchboard
open Tree

inductive Permissions.Eases : Permissions → Permissions → Prop
  | byMode : Eases .byMode .byMode
  | listed {denied denied' : List Path} (h : denied' ⊆ denied) (everything repairs : Bool) :
    Eases (.listed denied everything repairs) (.listed denied' everything repairs)

theorem Permissions.Eases.refl (permissions : Permissions) : permissions.Eases permissions := by
  cases permissions with
  | byMode => exact .byMode
  | listed denied everything repairs => exact .listed (List.Subset.refl _) everything repairs

theorem Permissions.Eases.trans {a b c : Permissions} (h : a.Eases b) (h' : b.Eases c) :
    a.Eases c := by
  cases h with
  | byMode => exact h'
  | listed h everything repairs =>
    cases h' with
    | listed h' => exact .listed (List.Subset.trans h' h) everything repairs

/-- A site that some jobs may have left. -/
structure Site.Reached (site : Site) (done : List Deed) (s : Site) : Prop where
  left : Left site.tree done s.tree
  regular : s.tree.Regular
  keyed : s.tree.Keyed
  eases : site.permissions.Eases s.permissions

namespace Tree
variable {base t t' u : Tree} {seen firm : Place → Prop} {p : Path} {place : Place}

theorem Prepared.keyed (h : Prepared t t') (hk : t.Keyed) : t'.Keyed := by
  induction h with
  | refl => exact hk
  | directory h ha ih => exact ih.put ..
  | mode h ha hm ih => exact ih.put ..

theorem probe?_isSome : (t.probe? p).isSome = true ↔ t.pathExists p = true ∨
    ∃ a ∈ p.ancestors, a.text.isEmpty = false ∧ t.pathExists a = true := by
  unfold probe? firstExisting?
  split
  · rename_i h
    simp [h]
  · rename_i h
    simp [h]

theorem pathExists_probe? {target : Path} (h : t.probe? p = some target) :
    t.pathExists target = true := by
  unfold probe? firstExisting? at h
  split at h
  · rename_i hp
    exact Option.some.inj h ▸ hp
  · exact List.find?_some h

/-- The root keeps its mode, which allows writing. -/
theorem find_put_mode {entry : Entry} {mode : Nat} (hf : t.find p = .ok (place, entry))
    (hm : AllowsWriting mode) : ∃ entry', (t.put place (entry.withMode mode)).find p =
      .ok (place, entry') ∧ AllowsWriting entry'.mode := by
  obtain ⟨hl, ha⟩ := find_ok hf
  have hgrown := grown_put_mode ha mode
  obtain ⟨entry', ha', hmode, hfile⟩ : ∃ entry', (t.put place (entry.withMode mode)).at? place =
      some entry' ∧ AllowsWriting entry'.mode ∧ entry'.isFile = entry.isFile := by
    rw [at?_put]
    split
    · exact ⟨_, rfl, by cases entry <;> exact hm, isFile_withMode mode entry⟩
    · rename_i hroot
      obtain rfl : place = [] := by simpa using hroot
      obtain rfl := Option.some.inj ha
      exact ⟨_, rfl, by decide, rfl⟩
  refine ⟨entry', ?_, hmode⟩
  unfold Tree.find at hf ⊢
  rw [hl] at hf
  rw [locate_of_grown hgrown hl]
  dsimp only at hf ⊢
  rw [ha] at hf
  rw [ha']
  dsimp only at hf ⊢
  rw [hfile]
  split at hf
  · cases hf
  · rename_i hends
    rw [if_neg hends]

theorem isWritable_of_find {entry : Entry} (hf : t.find p = .ok (place, entry))
    (hm : AllowsWriting entry.mode) : t.isWritable p = true := by
  have hthere : t.find? p = some entry := by
    rw [find?, hf]
    rfl
  unfold Tree.isWritable Tree.probe? Tree.pathExists
  rw [hthere, if_pos Option.isSome_some, Option.any_some, hasWriteBit, Tree.mode?, hthere]
  exact decide_eq_true hm

theorem makeWritable_of_probe? (h : (t.probe? p).isSome = true) : (t.makeWritable p).1 = true := by
  obtain ⟨target, ht⟩ := Option.isSome_iff_exists.1 h
  have hexists := pathExists_probe? ht
  unfold Tree.makeWritable
  rw [ht]
  dsimp only
  obtain ⟨mode, modes, hmodes, hallows⟩ : ∃ mode modes,
      escalation (t.isDirectory target) = mode :: modes ∧ AllowsWriting mode := by
    cases t.isDirectory target <;> exact ⟨_, _, rfl, by decide⟩
  unfold Tree.pathExists find? at hexists
  cases hf : t.find target with
  | error e => rw [hf] at hexists; cases hexists
  | ok found =>
    obtain ⟨place, entry⟩ := found
    obtain ⟨entry', hfind, hmode⟩ := find_put_mode hf hallows
    have hset : (setMode target mode).run.run t = (.ok (), t.put place (entry.withMode mode)) := by
      unfold setMode
      rw [run_bind, run_ask, hf]
      rfl
    rw [hmodes, tryModes, hset]
    dsimp only
    rw [if_pos (isWritable_of_find hfind hmode)]

theorem Carries.probe? (h : Carries base seen firm t u) (hp : Passes base seen p)
    (hx : (t.probe? p).isSome = true) : (u.probe? p).isSome = true := by
  rw [probe?_isSome] at hx ⊢
  refine hx.imp (h.pathExists hp) fun ⟨a, ha, he, hx⟩ => ⟨a, ha, he, h.pathExists ?_ hx⟩
  exact fun place hm => hp place (mem_way_of_mem_ancestorsFrom ha hm)

end Tree

namespace Site
variable {site s : Site} {done : List Deed} {d e : Deed} {p : Path}

theorem eases_makeWritable (s : Site) (p : Path) :
    s.permissions.Eases (s.makeWritable p).2.permissions := by
  unfold Site.makeWritable
  split
  · exact .refl _
  · rename_i denied everything repairs hs
    split
    · rw [hs]
      exact .listed (List.filter_sublist.subset) everything repairs
    · exact .refl _

namespace Reached

theorem start (hr : site.tree.Regular) (hk : site.tree.Keyed) : site.Reached [] site :=
  ⟨.start _, hr, hk, .refl _⟩

theorem mono {more : List Deed} (h : site.Reached done s) (hm : ∀ d ∈ done, d ∈ more) :
    site.Reached more s :=
  ⟨h.left.mono hm, h.regular, h.keyed, h.eases⟩

theorem makeWritable (h : site.Reached done s) (p : Path) :
    site.Reached done (s.makeWritable p).2 := by
  have hprepared := s.prepared_makeWritable p
  have hlook := s.look_makeWritable p
  exact ⟨h.left.of_look hprepared.grown.working hlook, h.regular.of_look hlook,
    hprepared.keyed h.keyed, h.eases.trans (s.eases_makeWritable p)⟩

theorem ensureWritable (h : site.Reached done s) (p : Path) :
    site.Reached done (s.ensureWritable p).2 := by
  unfold Site.ensureWritable
  split
  · exact h
  · exact h.makeWritable p

theorem writable (h : site.Reached done s) (hs : ∀ d ∈ done, d.Spares e)
    (hp : Passes site.tree e.Seen p) (hw : site.isWritable p = true) :
    (s.ensureWritable p).1 = true := by
  have heases := h.eases
  unfold Site.ensureWritable
  split
  · rfl
  · rename_i hno
    unfold Site.isWritable at hw hno
    unfold Site.makeWritable
    generalize site.permissions = permissions at heases hw
    generalize s.permissions = permissions' at heases hno
    cases heases with
    | byMode =>
      obtain ⟨target, ht, -⟩ := (Option.any_eq_true _ _).1 hw
      have hprobe : (site.tree.probe? p).isSome = true := by rw [ht]; rfl
      exact makeWritable_of_probe? ((h.left.carries hs).probe? hp hprobe)
    | listed hdenied everything repairs =>
      refine absurd ?_ hno
      simp only [Bool.and_eq_true, Bool.not_eq_true', List.any_eq_false] at hw ⊢
      exact ⟨hw.1, fun q hq => hw.2 q (hdenied hq)⟩

theorem run {ε α : Type} {job : ExceptT ε (StateM Tree) α} (h : site.Reached done s)
    (ha : d.Allows site.tree s.tree (job.run.run s.tree).2)
    (hr : (job.run.run s.tree).2.Regular) : site.Reached (done ++ [d]) (s.run job).2 := by
  obtain ⟨way, hc, -⟩ := id ha
  exact ⟨h.left.next ha, hr, hc.keyed h.keyed, h.eases⟩

end Reached

end Site

end Patchboard
