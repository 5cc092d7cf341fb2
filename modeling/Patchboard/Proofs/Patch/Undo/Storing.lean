import Patchboard.Proofs.Patch.Saving
import Patchboard.Proofs.Tree.Writing

set_option autoImplicit false

namespace Patchboard
open Tree

namespace Site

def Granted (s : Site) (p : Path) : Prop :=
  match s.permissions with
  | .byMode => s.tree.Unlocked p
  | .listed _ _ repairs => repairs = true ∨ s.isWritable p = true

structure Storable (s : Site) (p : Path) : Prop where
  named : endsInName p = true
  sheltered : s.tree.Sheltered p
  granted : s.Granted p

/-- A file that is there and that may be written where it stands. -/
structure Savable (s : Site) (p : Path) : Prop where
  there : (s.tree.file? p).isSome
  named : endsInName p = true
  sheltered : s.tree.Sheltered p
  writable : s.isWritable p = true

instance (s : Site) (p : Path) : Decidable (s.Savable p) :=
  decidable_of_iff ((s.tree.file? p).isSome ∧ endsInName p = true ∧ s.tree.Sheltered p ∧
      s.isWritable p = true)
    ⟨fun h => ⟨h.1, h.2.1, h.2.2.1, h.2.2.2⟩,
      fun h => ⟨h.there, h.named, h.sheltered, h.writable⟩⟩

variable {s : Site} {p : Path}

theorem Savable.storable (h : s.Savable p) : s.Storable p := by
  have hw := h.writable
  refine ⟨h.named, h.sheltered, ?_⟩
  unfold Granted
  cases hp : s.permissions with
  | byMode =>
    simp only [isWritable, hp] at hw
    exact (isWritable_iff h.there).1 hw
  | listed denied everything repairs => exact .inr hw

theorem ensureWritable_of_granted (hf : (s.tree.file? p).isSome) (h : s.Granted p) :
    (s.ensureWritable p).1 = true := by
  unfold Granted at h
  unfold ensureWritable
  cases hw : s.isWritable p with
  | true => rfl
  | false =>
    change (s.makeWritable p).1 = true
    cases hp : s.permissions with
    | byMode =>
      rw [hp] at h
      have hopen := (isWritable_iff hf).2 h
      simp [isWritable, hp, hopen] at hw
    | listed denied everything repairs =>
      rw [hp] at h
      rcases h with hr | ht
      · simp [Site.makeWritable, hp, hr]
      · rw [ht] at hw
        simp at hw

theorem granted_of_ensureWritable
    (hf : (s.tree.file? p).isSome ∨ (s.ensureWritable p).2.permissions ≠ .byMode)
    (h : (s.ensureWritable p).1 = true) : (s.ensureWritable p).2.Granted p := by
  unfold ensureWritable at hf h ⊢
  cases hw : s.isWritable p with
  | true =>
    rw [hw] at hf
    change (s.tree.file? p).isSome ∨ s.permissions ≠ .byMode at hf
    change s.Granted p
    unfold Granted
    cases hp : s.permissions with
    | byMode =>
      simp only [isWritable, hp] at hw
      exact (isWritable_iff (hf.resolve_right fun hne => hne hp)).1 hw
    | listed denied everything repairs => exact .inr hw
  | false =>
    rw [hw] at hf h
    change (s.tree.file? p).isSome ∨ (s.makeWritable p).2.permissions ≠ .byMode at hf
    change (s.makeWritable p).1 = true at h
    change (s.makeWritable p).2.Granted p
    unfold Site.makeWritable at hf h ⊢
    cases hp : s.permissions with
    | byMode =>
      rw [hp] at hf h
      exact unlocked_of_makeWritable (hf.resolve_right (by simp)) h
    | listed denied everything repairs =>
      rw [hp] at h
      dsimp only at h ⊢
      cases repairs with
      | true => exact .inl rfl
      | false => simp at h

theorem Granted.of_tree {s' : Site} (hp : s'.permissions = s.permissions)
    (ht : s.permissions = .byMode → s.tree.Unlocked p → s'.tree.Unlocked p)
    (h : s.Granted p) : s'.Granted p := by
  unfold Granted isWritable at h ⊢
  rw [hp]
  cases hs : s.permissions with
  | byMode =>
    rw [hs] at h
    exact ht hs h
  | listed denied everything repairs =>
    rw [hs] at h
    exact h

theorem granted_ensureWritable {q : Path} (hf : (s.tree.file? q).isSome) (h : s.Granted q) :
    (s.ensureWritable p).2.Granted q := by
  have hprepared := prepared_ensureWritable s p
  unfold ensureWritable at hprepared ⊢
  cases hw : s.isWritable p with
  | true => exact h
  | false =>
    rw [hw] at hprepared
    change Prepared s.tree (s.makeWritable p).2.tree at hprepared
    change (s.makeWritable p).2.Granted q
    unfold Granted at h
    unfold Site.makeWritable at hprepared ⊢
    cases hp : s.permissions with
    | byMode =>
      rw [hp] at h hprepared
      exact Unlocked.of_grown h hf hprepared.grown hprepared.keepsWritable
    | listed denied everything repairs =>
      rw [hp] at h
      dsimp only
      cases repairs with
      | true => exact .inl rfl
      | false =>
        unfold Granted
        rw [if_neg (by simp), hp]
        exact h

end Site

namespace Save

variable {b : Board} {path : Path} {text : List Char} {existed : Bool} {t t' : Tree}

theorem write_ok (h : (write path text).run.run t = (.ok (), t')) :
    ∃ made place mode, Prepared t made ∧ made.Sheltered path ∧
      made.writable? path = .ok (place, mode) ∧
        t' = made.put place (.file (.text (String.ofList text)) (mode.getD modeOfNewFile)) := by
  have hp := prepared_makeParents path t
  unfold after at hp
  unfold write at h
  rw [run_bind] at h
  split at h
  · rename_i made hmade
    rw [hmade] at hp
    unfold writeText at h
    rw [run_writeContents] at h
    split at h
    · cases h
    · rename_i place mode hw
      cases h
      exact ⟨made, place, mode, hp, sheltered_of_makeParents hmade, hw, rfl⟩
  · cases h

theorem run_write (hs : t.Sheltered path) (hn : endsInName path = true)
    (hf : (t.file? path).isSome) (text : List Char) :
    ((write path text).run.run t).1 = .ok () := by
  obtain ⟨contents, hf⟩ := Option.isSome_iff_exists.1 hf
  obtain ⟨place, mode, hw⟩ := writable?_of_file hf hn
  unfold write writeText
  rw [run_bind, run_makeParents hs]
  dsimp only
  rw [run_writeContents, hw]

theorem keepsWritable_backUp {s : Site}
    (h : existed = true → (s.tree.file? path).isSome ∧ s.tree.Unlocked path) :
    KeepsWritable s.tree (backUp b path existed s).tree := by
  unfold backUp
  split
  · rename_i hb
    obtain ⟨hf, hu⟩ := h (Bool.and_eq_true_iff.1 hb).2
    have hp := prepared_makeParents (Backup.ofFile path b.settings) s.tree
    unfold after at hp
    change KeepsWritable s.tree (after (copyTo path (Backup.ofFile path b.settings)) s.tree)
    unfold after copyTo
    rw [run_bind]
    split
    · rename_i made hmade
      rw [hmade] at hp
      have hcopy := keepsWritable_copyFile
        (hu.of_grown hf hp.grown hp.keepsWritable) (Backup.ofFile path b.settings)
      exact hp.keepsWritable.trans hcopy
    · rename_i made hmade
      rw [hmade] at hp
      exact hp.keepsWritable
  · exact .refl _

theorem permissions_backUp (s : Site) :
    (backUp b path existed s).permissions = s.permissions := by
  unfold backUp
  split <;> rfl

theorem backUp_of_missing (s : Site) : backUp b path false s = s := by
  unfold backUp
  rw [if_neg (by simp)]

section
variable {s : Site} (hok : (written b path text existed s).1 = .ok ())
include hok

theorem written_ok :
    ∃ made place mode, Prepared (backUp b path existed s).tree made ∧ made.Sheltered path ∧
      made.writable? path = .ok (place, mode) ∧ (written b path text existed s).2.tree =
        made.put place (.file (.text (String.ofList text)) (mode.getD modeOfNewFile)) :=
  write_ok (Prod.ext hok rfl)

theorem file?_written :
    (written b path text existed s).2.tree.file? path = some (.text (String.ofList text)) ∧
      endsInName path = true ∧ (written b path text existed s).2.tree.Sheltered path := by
  obtain ⟨made, place, mode, -, hshelter, hw, ht⟩ := written_ok hok
  have hput := grown_put_file (writable?_ok hw).2 (.text (String.ofList text))
    (mode.getD modeOfNewFile)
  rw [ht]
  exact ⟨file?_put hw _ _, (ends_of_writable? hw).2, hshelter.of_grown hput⟩

theorem keepsWritable_written
    (h : existed = true → (s.tree.file? path).isSome ∧ s.tree.Unlocked path) :
    KeepsWritable s.tree (written b path text existed s).2.tree := by
  obtain ⟨made, place, mode, hp, -, hw, ht⟩ := written_ok hok
  have hbackup : KeepsWritable s.tree (backUp b path existed s).tree := keepsWritable_backUp h
  rw [ht]
  exact (hbackup.trans hp.keepsWritable).trans (keepsWritable_put hw _)

theorem granted_written {q : Path} (hf : (s.tree.file? q).isSome) (h : s.Granted q)
    (hpath : existed = true → (s.tree.file? path).isSome ∧ s.Granted path) :
    (written b path text existed s).2.Granted q := by
  refine h.of_tree (permissions_backUp s) fun hp hu => ?_
  refine hu.of_grown hf (grown_written b path text existed s) (keepsWritable_written hok ?_)
  intro he
  obtain ⟨hfile, hg⟩ := hpath he
  unfold Site.Granted at hg
  rw [hp] at hg
  exact ⟨hfile, hg⟩

end

theorem unlocked_written {s : Site} (hok : (written b path text false s).1 = .ok ())
    (hmissing : ∀ t, Grown s.tree t [] → t.file? path = none) :
    (written b path text false s).2.tree.Unlocked path := by
  obtain ⟨made, place, mode, hp, -, hw, ht⟩ := written_ok hok
  have hsame : backUp b path false s = s := backUp_of_missing s
  rw [hsame] at hp
  rw [ht]
  exact unlocked_put hw _
    (unlocked_of_missing (ends_of_writable? hw).1 (hmissing made hp.grown))

variable {o : PatchOptions} {theme : Nat} {p : Progress}

theorem stored_of_found (ho : o.testing = false) (hb : isSettingsBackup b path = false)
    (h : (save b o path theme text existed p).report.everythingFound = true) :
    (p.site.ensureWritable path).1 = true ∧
      (written b path text existed (p.site.ensureWritable path).2).1 = .ok () ∧
        (save b o path theme text existed p).site =
          (written b path text existed (p.site.ensureWritable path).2).2 := by
  rcases save_cases b path theme text existed o p with
    ⟨hs, -⟩ | ⟨-, ⟨ht, -⟩ | ⟨-, -, hs⟩ | ⟨-, hw, hs⟩⟩
  · simp [hb] at hs
  · simp [ho] at ht
  · rw [hs] at h
    simp [Progress.fail, Report.fail] at h
  · rw [hs] at h ⊢
    rcases store_cases b path theme text existed (p.on (p.site.ensureWritable path).2) with
      ⟨hok, hstore⟩ | ⟨-, hstore⟩
    · rw [hstore]
      exact ⟨hw, hok, rfl⟩
    · rw [hstore] at h
      simp [Progress.fail, Report.fail] at h

theorem granted_stored {s : Site} (hw : (s.ensureWritable path).1 = true)
    (hok : (written b path text existed (s.ensureWritable path).2).1 = .ok ())
    (hexisted : existed = (s.tree.file? path).isSome)
    (hmissing : s.tree.file? path = none → ∀ t, Grown s.tree t [] → t.file? path = none) :
    (written b path text existed (s.ensureWritable path).2).2.Granted path := by
  have hfirst := s.grown_ensureWritable path
  cases existed with
  | true =>
    have hthere : (s.tree.file? path).isSome := hexisted.symm
    have hstill := isSome_file?_of_grown hfirst hthere
    have hgranted := Site.granted_of_ensureWritable (.inl hthere) hw
    exact granted_written hok hstill hgranted fun _ => ⟨hstill, hgranted⟩
  | false =>
    have hnone : s.tree.file? path = none := by simpa using hexisted.symm
    by_cases hp : (s.ensureWritable path).2.permissions = .byMode
    · have hunlocked := unlocked_written hok fun t hg => hmissing hnone t (hfirst.then hg)
      have hsame : (written b path text false (s.ensureWritable path).2).2.permissions = .byMode :=
        (permissions_backUp _).trans hp
      unfold Site.Granted
      rw [hsame]
      exact hunlocked
    · have hgranted := Site.granted_of_ensureWritable (.inr hp) hw
      exact hgranted.of_tree (permissions_backUp _) fun hm => absurd hm hp

/-- Once a file was saved and nothing failed, it is there with its text and can be saved again, and
so can every other file that could be saved before. -/
theorem storable_save (ho : o.testing = false) (hb : isSettingsBackup b path = false)
    (hexisted : existed = (p.site.tree.file? path).isSome)
    (hmissing : p.site.tree.file? path = none →
      ∀ t, Grown p.site.tree t [] → t.file? path = none)
    (h : (save b o path theme text existed p).report.everythingFound = true) :
    (save b o path theme text existed p).site.tree.file? path =
        some (.text (String.ofList text)) ∧
      (save b o path theme text existed p).site.Storable path ∧
      ∀ q, (p.site.tree.file? q).isSome → p.site.Storable q →
        (save b o path theme text existed p).site.Storable q := by
  obtain ⟨hw, hok, hsite⟩ := stored_of_found ho hb h
  obtain ⟨hfile, hnamed, hshelter⟩ := file?_written hok
  have hgrown := grown_save b path theme text existed o p
  have hstill {q : Path} (hq : (p.site.tree.file? q).isSome) :=
    isSome_file?_of_grown (p.site.grown_ensureWritable path) hq
  rw [hsite] at hgrown ⊢
  refine ⟨hfile, ⟨hnamed, hshelter, granted_stored hw hok hexisted hmissing⟩, fun q hq hs => ?_⟩
  have hgranted := Site.granted_ensureWritable (p := path) hq hs.granted
  refine ⟨hs.named, hs.sheltered.of_grown hgrown, granted_written hok (hstill hq) hgranted ?_⟩
  intro he
  have hthere : (p.site.tree.file? path).isSome := hexisted.symm.trans he
  exact ⟨hstill hthere, Site.granted_of_ensureWritable (.inl hthere) hw⟩

theorem found_save (ho : o.testing = false) (hf : (p.site.tree.file? path).isSome)
    (hs : p.site.Storable path) :
    (save b o path theme text existed p).report.everythingFound = p.report.everythingFound := by
  rcases save_cases b path theme text existed o p with
    ⟨-, hsave⟩ | ⟨-, ⟨ht, -⟩ | ⟨-, hw, -⟩ | ⟨-, -, hsave⟩⟩
  · rw [hsave]
    rfl
  · simp [ho] at ht
  · simp [Site.ensureWritable_of_granted hf hs.granted] at hw
  · have hgrown := (p.site.grown_ensureWritable path).trans
      (grown_backUp b path existed (p.site.ensureWritable path).2)
    have hok := run_write (hs.sheltered.of_grown hgrown) hs.named
      (isSome_file?_of_grown hgrown hf) text
    rw [hsave]
    rcases store_cases b path theme text existed (p.on (p.site.ensureWritable path).2) with
      ⟨-, hstore⟩ | ⟨⟨e, he⟩, -⟩
    · rw [hstore]
      rfl
    · have hfailed := he.symm.trans hok
      simp at hfailed

end Save

end Patchboard
