import Patchboard.Proofs.Patch.Recording
import Patchboard.Proofs.Tree.Preparing

set_option autoImplicit false

namespace Patchboard

def EventKind.isRefusal : EventKind → Bool
  | .error (.permissionDenied _) => true
  | _ => false

/-- No write of a patch was refused. -/
def Report.Unrefused (r : Report) : Prop := ∀ e ∈ r.events, e.kind.isRefusal = false

instance (r : Report) : Decidable r.Unrefused :=
  inferInstanceAs (Decidable (∀ e ∈ r.events, e.kind.isRefusal = false))

theorem Report.Unrefused.of_prefix {r r' : Report} (h : r'.Unrefused)
    (hp : r.events <+: r'.events) : r.Unrefused :=
  fun e he => h e (hp.subset he)

def Progress.on (p : Progress) (site : Site) : Progress := { p with site }

namespace Site
open Tree

theorem prepared_makeWritable (s : Site) (p : Path) :
    Prepared s.tree (s.makeWritable p).2.tree := by
  unfold Site.makeWritable
  split
  · exact Tree.prepared_makeWritable s.tree p
  · split <;> exact .refl

theorem prepared_ensureWritable (s : Site) (p : Path) :
    Prepared s.tree (s.ensureWritable p).2.tree := by
  unfold ensureWritable
  split
  · exact .refl
  · exact prepared_makeWritable s p

theorem look_makeWritable (s : Site) (p : Path) (place : Place) :
    (s.makeWritable p).2.tree.look place = s.tree.look place := by
  unfold Site.makeWritable
  split
  · exact Tree.look_makeWritable ..
  · split <;> rfl

theorem look_ensureWritable (s : Site) (p : Path) (place : Place) :
    (s.ensureWritable p).2.tree.look place = s.tree.look place := by
  unfold ensureWritable
  split
  · rfl
  · exact look_makeWritable s p place

theorem grown_ensureWritable (s : Site) (p : Path) :
    Grown s.tree (s.ensureWritable p).2.tree [] :=
  (prepared_ensureWritable s p).grown

end Site

namespace Save
open Tree

variable (b : Board) (path : Path) (theme : Nat) (text : List Char) (existed : Bool)

/-- What saving does: the backup of the settings is left alone, a test only asks, and the real thing
makes the file writable and stores it. -/
theorem save_cases (o : PatchOptions) (p : Progress) :
    (isSettingsBackup b path = true ∧
      save b o path theme text existed p = p.note path theme .skipped) ∨
    isSettingsBackup b path = false ∧
      ((o.testing = true ∧ save b o path theme text existed p =
          (if p.site.isWritable path then p else p.note path theme .chmodNeeded).note path theme
            .saved) ∨
        (o.testing = false ∧ (p.site.ensureWritable path).1 = false ∧
          save b o path theme text existed p =
            ((p.on (p.site.ensureWritable path).2).note path theme .chmodNeeded).fail (some path)
              theme (.error (.permissionDenied path))) ∨
        (o.testing = false ∧ (p.site.ensureWritable path).1 = true ∧
          save b o path theme text existed p =
            store b path theme text existed (p.on (p.site.ensureWritable path).2))) := by
  unfold save
  cases hb : isSettingsBackup b path with
  | true => exact .inl ⟨rfl, rfl⟩
  | false =>
    refine .inr ⟨rfl, ?_⟩
    cases ht : o.testing with
    | true => exact .inl ⟨rfl, rfl⟩
    | false =>
      cases hw : (p.site.ensureWritable path).1 with
      | false => exact .inr (.inl ⟨rfl, rfl, by simp [hw, Progress.on]⟩)
      | true => exact .inr (.inr ⟨rfl, rfl, by simp [hw, Progress.on]⟩)

/-- The site after a file was stored, and how the writing of the file ended. -/
def written (path : Path) (text : List Char) (existed : Bool) (s : Site) :
    Except FileError Unit × Site :=
  (backUp b path existed s).run (write path text)

theorem store_cases (p : Progress) :
    ((written b path text existed p.site).1 = .ok () ∧ store b path theme text existed p =
      (p.on (written b path text existed p.site).2).note path theme .saved) ∨
    ((∃ e, (written b path text existed p.site).1 = .error e) ∧
      store b path theme text existed p =
        (p.on (written b path text existed p.site).2).fail (some path) theme
          (.error (.permissionDenied path))) := by
  unfold store written
  dsimp only
  split
  · rename_i h
    exact .inl ⟨h, rfl⟩
  · rename_i e h
    exact .inr ⟨⟨e, h⟩, rfl⟩

theorem records_save (o : PatchOptions) (p : Progress) :
    ∃ new, p.report.Records new (save b o path theme text existed p).report ∧
      ∀ e ∈ new, e.kind.spoils = false := by
  have hrefl := Report.Records.refl p.report
  have hneeded := hrefl.note path theme .chmodNeeded rfl trivial
  rcases save_cases b path theme text existed o p with
    ⟨-, hs⟩ | ⟨-, ⟨-, hs⟩ | ⟨-, -, hs⟩ | ⟨-, -, hs⟩⟩
  · rw [hs]
    exact ⟨_, hrefl.note path theme _ rfl trivial, by simp [EventKind.spoils]⟩
  · rw [hs]
    split
    · exact ⟨_, hrefl.note path theme _ rfl trivial, by simp [EventKind.spoils]⟩
    · exact ⟨_, hneeded.note path theme _ rfl trivial, by simp [EventKind.spoils]⟩
  · rw [hs]
    exact ⟨_, hneeded.fail (some path) theme _ rfl trivial, by simp [EventKind.spoils]⟩
  · rw [hs]
    rcases store_cases b path theme text existed (p.on (p.site.ensureWritable path).2) with
      ⟨-, ht⟩ | ⟨-, ht⟩
    · rw [ht]
      exact ⟨_, hrefl.note path theme _ rfl trivial, by simp [EventKind.spoils]⟩
    · rw [ht]
      exact ⟨_, hrefl.fail (some path) theme _ rfl trivial, by simp [EventKind.spoils]⟩

theorem site_save_testing {undo : Bool} (p : Progress) :
    (save b ⟨true, undo⟩ path theme text existed p).site = p.site := by
  rcases save_cases b path theme text existed ⟨true, undo⟩ p with
    ⟨-, hs⟩ | ⟨-, ⟨-, hs⟩ | ⟨ht, -⟩ | ⟨ht, -⟩⟩
  · rw [hs]
    rfl
  · rw [hs]
    split <;> rfl
  · simp at ht
  · simp at ht

def footprint (b : Board) (t : Tree) (path : Path) : List Place :=
  [t.lexicalPlace (Backup.ofFile path b.settings), t.lexicalPlace path]

theorem grown_write (s : List Char) (t : Tree) :
    Grown t (after (write path s) t) [t.lexicalPlace path] := by
  have hp := (prepared_makeParents path t).grown
  unfold after at hp
  unfold after write
  rw [run_bind]
  split
  · rename_i t' h
    rw [h] at hp
    have hw := grown_writeContents path (.text (String.ofList s)) t'
    rw [lexicalPlace_of_grown hp] at hw
    exact hp.trans hw
  · rename_i t' h
    rw [h] at hp
    exact hp.mono (by simp)

theorem grown_copyTo (source target : Path) (t : Tree) :
    Grown t (after (copyTo source target) t) [t.lexicalPlace target] := by
  have hp := (prepared_makeParents target t).grown
  unfold after at hp
  unfold after copyTo
  rw [run_bind]
  split
  · rename_i t' h
    rw [h] at hp
    have hw := grown_copyFile source target t'
    rw [lexicalPlace_of_grown hp] at hw
    exact hp.trans hw
  · rename_i t' h
    rw [h] at hp
    exact hp.mono (by simp)

theorem grown_backUp (s : Site) :
    Grown s.tree (backUp b path existed s).tree
      [s.tree.lexicalPlace (Backup.ofFile path b.settings)] := by
  unfold backUp
  split
  · exact grown_copyTo ..
  · exact Grown.refl ..

theorem grown_written (s : Site) :
    Grown s.tree (written b path text existed s).2.tree (footprint b s.tree path) := by
  have hb := grown_backUp b path existed s
  have hw := grown_write path text (backUp b path existed s).tree
  rw [lexicalPlace_of_grown hb] at hw
  exact hb.trans hw

theorem grown_store (p : Progress) :
    Grown p.site.tree (store b path theme text existed p).site.tree
      (footprint b p.site.tree path) := by
  have hw := grown_written b path text existed p.site
  rcases store_cases b path theme text existed p with ⟨-, hs⟩ | ⟨-, hs⟩
  · rw [hs]
    exact hw
  · rw [hs]
    exact hw

theorem grown_save (o : PatchOptions) (p : Progress) :
    Grown p.site.tree (save b o path theme text existed p).site.tree
      (footprint b p.site.tree path) := by
  have he := p.site.grown_ensureWritable path
  rcases save_cases b path theme text existed o p with
    ⟨-, hs⟩ | ⟨-, ⟨-, hs⟩ | ⟨-, -, hs⟩ | ⟨-, -, hs⟩⟩
  · rw [hs]
    exact Grown.refl ..
  · rw [hs]
    split <;> exact Grown.refl ..
  · rw [hs]
    exact he.mono (by simp)
  · rw [hs]
    have hstore := grown_store b path theme text existed (p.on (p.site.ensureWritable path).2)
    unfold footprint at hstore ⊢
    dsimp only [Progress.on] at hstore
    rw [lexicalPlace_of_grown he, lexicalPlace_of_grown he] at hstore
    exact he.trans hstore

theorem save_testing {undo : Bool} {p : Progress} (hb : isSettingsBackup b path = false)
    (hw : p.site.isWritable path = true) :
    save b ⟨true, undo⟩ path theme text existed p = p.note path theme .saved := by
  unfold save
  rw [if_neg (by simp [hb]), if_pos rfl]
  dsimp only
  rw [if_pos hw]

theorem save_unrefused {undo : Bool} {p : Progress} (hb : isSettingsBackup b path = false)
    (hr : (save b ⟨false, undo⟩ path theme text existed p).report.Unrefused) :
    ∃ site, save b ⟨false, undo⟩ path theme text existed p =
      (p.on site).note path theme .saved := by
  have hrefused (q : Progress) (h : (q.fail (some path) theme
      (.error (.permissionDenied path))).report.Unrefused) : False := by
    have hlast := h _ (List.mem_append_right _ (List.mem_singleton_self _))
    simp [EventKind.isRefusal] at hlast
  rcases save_cases b path theme text existed ⟨false, undo⟩ p with
    ⟨hs, -⟩ | ⟨-, ⟨ht, -⟩ | ⟨-, -, hs⟩ | ⟨-, -, hs⟩⟩
  · simp [hb] at hs
  · simp at ht
  · rw [hs] at hr
    exact (hrefused _ hr).elim
  · rw [hs] at hr ⊢
    rcases store_cases b path theme text existed (p.on (p.site.ensureWritable path).2) with
      ⟨-, hstore⟩ | ⟨-, hstore⟩
    · exact ⟨_, hstore⟩
    · rw [hstore] at hr
      exact (hrefused _ hr).elim

theorem save_on {undo : Bool} {p : Progress} {site : Site} (hw : site.isWritable path = true)
    (hr : (save b ⟨false, undo⟩ path theme text existed p).report.Unrefused) :
    save b ⟨true, undo⟩ path theme text existed (p.on site) =
      (save b ⟨false, undo⟩ path theme text existed p).on site := by
  cases hb : isSettingsBackup b path with
  | true =>
    unfold save
    rw [if_pos hb, if_pos hb]
    rfl
  | false =>
    obtain ⟨site', hs⟩ := save_unrefused b path theme text existed hb hr
    rw [save_testing b path theme text existed hb hw, hs]
    rfl

end Save

end Patchboard
