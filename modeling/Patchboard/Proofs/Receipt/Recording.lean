import Patchboard.Proofs.Receipt.Reading
import Patchboard.Proofs.State.Layout
import Patchboard.Proofs.Tree.Listing
import Patchboard.Proofs.Tree.Writing

set_option autoImplicit false

namespace Patchboard.History
open Path Tree StateLayout

/-- Records receipts one after the other. -/
def recordAll (l : StateLayout) (rs : List Receipt) : Job Unit := rs.forM (record l)

def last? (rs : List Receipt) (package : String) : Option Receipt :=
  rs.reverse.find? fun r => r.package = package

def lastIn? (rs : List Receipt) (file : String) : Option Receipt :=
  rs.reverse.find? fun r => receiptFile r.package = file

theorem lastIn?_concat (rs : List Receipt) (r : Receipt) (file : String) :
    lastIn? (rs ++ [r]) file =
      if receiptFile r.package = file then some r else lastIn? rs file := by
  unfold lastIn?
  rw [List.reverse_concat, List.find?_cons]
  by_cases h : receiptFile r.package = file <;> simp [h]

theorem mem_of_last? {rs : List Receipt} {package : String} {r : Receipt}
    (h : last? rs package = some r) : r ∈ rs ∧ r.package = package :=
  ⟨List.mem_reverse.1 (List.mem_of_find?_eq_some h), by simpa using List.find?_some h⟩

theorem mem_of_lastIn? {rs : List Receipt} {file : String} {r : Receipt}
    (h : lastIn? rs file = some r) : r ∈ rs ∧ receiptFile r.package = file :=
  ⟨List.mem_reverse.1 (List.mem_of_find?_eq_some h), by simpa using List.find?_some h⟩

theorem isSome_last? {rs : List Receipt} {r : Receipt} (h : r ∈ rs) :
    (last? rs r.package).isSome :=
  List.find?_isSome.2 ⟨r, List.mem_reverse.2 h, by simp⟩

theorem isSome_lastIn? {rs : List Receipt} {r : Receipt} (h : r ∈ rs) :
    (lastIn? rs (receiptFile r.package)).isSome :=
  List.find?_isSome.2 ⟨r, List.mem_reverse.2 h, by simp⟩

variable {l : StateLayout} {base t t' : Tree} {rs : List Receipt} {r : Receipt}

/-- Nothing has been recorded: nothing stands in the directory of receipts, which may be missing,
and no directory that has to be made for it would stand there. -/
structure Blank (l : StateLayout) (t : Tree) : Prop where
  keyed : t.Keyed
  reach : t.isDirectory l.receipts = true ∨ t.find l.receipts = .error .notFound
  empty : t.names (t.lexicalPlace l.receipts) = []
  aside : ∀ place ∈ t.way l.receipts, place.dropLast ≠ t.lexicalPlace l.receipts

instance (l : StateLayout) (t : Tree) : Decidable (Blank l t) :=
  decidable_of_iff (t.Keyed ∧
      (t.isDirectory l.receipts = true ∨ t.find l.receipts = .error .notFound) ∧
      t.names (t.lexicalPlace l.receipts) = [] ∧
      ∀ place ∈ t.way l.receipts, place.dropLast ≠ t.lexicalPlace l.receipts)
    ⟨fun h => ⟨h.1, h.2.1, h.2.2.1, h.2.2.2⟩, fun h => ⟨h.keyed, h.reach, h.empty, h.aside⟩⟩

/-- The receipts that were recorded since the tree was `base` are those on disk. -/
structure Kept (l : StateLayout) (base : Tree) (rs : List Receipt) (t : Tree) : Prop where
  working : t.working = base.working
  keyed : t.Keyed
  reach : t.isDirectory l.receipts = true ∨ rs = [] ∧ t.find l.receipts = .error .notFound
  files : ∀ file, t.at? (base.lexicalPlace l.receipts ++ [file]) =
    (lastIn? rs file).map fun r => .file (.text r.render) modeOfNewFile
  fits : ∀ r ∈ rs, Fits l.receipts (receiptFile r.package)

theorem kept_of_blank (h : Blank l t) : Kept l t [] t := by
  refine ⟨rfl, h.keyed, h.reach.imp_right fun hf => ⟨rfl, hf⟩, fun file => ?_, by simp⟩
  have hnone : file ∉ t.names (t.lexicalPlace l.receipts) := by simp [h.empty]
  rw [mem_names, Option.not_isSome_iff_eq_none] at hnone
  exact hnone

theorem Kept.ensureParent (h : Kept l base rs t)
    (ha : ∀ place ∈ base.way l.receipts, place.dropLast ≠ base.lexicalPlace l.receipts)
    (hr : (FileTree.ensureParent (l.receipt r.package)).run.run t = (.ok (), t')) :
    Kept l base rs t' ∧ t'.isDirectory l.receipts = true := by
  have hparent := parent?_receipt l r.package
  have hconfines : Confines base (fun _ => False) (base.way l.receipts)
      (FileTree.ensureParent (l.receipt r.package)) := confines_ensureParent hparent
  have hconfined := hconfines t h.working
  rw [hr] at hconfined
  have hdirectory := isDirectory_of_ensureParent hparent (text_receipts l) hr
  refine ⟨⟨hconfined.working.trans h.working, hconfined.keyed h.keyed, .inl hdirectory,
    fun file => ?_, h.fits⟩, hdirectory⟩
  rw [← h.files file]
  refine (hconfined.outside _ id).resolve_right fun hc => ha _ hc.1 ?_
  rw [List.dropLast_concat]

theorem Kept.writeText (h : Kept l base rs t) (hd : t.isDirectory l.receipts = true)
    (hr : (Tree.writeText (l.receipt r.package) r.render).run.run t = (.ok (), t')) :
    Kept l base (rs ++ [r]) t' := by
  rw [Tree.writeText, run_writeContents] at hr
  split at hr
  · cases hr
  · rename_i place mode hw
    obtain ⟨-, rfl⟩ := Prod.mk.inj hr
    have hplace : place = base.lexicalPlace l.receipts ++ [receiptFile r.package] := by
      rw [(writable?_ok hw).1, lexicalPlace_congr h.working, lexicalPlace_receipt]
    have hmode : mode.getD modeOfNewFile = modeOfNewFile := by
      cases mode with
      | none => rfl
      | some mode =>
        obtain ⟨contents, hold⟩ := mode_of_writable? hw
        rw [hplace, h.files] at hold
        obtain ⟨old, -, he⟩ := Option.map_eq_some_iff.1 hold
        exact (Entry.file.inj he).2.symm
    have hgrown := grown_put_file (writable?_ok hw).2 (.text r.render) (mode.getD modeOfNewFile)
    refine ⟨h.working, h.keyed.put _ _, .inl (isDirectory_of_grown hgrown hd), fun file => ?_,
      fun other ho => ?_⟩
    · rw [hmode, at?_put, hplace, lastIn?_concat]
      by_cases he : receiptFile r.package = file
      · rw [if_pos (by simp [he]), if_pos he]
        rfl
      · rw [if_neg (by simp [Ne.symm he]), if_neg he, h.files]
    · rcases List.mem_append.1 ho with ho | ho
      · exact h.fits other ho
      · rw [List.mem_singleton.1 ho]
        exact (of_locate_join (isName_receiptFile r.package) (locate_of_writable? hw)).1

theorem Kept.record (h : Kept l base rs t)
    (ha : ∀ place ∈ base.way l.receipts, place.dropLast ≠ base.lexicalPlace l.receipts)
    (hr : (record l r).run.run t = (.ok (), t')) : Kept l base (rs ++ [r]) t' := by
  unfold History.record at hr
  rw [run_bind] at hr
  rcases hmade : (FileTree.ensureParent (l.receipt r.package)).run.run t with ⟨_ | _, made⟩
  · rw [hmade] at hr
    cases hr
  · rw [hmade] at hr
    obtain ⟨hkept, hdirectory⟩ := h.ensureParent ha hmade
    exact hkept.writeText hdirectory (run_on_eq_ok.1 hr)

theorem Kept.recordAll {more : List Receipt} (h : Kept l base rs t)
    (ha : ∀ place ∈ base.way l.receipts, place.dropLast ≠ base.lexicalPlace l.receipts)
    (hr : (recordAll l more).run.run t = (.ok (), t')) : Kept l base (rs ++ more) t' := by
  induction more generalizing rs t with
  | nil =>
    obtain ⟨-, rfl⟩ := Prod.mk.inj hr
    rw [List.append_nil]
    exact h
  | cons r more ih =>
    change (History.record l r >>= fun _ => History.recordAll l more).run.run t = _ at hr
    rw [run_bind] at hr
    rcases hfirst : (History.record l r).run.run t with ⟨_ | _, next⟩
    · rw [hfirst] at hr
      cases hr
    · rw [hfirst] at hr
      rw [List.append_cons]
      exact ih (h.record ha hfirst) hr

theorem kept_of_recordAll (hb : Blank l t) (h : (recordAll l rs).run.run t = (.ok (), t')) :
    Kept l t rs t' :=
  (kept_of_blank hb).recordAll hb.aside h

end Patchboard.History
