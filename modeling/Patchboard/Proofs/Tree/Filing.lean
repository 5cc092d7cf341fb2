import Patchboard.Proofs.State.Base
import Patchboard.Proofs.Tree.Writing

set_option autoImplicit false

namespace Patchboard.Tree
open Path

variable {base t : Tree} {d : Path} {name : String}

theorem Enters.of_way (h : base.Enters d) (hw : t.working = base.working)
    (hd : ∀ place ∈ base.way d, ∃ mode, t.at? place = some (.directory mode)) : t.Enters d := by
  have hwalk (segments : List (List Char)) (place goal : Place)
      (hb : base.walk place segments = .ok goal) (hs : ∀ before, before <+: segments →
        ∃ mode, t.at? (before.foldl stepInto place) = some (.directory mode)) :
      t.walk place segments = .ok goal := by
    induction segments generalizing place with
    | nil => exact hb
    | cons s segments ih =>
      obtain ⟨mode, hplace⟩ := hs [] List.nil_prefix
      rw [List.foldl_nil] at hplace
      rw [walk] at hb ⊢
      rw [hplace]
      dsimp only
      split at hb
      · cases hb
      · cases hb
      · split at hb
        · cases hb
        · rename_i hname
          rw [if_neg hname]
          exact ih _ hb fun before hbefore =>
            hs (s :: before) (List.cons_prefix_cons.2 ⟨rfl, hbefore⟩)
  have horigin : t.origin d = base.origin d := by rw [origin, origin, hw]
  refine ⟨h.null, ?_, ?_⟩
  · rw [horigin, lexicalPlace_congr hw]
    refine hwalk _ _ _ h.walked fun before hb => hd _ (mem_way.2 ⟨_, ?_, (foldl_stepInto ..).symm⟩)
    rw [← filter_route]
    exact hb.filter _
  · rw [lexicalPlace_congr hw]
    exact hd _ (lexicalPlace_mem_way base d)

theorem run_ensureParent (hn : IsName name) (hs : d.EndsSolid) (hd : t.isDirectory d = true) :
    (FileTree.ensureParent (d.join ⟨name⟩)).run.run t = (.ok (), t) := by
  unfold FileTree.ensureParent
  rw [parent?_join hn hs]
  exact StateLayout.run_ensure hd

theorem text?_missing (hn : IsName name) (hf : Fits d name) (he : d.text.isEmpty = false)
    (h : t.find d = .error .notFound) : t.text? (d.join ⟨name⟩) = .error .notFound := by
  unfold text? contents? find
  rw [locate_join_of_absent hn hf he h]

theorem text?_nameTooLong (hn : IsName name) (he : t.Enters d)
    (hp : (d.join ⟨name⟩).text.utf8ByteSize ≤ pathLimit) (hz : '\x00' ∉ name.toList)
    (hl : nameLimit < name.utf8ByteSize) : t.text? (d.join ⟨name⟩) = .error .nameTooLong := by
  have hnull : ¬(d.join ⟨name⟩).chars.contains '\x00' = true := by
    rw [List.contains_iff_mem, null_mem_join hn.piece, not_or]
    exact ⟨he.null, hz⟩
  have hwalk : t.walk (t.origin (d.join ⟨name⟩)) (route (d.join ⟨name⟩)) = .error .nameTooLong := by
    obtain ⟨mode, hd⟩ := he.directory
    rw [walk_join hn.piece, he.walked]
    dsimp only
    rw [walk_name hn, hd]
    exact if_pos hl
  have hlocate : t.locate (d.join ⟨name⟩) = .error .nameTooLong := by
    unfold locate
    rw [if_neg hnull, text_join hn.piece, if_neg Bool.false_ne_true, if_neg (Nat.not_lt.2 hp)]
    exact hwalk
  unfold text? contents? find
  rw [hlocate]

theorem of_writeText (hn : IsName name) {s : String} {t' : Tree}
    (h : (writeText (d.join ⟨name⟩) s).run.run t = (.ok (), t')) : Fits d name ∧
      ∃ mode, t' = t.put (t.lexicalPlace d ++ [name]) (.file (.text s) mode) := by
  rw [writeText, run_writeContents] at h
  split at h
  · cases h
  · rename_i place mode hw
    obtain ⟨hf, -, rfl⟩ := (locate_join_iff hn).1 (locate_of_writable? hw)
    exact ⟨hf, _, (Prod.mk.inj h).2.symm⟩

theorem fits_of_appendText (hn : IsName name) {s : String} {t' : Tree}
    (h : (appendText (d.join ⟨name⟩) s).run.run t = (.ok (), t')) : Fits d name := by
  unfold appendText at h
  obtain ⟨⟨place, mode⟩, u, hw, -⟩ := run_bind_eq_ok.1 h
  rw [run_ask] at hw
  exact ((locate_join_iff hn).1 (locate_of_writable? (Prod.mk.inj hw).1)).1

theorem fits_of_text? (hn : IsName name) {s : String} (h : t.text? (d.join ⟨name⟩) = .ok s) :
    Fits d name := by
  unfold text? contents? at h
  cases hf : t.find (d.join ⟨name⟩) with
  | error e =>
    rw [hf] at h
    cases h
  | ok found => exact ((locate_join_iff hn).1 (find_ok hf).1).1

section
variable (hn : IsName name) (hf : Fits d name) (he : t.Enters d)
include hn hf he

theorem locate_file : t.locate (d.join ⟨name⟩) = .ok (t.lexicalPlace d ++ [name]) :=
  (locate_join_iff hn).2 ⟨hf, he, rfl⟩

theorem find_file {entry : Entry} (ha : t.at? (t.lexicalPlace d ++ [name]) = some entry) :
    t.find (d.join ⟨name⟩) = .ok (t.lexicalPlace d ++ [name], entry) := by
  unfold find
  rw [locate_file hn hf he]
  dsimp only
  rw [ha, endsInSeparator_join hn]
  rfl

theorem text?_file {s : String} {mode : Nat}
    (ha : t.at? (t.lexicalPlace d ++ [name]) = some (.file (.text s) mode)) :
    t.text? (d.join ⟨name⟩) = .ok s := by
  unfold text? contents?
  rw [find_file hn hf he ha]

theorem text?_absent (ha : t.at? (t.lexicalPlace d ++ [name]) = none) :
    t.text? (d.join ⟨name⟩) = .error .notFound := by
  unfold text? contents? find
  rw [locate_file hn hf he]
  dsimp only
  rw [ha]

theorem writable?_file
    (hx : ∀ mode, t.at? (t.lexicalPlace d ++ [name]) ≠ some (.directory mode)) :
    ∃ mode, t.writable? (d.join ⟨name⟩) = .ok (t.lexicalPlace d ++ [name], mode) := by
  have hlast := getLast?_route_join hn.piece d
  have hname : endsInName (d.join ⟨name⟩) = true := by
    have hdot : name.toList ≠ ['.'] := by
      intro heq
      have hsolid := hn.solid
      rw [heq] at hsolid
      cases hsolid
    unfold endsInName
    rw [hlast]
    simp [hdot, hn.forth]
  unfold writable?
  rw [locate_file hn hf he]
  dsimp only
  rw [endsInSeparator_join hn, hname]
  cases ha : t.at? (t.lexicalPlace d ++ [name]) with
  | none => exact ⟨none, rfl⟩
  | some entry =>
    cases entry with
    | directory mode => exact absurd ha (hx mode)
    | file contents mode => exact ⟨some mode, rfl⟩

theorem run_writeText_file (s : String)
    (hx : ∀ mode, t.at? (t.lexicalPlace d ++ [name]) ≠ some (.directory mode)) :
    ∃ mode, (writeText (d.join ⟨name⟩) s).run.run t =
      (.ok (), t.put (t.lexicalPlace d ++ [name]) (.file (.text s) mode)) := by
  obtain ⟨mode, hw⟩ := writable?_file hn hf he hx
  rw [writeText, run_writeContents, hw]
  exact ⟨_, rfl⟩

theorem run_createNew (ha : t.at? (t.lexicalPlace d ++ [name]) = none) :
    ∃ mode, (createNew (d.join ⟨name⟩)).run.run t = (.ok (t.lexicalPlace d ++ [name]),
      t.put (t.lexicalPlace d ++ [name]) (.file (.text "") mode)) := by
  obtain ⟨mode, hwrite⟩ := run_writeText_file hn hf he "" (by simp [ha])
  refine ⟨mode, ?_⟩
  unfold createNew
  rw [run_bind, run_ask, locate_file hn hf he]
  dsimp only
  rw [run_bind, run_get]
  dsimp only
  rw [ha, if_neg (by simp), run_bind, hwrite]
  rfl

theorem run_appendText {old : String} (s : String)
    (ha : (t.at? (t.lexicalPlace d ++ [name]) = none ∧ old = "") ∨
      ∃ mode, t.at? (t.lexicalPlace d ++ [name]) = some (.file (.text old) mode)) :
    ∃ mode, (appendText (d.join ⟨name⟩) s).run.run t =
      (.ok (), t.put (t.lexicalPlace d ++ [name]) (.file (.text (old ++ s)) mode)) := by
  have hx : ∀ mode, t.at? (t.lexicalPlace d ++ [name]) ≠ some (.directory mode) := by
    rcases ha with ⟨ha, -⟩ | ⟨mode, ha⟩ <;> simp [ha]
  obtain ⟨mode, hw⟩ := writable?_file hn hf he hx
  obtain ⟨mode', hwrite⟩ := run_writeText_file hn hf he (old ++ s) hx
  refine ⟨mode', ?_⟩
  unfold appendText
  rw [run_bind, run_ask, hw]
  dsimp only
  rw [run_bind, run_get]
  dsimp only
  rcases ha with ⟨ha, rfl⟩ | ⟨mode, ha⟩ <;> rw [ha] <;> exact hwrite

theorem run_removeFile {contents : Contents} {mode : Nat}
    (ha : t.at? (t.lexicalPlace d ++ [name]) = some (.file contents mode)) :
    (removeFile (d.join ⟨name⟩)).run.run t =
      (.ok (), t.removeBelow (t.lexicalPlace d ++ [name])) := by
  unfold removeFile
  rw [run_bind, run_ask, find_file hn hf he ha]
  rfl

end

end Patchboard.Tree
