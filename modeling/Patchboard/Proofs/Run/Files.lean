import Patchboard.Proofs.Path.Names
import Patchboard.Proofs.Run.Records
import Patchboard.Proofs.Tree.Filing

set_option autoImplicit false

namespace Patchboard.Run
open Path Tree StateLayout

variable {l : StateLayout} {base t u : Tree} {m : RunMetadata} {run name : String}

theorem isName_runFile {suffix : String} (hr : '/' ∉ run.toList) (hs : '/' ∉ suffix.toList)
    (hl : 3 ≤ suffix.toList.length) : IsName (run ++ suffix) := by
  rw [← String.ofList_toList (s := run ++ suffix), String.toList_append]
  refine isName_of_long ?_ ?_
  · rw [List.mem_append, not_or]
    exact ⟨hr, hs⟩
  · rw [List.length_append]
    omega

theorem runFile_ne {file suffix : String} {c d : Char} (hf : file.toList.getLast? = some c)
    (hs : suffix.toList.getLast? = some d) (hc : c ≠ d) (run : String) : file ≠ run ++ suffix := by
  rintro rfl
  rw [String.toList_append, List.getLast?_append, hs] at hf
  exact hc (Option.some.inj hf).symm

theorem marker_ne_metadata (run : String) : "active" ≠ run ++ ".json" :=
  runFile_ne (c := 'e') (d := 'n') rfl rfl (by decide) run

theorem marker_ne_journal (run : String) : "active" ≠ run ++ ".journal" :=
  runFile_ne (c := 'e') (d := 'l') rfl rfl (by decide) run

theorem metadata_ne_journal (run other : String) : run ++ ".json" ≠ other ++ ".journal" := by
  have hlast : (run ++ ".json").toList.getLast? = some 'n' := by
    rw [String.toList_append, List.getLast?_append]
    rfl
  exact runFile_ne (d := 'l') hlast rfl (by decide) other

theorem runFile_inj {run other suffix : String} :
    run ++ suffix = other ++ suffix ↔ run = other := by
  rw [← String.toList_inj, String.toList_append, String.toList_append, List.append_cancel_right_eq,
    String.toList_inj]

def fileAt (l : StateLayout) (t : Tree) (name : String) : Place := t.lexicalPlace l.runs ++ [name]

theorem fileAt_congr (h : u.working = base.working) (name : String) :
    fileAt l u name = fileAt l base name := by
  rw [fileAt, fileAt, lexicalPlace_congr h]

theorem fileAt_ne_nil (l : StateLayout) (u : Tree) (name : String) : fileAt l u name ≠ [] := by
  simp [fileAt]

theorem name_eq_of_fileAt {other : String} (h : fileAt l u name <+: fileAt l u other) :
    name = other := by
  unfold fileAt at h
  rw [List.prefix_append_right_inj] at h
  exact List.singleton_injective (h.eq_of_length rfl)

theorem at?_put_other {other : String} (h : other ≠ name) (entry : Entry) :
    (u.put (fileAt l u name) entry).at? (fileAt l (u.put (fileAt l u name) entry) other) =
      u.at? (fileAt l u other) := by
  refine (at?_put ..).trans (if_neg ?_)
  rintro ⟨he, -⟩
  have hsame : fileAt l u other = fileAt l u name := he
  have habove : fileAt l u other <+: fileAt l u name := by rw [hsame]
  exact h (name_eq_of_fileAt habove)

theorem at?_put_self (entry : Entry) :
    (u.put (fileAt l u name) entry).at? (fileAt l u name) = some entry :=
  (at?_put ..).trans (if_pos ⟨rfl, fileAt_ne_nil l u name⟩)

theorem isDirectory_put_file (hd : u.isDirectory l.runs = true)
    (hx : ∀ mode, u.at? (fileAt l u name) ≠ some (.directory mode)) (contents : Contents)
    (mode : Nat) : (u.put (fileAt l u name) (.file contents mode)).isDirectory l.runs = true := by
  have hlook : u.look (fileAt l u name) ≠ some (.directory 0) := by
    intro hlook
    obtain ⟨mode, ha⟩ := at?_of_look_directory hlook
    exact hx mode ha
  exact isDirectory_of_grown (grown_put_file hlook contents mode) hd

theorem endsSolid_runs (l : StateLayout) : l.runs.EndsSolid := endsSolid_join isName_runs l.root

theorem fits_of_readMetadata (hid : '/' ∉ run.toList)
    (hr : (readMetadata l run).run.run t = (.ok (some m), u)) : Fits l.runs (run ++ ".json") := by
  unfold readMetadata at hr
  dsimp only at hr
  obtain ⟨found, v, hread, hr⟩ := run_bind_eq_ok.1 hr
  cases found with
  | none => cases hr
  | some raw =>
    unfold readIfThere at hread
    rw [run_bind, run_get] at hread
    dsimp only at hread
    cases ht : t.text? (l.metadata run) with
    | ok s => exact fits_of_text? (isName_runFile hid (by decide) (by decide)) ht
    | error e =>
      rw [ht] at hread
      cases e <;> cases hread

section
variable (hd : t.isDirectory l.runs = true)
include hd

theorem run_claim (hf : Fits l.runs "active") (ha : t.at? (fileAt l t "active") = none)
    (run : String) : ∃ mode, (claim l run).run.run t =
      (.ok l.activeMarker, t.put (fileAt l t "active") (.file (.text (run ++ "\n")) mode)) := by
  have hprepare : (prepare l).run.run t = (.ok (), t) :=
    run_ensureParent isName_active (endsSolid_runs l) hd
  obtain ⟨mode, hnew⟩ := run_createNew isName_active hf (enters_of_isDirectory hd) ha
  have hcreate : (create l).run.run t = (.ok (fileAt l t "active"),
      t.put (fileAt l t "active") (.file (.text "") mode)) := by
    unfold create
    rw [run_bind, run_get]
    dsimp only
    rw [activeMarker_eq, hnew]
    rfl
  have hfill : (fill l (fileAt l t "active") run none).run.run
      (t.put (fileAt l t "active") (.file (.text "") mode)) =
        (.ok (), t.put (fileAt l t "active") (.file (.text (run ++ "\n")) mode)) := by
    unfold fill
    rw [run_on_eq_ok, run_writeOpened (at?_put_self _), put_put]
    rfl
  refine ⟨mode, ?_⟩
  unfold claim claimUnder
  rw [run_bind, hprepare]
  dsimp only
  rw [run_bind, hcreate]
  dsimp only
  rw [run_bind]
  dsimp only [Faults.none]
  rw [hfill]
  rfl

theorem run_clear (hf : Fits l.runs "active") {contents : Contents} {mode : Nat}
    (ha : t.at? (fileAt l t "active") = some (.file contents mode)) :
    (clear l).run.run t = (.ok (), t.removeBelow (fileAt l t "active")) := by
  have he := enters_of_isDirectory hd
  have hthere : t.pathExists l.activeMarker = true :=
    (pathExists_join_iff isName_active).2 ⟨hf, he, by
      unfold fileAt at ha
      rw [ha]
      rfl⟩
  unfold clear look
  rw [run_bind, run_bind, run_get]
  dsimp only
  rw [run_pure]
  dsimp only
  rw [if_pos hthere, remove, run_on_eq_ok, activeMarker_eq]
  exact run_removeFile isName_active hf he ha

section
variable (hn : IsName (run ++ ".json")) (hf : Fits l.runs (run ++ ".json"))
include hn hf

theorem run_writeMetadata (hr : m.run = run)
    (hx : ∀ mode, t.at? (fileAt l t (run ++ ".json")) ≠ some (.directory mode)) :
    ∃ mode, (writeMetadata l m).run.run t = (.ok (l.metadata run),
      t.put (fileAt l t (run ++ ".json")) (.file (.text m.json.renderIndented) mode)) := by
  obtain ⟨mode, hwrite⟩ :=
    run_writeText_file hn hf (enters_of_isDirectory hd) m.json.renderIndented hx
  refine ⟨mode, ?_⟩
  subst hr
  unfold writeMetadata StateLayout.metadata
  dsimp only
  rw [run_bind, run_ensureParent hn (endsSolid_runs l) hd]
  dsimp only
  rw [run_bind, run_on_eq_ok.2 hwrite]
  rfl

theorem run_readMetadata (hs : m.Sized) {mode : Nat} (ha : t.at? (fileAt l t (run ++ ".json")) =
      some (.file (.text m.json.renderIndented) mode)) :
    (readMetadata l run).run.run t = (.ok (some m), t) := by
  have htext := text?_file hn hf (enters_of_isDirectory hd) ha
  have hread := RunMetadata.read_renderIndented hs
  unfold readMetadata readIfThere StateLayout.metadata
  dsimp only
  rw [run_bind, run_bind, run_get]
  dsimp only
  rw [htext]
  dsimp only
  rw [run_pure]
  dsimp only
  rw [hread]
  rfl

theorem run_updateStatus (hr : m.run = run) (hs : m.Sized) {mode : Nat}
    (ha : t.at? (fileAt l t (run ++ ".json")) = some (.file (.text m.json.renderIndented) mode))
    (status : String) : ∃ mode, (updateStatus l run status).run.run t = (.ok (),
      t.put (fileAt l t (run ++ ".json"))
        (.file (.text { m with status }.json.renderIndented) mode)) := by
  obtain ⟨mode, hwrite⟩ :=
    run_writeMetadata hd hn hf (m := { m with status }) hr (by simp [ha])
  refine ⟨mode, ?_⟩
  unfold updateStatus
  rw [run_bind, run_readMetadata hd hn hf hs ha]
  dsimp only
  rw [run_bind, hwrite]
  rfl

end

def Journals (l : StateLayout) (run : String) (entries : List JournalEntry) (t : Tree) : Prop :=
  (t.at? (fileAt l t (run ++ ".journal")) = none ∧ entries = []) ∨
    ∃ mode, t.at? (fileAt l t (run ++ ".journal")) =
      some (.file (.text (journalText entries)) mode)

theorem run_readJournal_nameTooLong (hn : IsName (run ++ ".journal"))
    (hp : (l.journal run).text.utf8ByteSize ≤ pathLimit) (hz : '\x00' ∉ (run ++ ".journal").toList)
    (hl : nameLimit < (run ++ ".journal").utf8ByteSize) : (readJournal l run).run.run t =
      (.error ⟨["failed to read run journal: " ++ (l.journal run).text], .file .nameTooLong⟩, t) := by
  have htext : t.text? (l.journal run) = .error .nameTooLong :=
    text?_nameTooLong hn (enters_of_isDirectory hd) hp hz hl
  unfold readJournal readIfThere
  dsimp only
  rw [run_bind, run_bind, run_get]
  dsimp only
  rw [htext]
  rfl

section
variable (hn : IsName (run ++ ".journal")) (hf : Fits l.runs (run ++ ".journal"))
include hn hf

theorem run_appendJournal {entries : List JournalEntry} (hj : Journals l run entries t)
    (e : JournalEntry) : ∃ mode, (appendJournal l run e).run.run t = (.ok (l.journal run),
      t.put (fileAt l t (run ++ ".journal"))
        (.file (.text (journalText (entries ++ [e]))) mode)) := by
  have hold : (t.at? (fileAt l t (run ++ ".journal")) = none ∧ journalText entries = "") ∨
      ∃ mode, t.at? (fileAt l t (run ++ ".journal")) =
        some (.file (.text (journalText entries)) mode) :=
    hj.imp_left fun ⟨ha, he⟩ => ⟨ha, by rw [he]; rfl⟩
  obtain ⟨mode, hwrite⟩ := run_appendText hn hf (enters_of_isDirectory hd)
    (e.json.render ++ "\n") hold
  refine ⟨mode, ?_⟩
  rw [journalText_concat]
  unfold appendJournal StateLayout.journal
  dsimp only
  rw [run_bind, run_ensureParent hn (endsSolid_runs l) hd]
  dsimp only
  rw [run_bind, run_on_eq_ok.2 hwrite]
  rfl

theorem run_readJournal {entries : List JournalEntry} (hj : Journals l run entries t)
    (hs : ∀ e ∈ entries, e.seq < UInt64.size) :
    (readJournal l run).run.run t = (.ok entries, t) := by
  have he := enters_of_isDirectory hd
  unfold readJournal readIfThere StateLayout.journal
  dsimp only
  rw [run_bind, run_bind, run_get]
  dsimp only
  rcases hj with ⟨ha, rfl⟩ | ⟨mode, ha⟩
  · rw [text?_absent hn hf he ha]
    rfl
  · rw [text?_file hn hf he ha]
    dsimp only
    rw [run_pure]
    dsimp only
    rw [read_journalText hs]
    rfl

end

end

end Patchboard.Run
