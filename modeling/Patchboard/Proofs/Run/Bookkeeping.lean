import Patchboard.Proofs.Run.Files
import Patchboard.Proofs.Tree.Listing

set_option autoImplicit false

/-!
What is on disk after calls that write about runs, in any order and about any of them: for each run
the metadata that was written last, with the status that was reported last, and the entries of its
journal. The files of a run are its own, so what is read for it depends on the calls about it only.
-/

namespace Patchboard.Run
open Path Tree StateLayout

/-- A call that writes about a run. -/
inductive Call where
  | write (m : RunMetadata)
  | update (run status : String)
  | append (run : String) (e : JournalEntry)

namespace Call

/-- The run that a call is about. -/
def run : Call → String
  | write m => m.run
  | update run _ => run
  | append run _ => run

/-- The name of the file that a call writes. -/
def file : Call → String
  | write m => m.run ++ ".json"
  | update run _ => run ++ ".json"
  | append run _ => run ++ ".journal"

/-- The numbers are below the bounds that reading puts on them. -/
def Sized : Call → Prop
  | write m => m.Sized
  | update _ _ => True
  | append _ e => e.seq < UInt64.size

def perform (l : StateLayout) : Call → Job Unit
  | write m => do
    let _ ← writeMetadata l m
    return ()
  | update run status => updateStatus l run status
  | append run e => do
    let _ ← appendJournal l run e
    return ()

/-- The metadata of a run after a call about it. -/
def settle (m : Option RunMetadata) : Call → Option RunMetadata
  | write new => some new
  | update _ status => m.map fun m => { m with status }
  | append _ _ => m

theorem isName_file (c : Call) (h : '/' ∉ c.run.toList) : IsName c.file := by
  cases c with
  | write m => exact isName_runFile h (by decide) (by decide)
  | update run status => exact isName_runFile h (by decide) (by decide)
  | append run e => exact isName_runFile h (by decide) (by decide)

theorem ne_file {run : String} {c : Call} (h : c.run ≠ run) :
    run ++ ".json" ≠ c.file ∧ run ++ ".journal" ≠ c.file := by
  cases c with
  | write m => exact ⟨fun he => h (runFile_inj.1 he).symm, (metadata_ne_journal _ _).symm⟩
  | update other status => exact ⟨fun he => h (runFile_inj.1 he).symm, (metadata_ne_journal _ _).symm⟩
  | append other e => exact ⟨metadata_ne_journal _ _, fun he => h (runFile_inj.1 he).symm⟩

def entry? : Call → Option JournalEntry
  | append _ e => some e
  | _ => none

def status? : Call → Option String
  | update _ status => some status
  | _ => none

end Call

/-- Calls made one after the other. -/
def performAll (l : StateLayout) (calls : List Call) : Job Unit := calls.forM (Call.perform l)

/-- The calls about a run. -/
def own (run : String) (calls : List Call) : List Call := calls.filter fun c => c.run = run

variable {l : StateLayout} {base t t' made : Tree} {m : RunMetadata} {run name : String}
  {calls more : List Call} {c : Call}

theorem own_concat (run : String) (calls : List Call) (c : Call) :
    own run (calls ++ [c]) = own run calls ++ if c.run = run then [c] else [] := by
  rw [own, List.filter_append]
  by_cases h : c.run = run <;> simp [own, h]

def lastMetadata? (calls : List Call) : Option RunMetadata := calls.foldl Call.settle none

theorem lastMetadata?_own_concat (run : String) (calls : List Call) (c : Call) :
    lastMetadata? (own run (calls ++ [c])) =
      if c.run = run then c.settle (lastMetadata? (own run calls))
      else lastMetadata? (own run calls) := by
  rw [own_concat, lastMetadata?, List.foldl_append]
  split <;> rfl

theorem lastMetadata?_of_no_write (h : ∀ m, Call.write m ∉ calls) : lastMetadata? calls = none := by
  unfold lastMetadata?
  induction calls with
  | nil => rfl
  | cons c calls ih =>
    have hnone : Call.settle none c = none := by
      cases c with
      | write m => exact absurd (List.mem_cons_self ..) (h m)
      | update run status => rfl
      | append run e => rfl
    rw [List.foldl_cons, hnone]
    exact ih fun m hm => h m (List.mem_cons_of_mem _ hm)

theorem lastMetadata?_of_write {before after : List Call} (h : ∀ m, Call.write m ∉ after)
    (m : RunMetadata) : lastMetadata? (before ++ Call.write m :: after) =
      some { m with status := (after.filterMap Call.status?).getLast?.getD m.status } := by
  rw [lastMetadata?, List.foldl_append, List.foldl_cons, Call.settle]
  clear before
  induction after generalizing m with
  | nil => rfl
  | cons c after ih =>
    have hrest : ∀ m, Call.write m ∉ after := fun m hm => h m (List.mem_cons_of_mem _ hm)
    rw [List.foldl_cons]
    cases c with
    | write new => exact absurd (List.mem_cons_self ..) (h new)
    | update run status =>
      have hstatus : (Call.update run status).status? = some status := rfl
      rw [Call.settle, Option.map_some, ih hrest, List.filterMap_cons_some hstatus,
        List.getLast?_cons, Option.getD_some]
    | append run e =>
      have hstatus : (Call.append run e).status? = none := rfl
      rw [Call.settle, ih hrest, List.filterMap_cons_none hstatus]

/-- Nothing is known of any run: nothing stands in the directory of runs, which may be missing.
While the state directory is missing, too, no directory that is made for it would stand there. -/
structure Blank (l : StateLayout) (t : Tree) : Prop where
  reach : t.isDirectory l.runs = true ∨ t.find l.runs = .error .notFound
  empty : t.names (t.lexicalPlace l.runs) = []
  aside : t.isDirectory l.root = true ∨
    ∀ place ∈ t.way l.runs, place.dropLast ≠ t.lexicalPlace l.runs

instance (l : StateLayout) (t : Tree) : Decidable (Blank l t) :=
  decidable_of_iff ((t.isDirectory l.runs = true ∨ t.find l.runs = .error .notFound) ∧
      t.names (t.lexicalPlace l.runs) = [] ∧ (t.isDirectory l.root = true ∨
        ∀ place ∈ t.way l.runs, place.dropLast ≠ t.lexicalPlace l.runs))
    ⟨fun h => ⟨h.1, h.2.1, h.2.2⟩, fun h => ⟨h.reach, h.empty, h.aside⟩⟩

theorem Blank.absent (h : Blank l t) (name : String) : t.at? (fileAt l t name) = none := by
  have hnone : name ∉ t.names (t.lexicalPlace l.runs) := by simp [h.empty]
  rwa [mem_names, Option.not_isSome_iff_eq_none] at hnone

theorem Blank.apart (h : Blank l t) :
    ∀ place ∈ t.way l.runs, place.dropLast ≠ t.lexicalPlace l.runs := by
  refine h.aside.elim (fun hd place hp he => ?_) id
  rcases (mem_way_join isName_runs).1 hp with hp | rfl
  · obtain ⟨mode, ha⟩ := directory_of_mem_way (enters_of_isDirectory hd) hp
    rcases List.eq_nil_or_concat place with rfl | ⟨above, name, rfl⟩
    · rw [lexicalPlace_runs] at he
      exact List.append_ne_nil_of_right_ne_nil _ (by simp) he.symm
    · rw [List.concat_eq_append, List.dropLast_concat] at he
      rw [List.concat_eq_append, he] at ha
      cases (h.absent name).symm.trans ha
  · rw [lexicalPlace_runs, List.dropLast_concat] at he
    simp at he

def Describes (l : StateLayout) (run : String) (m : Option RunMetadata) (t : Tree) : Prop :=
  match m with
  | none => t.at? (fileAt l t (run ++ ".json")) = none
  | some m => m.run = run ∧ m.Sized ∧
    ∃ mode, t.at? (fileAt l t (run ++ ".json")) = some (.file (.text m.json.renderIndented) mode)

structure Booked (l : StateLayout) (base : Tree) (calls : List Call) (t : Tree) : Prop where
  working : t.working = base.working
  reach : t.isDirectory l.runs = true ∨ calls = [] ∧ t.find l.runs = .error .notFound
  metadata : ∀ run, Describes l run (lastMetadata? (own run calls)) t
  journal : ∀ run, Journals l run ((own run calls).filterMap Call.entry?) t
  sized : ∀ c ∈ calls, c.Sized
  fits : ∀ c ∈ calls, Fits l.runs c.file

theorem booked_of_blank (h : Blank l t) : Booked l t [] t where
  working := rfl
  reach := h.reach.imp_right fun hf => ⟨rfl, hf⟩
  metadata run := h.absent (run ++ ".json")
  journal run := .inl ⟨h.absent (run ++ ".journal"), rfl⟩
  sized := by simp
  fits := by simp

theorem Describes.congr {m : Option RunMetadata} (h : Describes l run m t)
    (ha : t'.at? (fileAt l t' (run ++ ".json")) = t.at? (fileAt l t (run ++ ".json"))) :
    Describes l run m t' := by
  unfold Describes at h ⊢
  rwa [ha]

theorem Journals.congr {entries : List JournalEntry} (h : Journals l run entries t)
    (ha : t'.at? (fileAt l t' (run ++ ".journal")) = t.at? (fileAt l t (run ++ ".journal"))) :
    Journals l run entries t' := by
  unfold Journals at h ⊢
  rwa [ha]

section
variable (h : Booked l base calls t)
include h

theorem Booked.prepare (ha : ∀ place ∈ base.way l.runs, place.dropLast ≠ base.lexicalPlace l.runs)
    (hn : IsName name)
    (hmade : (FileTree.ensureParent (l.runs.join ⟨name⟩)).run.run t = (.ok (), made)) :
    Booked l base calls made ∧ made.isDirectory l.runs = true := by
  have hparent : (l.runs.join ⟨name⟩).parent? = some l.runs := parent?_join hn (endsSolid_runs l)
  have hconfined : Confined (fun _ => False) (base.way l.runs) t
      ((FileTree.ensureParent (l.runs.join ⟨name⟩)).run.run t).2 :=
    confines_ensureParent hparent t h.working
  rw [hmade] at hconfined
  have hdirectory := isDirectory_of_ensureParent hparent (text_runs l) hmade
  have hworking := hconfined.working.trans h.working
  have hfiles (file : String) :
      made.at? (fileAt l made file) = t.at? (fileAt l t file) := by
    rw [fileAt_congr hworking, fileAt_congr h.working]
    refine (hconfined.outside _ id).resolve_right fun hc => ha _ hc.1 ?_
    exact List.dropLast_concat ..
  exact ⟨⟨hworking, .inl hdirectory, fun run => (h.metadata run).congr (hfiles _),
    fun run => (h.journal run).congr (hfiles _), h.sized, h.fits⟩, hdirectory⟩

theorem Booked.no_directory (c : Call) (mode : Nat) :
    t.at? (fileAt l t c.file) ≠ some (.directory mode) := by
  have hmetadata (run : String) : t.at? (fileAt l t (run ++ ".json")) ≠ some (.directory mode) := by
    have hd := h.metadata run
    unfold Describes at hd
    split at hd
    · simp [hd]
    · obtain ⟨-, -, mode', ha⟩ := hd
      simp [ha]
  cases c with
  | write m => exact hmetadata m.run
  | update run status => exact hmetadata run
  | append run e => rcases h.journal run with ⟨ha, -⟩ | ⟨mode', ha⟩ <;> simp [Call.file, ha]

theorem Booked.put (hd : t.isDirectory l.runs = true) (hs : c.Sized) (hf : Fits l.runs c.file)
    {contents : Contents} {mode : Nat}
    (hmetadata : Describes l c.run (lastMetadata? (own c.run (calls ++ [c])))
      (t.put (fileAt l t c.file) (.file contents mode)))
    (hjournal : Journals l c.run ((own c.run (calls ++ [c])).filterMap Call.entry?)
      (t.put (fileAt l t c.file) (.file contents mode))) :
    Booked l base (calls ++ [c]) (t.put (fileAt l t c.file) (.file contents mode)) := by
  have hother {run : String} (hr : c.run ≠ run) : own run (calls ++ [c]) = own run calls := by
    rw [own_concat, if_neg hr, List.append_nil]
  have hmem {P : Call → Prop} (hall : ∀ c ∈ calls, P c) (hc : P c) :
      ∀ c' ∈ calls ++ [c], P c' := by
    intro c' hm
    rcases List.mem_append.1 hm with hm | hm
    · exact hall c' hm
    · exact List.mem_singleton.1 hm ▸ hc
  refine ⟨h.working, .inl (isDirectory_put_file hd (h.no_directory c) contents mode),
    fun run => ?_, fun run => ?_, hmem h.sized hs, hmem h.fits hf⟩
  · by_cases hr : c.run = run
    · exact hr ▸ hmetadata
    · rw [hother hr]
      exact (h.metadata run).congr (at?_put_other (Call.ne_file hr).1 _)
  · by_cases hr : c.run = run
    · exact hr ▸ hjournal
    · rw [hother hr]
      exact (h.journal run).congr (at?_put_other (Call.ne_file hr).2 _)

theorem Booked.writeMetadata (ha : ∀ place ∈ base.way l.runs, place.dropLast ≠ base.lexicalPlace l.runs)
    (hid : '/' ∉ c.run.toList) (hs : c.Sized) (hfile : c.file = c.run ++ ".json")
    (hentry : c.entry? = none) (hm : m.run = c.run) (hsized : m.Sized)
    (hlast : c.settle (lastMetadata? (own c.run calls)) = some m) {p : Path}
    (hr : (writeMetadata l m).run.run t = (.ok p, t')) : Booked l base (calls ++ [c]) t' := by
  have hn := c.isName_file hid
  have hpath : l.metadata m.run = l.runs.join ⟨c.file⟩ := by
    rw [hfile, ← hm]
    rfl
  unfold Run.writeMetadata at hr
  dsimp only at hr
  rw [hpath] at hr
  obtain ⟨⟨⟩, made, hmade, hr⟩ := run_bind_eq_ok.1 hr
  obtain ⟨hbooked, hd⟩ := h.prepare ha hn hmade
  obtain ⟨⟨⟩, u, hwrite, hr⟩ := run_bind_eq_ok.1 hr
  obtain ⟨-, rfl⟩ := Prod.mk.inj hr
  obtain ⟨hf, mode, rfl⟩ := of_writeText hn (run_on_eq_ok.1 hwrite)
  refine hbooked.put hd hs hf ?_ ?_
  · rw [lastMetadata?_own_concat, if_pos rfl, hlast]
    refine ⟨hm, hsized, mode, ?_⟩
    rw [hfile]
    exact at?_put_self _
  · rw [own_concat, if_pos rfl, List.filterMap_append, List.filterMap_cons_none hentry,
      List.filterMap_nil, List.append_nil]
    refine (hbooked.journal c.run).congr (at?_put_other ?_ _)
    rw [hfile]
    exact (metadata_ne_journal _ _).symm

theorem Booked.appendJournal
    (ha : ∀ place ∈ base.way l.runs, place.dropLast ≠ base.lexicalPlace l.runs)
    (hid : '/' ∉ run.toList) {e : JournalEntry} (hs : e.seq < UInt64.size) {p : Path}
    (hr : (appendJournal l run e).run.run t = (.ok p, t')) :
    Booked l base (calls ++ [.append run e]) t' := by
  have hn : IsName (run ++ ".journal") := (Call.append run e).isName_file hid
  unfold Run.appendJournal StateLayout.journal at hr
  dsimp only at hr
  obtain ⟨⟨⟩, made, hmade, hr⟩ := run_bind_eq_ok.1 hr
  obtain ⟨hbooked, hd⟩ := h.prepare ha hn hmade
  -- Once the directory is there, the call does what it would do if it began now.
  have hmore : (Run.appendJournal l run e).run.run made = (.ok p, t') :=
    run_bind_eq_ok.2 ⟨(), made, run_ensureParent hn (endsSolid_runs l) hd, hr⟩
  obtain ⟨⟨⟩, u, happend, -⟩ := run_bind_eq_ok.1 hr
  have hf := fits_of_appendText hn (run_on_eq_ok.1 happend)
  obtain ⟨mode, hrun⟩ := run_appendJournal hd hn hf (hbooked.journal run) e
  obtain ⟨-, rfl⟩ := Prod.mk.inj (hmore.symm.trans hrun)
  refine hbooked.put (c := .append run e) hd hs hf ?_ ?_
  · rw [lastMetadata?_own_concat, if_pos rfl]
    exact (hbooked.metadata run).congr (at?_put_other (metadata_ne_journal _ _) _)
  · rw [own_concat, if_pos rfl, List.filterMap_append]
    exact .inr ⟨mode, at?_put_self _⟩

/-- A file that the system takes the name of is not found when it is not there, or when the
directory it would be in is not. -/
theorem Booked.text?_absent (hn : IsName name) (hf : Fits l.runs name)
    (ha : t.isDirectory l.runs = true → t.at? (fileAt l t name) = none) :
    t.text? (l.runs.join ⟨name⟩) = .error .notFound := by
  rcases h.reach with hd | ⟨-, hmissing⟩
  · exact Tree.text?_absent hn hf (enters_of_isDirectory hd) (ha hd)
  · exact text?_missing hn hf (text_runs l) hmissing

theorem Booked.run_readMetadata (hid : '/' ∉ run.toList) (hf : Fits l.runs (run ++ ".json")) :
    (readMetadata l run).run.run t = (.ok (lastMetadata? (own run calls)), t) := by
  have hn : IsName (run ++ ".json") := isName_runFile hid (by decide) (by decide)
  have hd := h.metadata run
  rcases hm : lastMetadata? (own run calls) with _ | m
  · rw [hm] at hd
    have htext := h.text?_absent hn hf fun _ => hd
    unfold Run.readMetadata readIfThere StateLayout.metadata
    dsimp only
    rw [run_bind, run_bind, run_get]
    dsimp only
    rw [htext]
    rfl
  · rw [hm] at hd
    obtain ⟨-, hsized, mode, ha⟩ := hd
    have hruns : t.isDirectory l.runs = true := by
      refine h.reach.resolve_right fun hmissing => ?_
      rw [hmissing.1] at hm
      cases hm
    exact Run.run_readMetadata hruns hn hf hsized ha

theorem Booked.run_readJournal (hid : '/' ∉ run.toList) (hf : Fits l.runs (run ++ ".journal")) :
    (readJournal l run).run.run t = (.ok ((own run calls).filterMap Call.entry?), t) := by
  have hn : IsName (run ++ ".journal") := isName_runFile hid (by decide) (by decide)
  rcases h.reach with hd | ⟨rfl, hmissing⟩
  · refine Run.run_readJournal hd hn hf (h.journal run) fun e he => ?_
    obtain ⟨c, hc, hentry⟩ := List.mem_filterMap.1 he
    have hsized := h.sized c (List.mem_filter.1 hc).1
    cases c with
    | write m => cases hentry
    | update other status => cases hentry
    | append other e' =>
      cases hentry
      exact hsized
  · unfold Run.readJournal readIfThere StateLayout.journal
    dsimp only
    rw [run_bind, run_bind, run_get]
    dsimp only
    rw [text?_missing hn hf (text_runs l) hmissing]
    rfl

theorem Booked.perform (ha : ∀ place ∈ base.way l.runs, place.dropLast ≠ base.lexicalPlace l.runs)
    (hid : '/' ∉ c.run.toList) (hs : c.Sized) (hr : (c.perform l).run.run t = (.ok (), t')) :
    Booked l base (calls ++ [c]) t' := by
  cases c with
  | write m =>
    obtain ⟨p, u, hwrite, hr⟩ := run_bind_eq_ok.1 hr
    obtain ⟨-, rfl⟩ := Prod.mk.inj hr
    exact h.writeMetadata ha hid hs rfl rfl rfl hs rfl hwrite
  | update run status =>
    change '/' ∉ run.toList at hid
    obtain ⟨found, u, hread, hrest⟩ := run_bind_eq_ok.1 hr
    cases found with
    | none => cases hrest
    | some m =>
      -- The status is put into the metadata that the calls before this one have left.
      have hread' := h.run_readMetadata hid (fits_of_readMetadata hid hread)
      obtain ⟨hok, rfl⟩ := Prod.mk.inj (hread.symm.trans hread')
      have hlast : lastMetadata? (own run calls) = some m := (Except.ok.inj hok).symm
      obtain ⟨p, v, hwrite, hrest⟩ := run_bind_eq_ok.1 hrest
      obtain ⟨-, rfl⟩ := Prod.mk.inj hrest
      have hd := h.metadata run
      rw [hlast] at hd
      obtain ⟨hrun, hsized, -⟩ := hd
      exact h.writeMetadata (m := { m with status }) ha hid hs rfl rfl hrun
        ⟨hsized.version, hsized.startedAt⟩ (congrArg (Option.map _) hlast) hwrite
  | append run e =>
    obtain ⟨p, u, happend, hr⟩ := run_bind_eq_ok.1 hr
    obtain ⟨-, rfl⟩ := Prod.mk.inj hr
    exact h.appendJournal ha hid hs happend

end

theorem Booked.performAll (h : Booked l base calls t)
    (ha : ∀ place ∈ base.way l.runs, place.dropLast ≠ base.lexicalPlace l.runs)
    (hc : ∀ c ∈ more, '/' ∉ c.run.toList ∧ c.Sized)
    (hr : (performAll l more).run.run t = (.ok (), t')) : Booked l base (calls ++ more) t' := by
  induction more generalizing calls t with
  | nil =>
    obtain ⟨-, rfl⟩ := Prod.mk.inj hr
    rw [List.append_nil]
    exact h
  | cons c more ih =>
    rw [List.forall_mem_cons] at hc
    obtain ⟨⟨⟩, u, hfirst, hr⟩ := run_bind_eq_ok.1 hr
    rw [List.append_cons]
    exact ih (h.perform ha hc.1.1 hc.1.2 hfirst) hc.2 hr

/-- Metadata and journals survive the disk. For a run that metadata were written for, the last ones
are read with the status that was reported last; the entries that were appended are read in their
order. Where nothing was written, nothing is read, if the system takes the name of the file. A call
about another run does not change what is read. -/
theorem records_survive (hb : Blank l t) (hc : ∀ c ∈ calls, '/' ∉ c.run.toList ∧ c.Sized)
    (hr : (performAll l calls).run.run t = (.ok (), t')) (hid : '/' ∉ run.toList) :
    (∀ before m after, own run calls = before ++ Call.write m :: after →
      (∀ m', Call.write m' ∉ after) → (readMetadata l run).run.run t' =
        (.ok (some { m with status := (after.filterMap Call.status?).getLast?.getD m.status }), t')) ∧
    (Fits l.runs (run ++ ".json") → (∀ m, Call.write m ∉ own run calls) →
      (readMetadata l run).run.run t' = (.ok none, t')) ∧
    (Fits l.runs (run ++ ".journal") ∨ (∃ e, Call.append run e ∈ calls) →
      (readJournal l run).run.run t' = (.ok ((own run calls).filterMap Call.entry?), t')) ∧
    ∀ (c : Call) (t'' : Tree), c.run ≠ run → '/' ∉ c.run.toList → c.Sized →
      (c.perform l).run.run t' = (.ok (), t'') →
        (Fits l.runs (run ++ ".json") → ((readMetadata l run).run.run t'').1 =
          ((readMetadata l run).run.run t').1) ∧
        (Fits l.runs (run ++ ".journal") → ((readJournal l run).run.run t'').1 =
          ((readJournal l run).run.run t').1) := by
  have hbooked : Booked l t calls t' := (booked_of_blank hb).performAll hb.apart hc hr
  refine ⟨fun before m after hown hlast => ?_, fun hf hnone => ?_, fun hf => ?_,
    fun c t'' hother hslash hsized hcall => ?_⟩
  · have hmem : Call.write m ∈ own run calls := by simp [hown]
    obtain ⟨hcalls, hrun⟩ := List.mem_filter.1 hmem
    have hfits := hbooked.fits _ hcalls
    obtain rfl : m.run = run := of_decide_eq_true hrun
    rw [hbooked.run_readMetadata hid hfits, hown, lastMetadata?_of_write hlast]
  · rw [hbooked.run_readMetadata hid hf, lastMetadata?_of_no_write hnone]
  · refine hbooked.run_readJournal hid (hf.elim id ?_)
    rintro ⟨e, he⟩
    exact hbooked.fits _ he
  · have hmore := hbooked.perform hb.apart hslash hsized hcall
    have hown : own run (calls ++ [c]) = own run calls := by
      rw [own_concat, if_neg hother, List.append_nil]
    refine ⟨fun hf => ?_, fun hf => ?_⟩
    · rw [hmore.run_readMetadata hid hf, hbooked.run_readMetadata hid hf, hown]
    · rw [hmore.run_readJournal hid hf, hbooked.run_readJournal hid hf, hown]

/-- The status of one run is reported after another run was written about. -/
theorem records_survive_two : ∃ (a b : RunMetadata) (e : JournalEntry) (t' : Tree),
    a = ⟨1, "a", "p:q", "install", "running", 5, none⟩ ∧
    b = ⟨1, "b\n", "p", "install", "running", 6, some "f"⟩ ∧
    e = ⟨1, "say \"\n\"", "./x", "saved"⟩ ∧
    (performAll ⟨⟨"/s"⟩⟩ [.write a, .append "a" e, .write b, .update "a" "done\n"]).run.run
      ⟨[], []⟩ = (.ok (), t') ∧
    (readMetadata ⟨⟨"/s"⟩⟩ "a").run.run t' = (.ok (some { a with status := "done\n" }), t') ∧
    (readJournal ⟨⟨"/s"⟩⟩ "a").run.run t' = (.ok [e], t') ∧
    (readMetadata ⟨⟨"/s"⟩⟩ "c").run.run t' = (.ok none, t') := by
  obtain ⟨a, ha⟩ : ∃ a : RunMetadata, a = ⟨1, "a", "p:q", "install", "running", 5, none⟩ :=
    ⟨_, rfl⟩
  obtain ⟨b, hb⟩ : ∃ b : RunMetadata, b = ⟨1, "b\n", "p", "install", "running", 6, some "f"⟩ :=
    ⟨_, rfl⟩
  obtain ⟨e, he⟩ : ∃ e : JournalEntry, e = ⟨1, "say \"\n\"", "./x", "saved"⟩ := ⟨_, rfl⟩
  obtain ⟨calls, hcalls⟩ : ∃ calls : List Call, calls =
      [.write a, .append "a" e, .write b, .update "a" "done\n"] := ⟨_, rfl⟩
  have hblank : Blank ⟨⟨"/s"⟩⟩ ⟨[], []⟩ := by decide +kernel
  have hproper : ∀ c ∈ calls, '/' ∉ c.run.toList ∧ c.Sized := by
    have hsized : a.Sized ∧ b.Sized ∧ e.seq < UInt64.size := by
      subst ha hb he
      exact ⟨⟨by decide, by decide⟩, ⟨by decide, by decide⟩, by decide⟩
    subst hcalls
    simp only [List.forall_mem_cons, List.not_mem_nil, false_imp_iff, implies_true, and_true]
    subst ha hb he
    exact ⟨⟨by decide, hsized.1⟩, ⟨by decide, hsized.2.2⟩, ⟨by decide, hsized.2.1⟩,
      ⟨by decide, trivial⟩⟩
  obtain ⟨t', hrun⟩ : ∃ t', (performAll ⟨⟨"/s"⟩⟩ calls).run.run ⟨[], []⟩ = (.ok (), t') :=
    ⟨_, Prod.ext (by subst hcalls ha hb he; decide +kernel) rfl⟩
  have hown : own "a" calls = [.write a, .append "a" e, .update "a" "done\n"] := by
    subst hcalls ha hb
    rfl
  obtain ⟨hmetadata, -, hjournal, -⟩ := records_survive hblank hproper hrun
    (show '/' ∉ "a".toList by decide)
  obtain ⟨-, hnone, -, -⟩ := records_survive hblank hproper hrun
    (show '/' ∉ "c".toList by decide)
  have hlast := hmetadata [] a [.append "a" e, .update "a" "done\n"] hown (by simp)
  have hentries := hjournal (.inr ⟨e, by simp [hcalls]⟩)
  rw [hown] at hentries
  have hempty : own "c" calls = [] := by
    subst hcalls ha hb
    rfl
  exact ⟨a, b, e, t', ha, hb, he, hcalls ▸ hrun, hlast, hentries,
    hnone (by decide +kernel) (by simp [hempty])⟩

theorem run_performAll_write (hid : '/' ∉ m.run.toList) (hf : Fits l.runs (m.run ++ ".json"))
    (hmade : (FileTree.ensureDirectory l.runs).run.run t = (.ok (), made))
    (hx : ∀ mode, made.at? (fileAt l made (m.run ++ ".json")) ≠ some (.directory mode)) :
    ∃ t', (performAll l [.write m]).run.run t = (.ok (), t') ∧ t'.isDirectory l.runs = true := by
  have hn : IsName (m.run ++ ".json") := isName_runFile hid (by decide) (by decide)
  have hd : made.isDirectory l.runs = true := isDirectory_of_ensure (text_runs l) hmade
  have hparent : (FileTree.ensureParent (l.metadata m.run)).run.run t = (.ok (), made) := by
    unfold FileTree.ensureParent
    rw [show (l.metadata m.run).parent? = some l.runs from parent?_join hn (endsSolid_runs l)]
    exact hmade
  obtain ⟨mode, hwrite⟩ :=
    run_writeText_file hn hf (enters_of_isDirectory hd) m.json.renderIndented hx
  have hwritten : (writeMetadata l m).run.run t = (.ok (l.metadata m.run), _) :=
    run_bind_eq_ok.2 ⟨(), made, hparent, run_bind_eq_ok.2 ⟨(), _, run_on_eq_ok.2 hwrite, rfl⟩⟩
  exact ⟨_, run_bind_eq_ok.2 ⟨(), _, run_bind_eq_ok.2 ⟨_, _, hwritten, rfl⟩, rfl⟩,
    isDirectory_put_file hd hx _ mode⟩

theorem run_readJournal_of_long (hid : '/' ∉ m.run.toList) (hz : '\x00' ∉ m.run.toList)
    (hlo : 248 ≤ m.run.utf8ByteSize) (hhi : m.run.utf8ByteSize ≤ 250)
    (hroot : l.runs.text.utf8ByteSize + 259 ≤ pathLimit)
    (hmade : (FileTree.ensureDirectory l.runs).run.run t = (.ok (), made))
    (hx : ∀ mode, made.at? (fileAt l made (m.run ++ ".json")) ≠ some (.directory mode)) :
    ∃ t', (performAll l [.write m]).run.run t = (.ok (), t') ∧ (readJournal l m.run).run.run t' =
      (.error ⟨["failed to read run journal: " ++ (l.journal m.run).text], .file .nameTooLong⟩,
        t') := by
  have hjson : (m.run ++ ".json").utf8ByteSize = m.run.utf8ByteSize + 5 :=
    String.utf8ByteSize_append
  have hjournal : (m.run ++ ".journal").utf8ByteSize = m.run.utf8ByteSize + 8 :=
    String.utf8ByteSize_append
  have hnull {suffix : String} (hs : '\x00' ∉ suffix.toList) :
      '\x00' ∉ (m.run ++ suffix).toList := by
    rw [String.toList_append, List.mem_append, not_or]
    exact ⟨hz, hs⟩
  have hn : IsName (m.run ++ ".json") := isName_runFile hid (by decide) (by decide)
  have hn' : IsName (m.run ++ ".journal") := isName_runFile hid (by decide) (by decide)
  have hpath := size_join_le hn.piece l.runs
  have hpath' : (l.journal m.run).text.utf8ByteSize ≤ _ := size_join_le hn'.piece l.runs
  have hfits : Fits l.runs (m.run ++ ".json") :=
    ⟨by unfold nameLimit; omega, by omega, hnull (by decide)⟩
  obtain ⟨t', hran, hd⟩ := run_performAll_write hid hfits hmade hx
  exact ⟨t', hran, run_readJournal_nameTooLong hd hn' (by omega) (hnull (by decide))
    (by unfold nameLimit; omega)⟩

/-- Metadata are written for a run, and then reading its journal, which no entry was appended to,
fails. -/
theorem readJournal_nameTooLong :
    let l : StateLayout := ⟨⟨"/s"⟩⟩
    let m : RunMetadata :=
      ⟨1, String.ofList (List.replicate 248 'a'), "p", "install", "running", 5, none⟩
    let ran := (performAll l [.write m]).run.run ⟨[], []⟩
    Blank l ⟨[], []⟩ ∧ '/' ∉ m.run.toList ∧ m.Sized ∧ ran.1 = .ok () ∧
      (own m.run [.write m]).filterMap Call.entry? = [] ∧
      ((readJournal l m.run).run.run ran.2).1 =
        .error ⟨["failed to read run journal: " ++ (l.journal m.run).text], .file .nameTooLong⟩ := by
  have hletters {c : Char} (hc : c ≠ 'a') :
      c ∉ (String.ofList (List.replicate 248 'a')).toList := by
    rw [String.toList_ofList]
    exact fun h => hc (List.eq_of_mem_replicate h)
  have hsize (n : Nat) : (String.ofList (List.replicate n 'a')).utf8ByteSize = n := by
    induction n with
    | zero => rfl
    | succ n ih =>
      rw [List.replicate_succ', String.ofList_append, String.utf8ByteSize_append, ih]
      rfl
  obtain ⟨run, hrun⟩ : ∃ run, run = String.ofList (List.replicate 248 'a') := ⟨_, rfl⟩
  have hsize := hsize 248
  rw [← hrun] at hletters hsize ⊢
  clear hrun
  intro l m ran
  have hid : '/' ∉ m.run.toList := hletters (by decide)
  have hbytes : m.run.utf8ByteSize = 248 := hsize
  obtain ⟨made, hmade⟩ : ∃ made : Tree, made = ⟨[(["s"], .directory modeOfNewDirectory),
    (["s", "runs"], .directory modeOfNewDirectory)], []⟩ := ⟨_, rfl⟩
  have hmakes : (FileTree.ensureDirectory (StateLayout.runs ⟨⟨"/s"⟩⟩)).run.run ⟨[], []⟩ =
      (.ok (), made) := by
    subst hmade
    exact Prod.ext (by decide +kernel) (by decide +kernel)
  have hruns : made.lexicalPlace (StateLayout.runs ⟨⟨"/s"⟩⟩) = ["s", "runs"] := by
    subst hmade
    decide +kernel
  obtain ⟨t', hran, hread⟩ := run_readJournal_of_long (l := l) (m := m) hid
    (hletters (by decide)) hbytes.ge (by omega) (by decide +kernel) hmakes fun mode => by
      rw [fileAt, hruns, hmade]
      simp [at?]
  have hran' : ran = (.ok (), t') := hran
  have hsized : m.Sized := ⟨show 1 < UInt32.size by decide, show 5 < UInt64.size by decide⟩
  rw [hran']
  exact ⟨by decide +kernel, hid, hsized, rfl, by simp [own, Call.run, Call.entry?],
    congrArg Prod.fst hread⟩

end Patchboard.Run
