import Patchboard.Proofs.Patch.Tasks

set_option autoImplicit false

namespace Patchboard

namespace Report

/-- Records some events. -/
def extend (r : Report) (new : List Event) : Report :=
  ⟨r.events ++ new, r.everythingFound && !new.any (·.kind.isFailure)⟩

variable (r : Report) (path : Path) (theme : Nat) (kind : EventKind)

@[simp] theorem extend_nil : r.extend [] = r := by simp [extend]

theorem extend_append (new new' : List Event) :
    r.extend (new ++ new') = (r.extend new).extend new' := by
  simp [extend, List.append_assoc, Bool.and_assoc]

theorem everythingFound_extend (new : List Event) : (r.extend new).everythingFound = true ↔
    r.everythingFound = true ∧ ∀ e ∈ new, e.kind.isFailure = false := by
  simp [extend]

theorem note_eq (hk : kind.isFailure = false) :
    r.note path theme kind = r.extend [⟨some path, theme, kind⟩] := by
  simp [note, extend, hk]

theorem fail_eq (path : Option Path) (hk : kind.isFailure = true) :
    r.fail path theme kind = r.extend [⟨path, theme, kind⟩] := by
  simp [fail, extend, hk]

end Report

namespace Progress

def extend (p : Progress) (new : List Event) : Progress := { p with report := p.report.extend new }

@[simp] theorem extend_nil (p : Progress) : p.extend [] = p := by simp [extend]

theorem extend_append (p : Progress) (new new' : List Event) :
    p.extend (new ++ new') = (p.extend new).extend new' := by
  simp [extend, Report.extend_append]

theorem note_eq (p : Progress) (path : Path) (theme : Nat) {kind : EventKind}
    (hk : kind.isFailure = false) : p.note path theme kind = p.extend [⟨some path, theme, kind⟩] :=
  congrArg (Progress.mk p.site) (Report.note_eq _ _ _ _ hk)

theorem fail_eq (p : Progress) (path : Option Path) (theme : Nat) {kind : EventKind}
    (hk : kind.isFailure = true) : p.fail path theme kind = p.extend [⟨path, theme, kind⟩] :=
  congrArg (Progress.mk p.site) (Report.fail_eq _ _ _ _ hk)

end Progress

namespace Modification

/-- What a search comes to on a text, and the text after it; nothing for one that is passed over. -/
def change (policy : ErrorPolicy) (s : Step) (text : List Char) : Option (Outcome × List Char) :=
  match s.effective with
  | .error problem => if policy = .fatal then some (outcomeWith s problem, text) else none
  | .ok search => if search.isNoop then none else some (applySearch policy s search text)

/-- What is recorded of some searches that are carried out one after the other, and the last text. -/
def changes : List (ErrorPolicy × Step) → List Char → List EventKind × List Char
  | [], text => ([], text)
  | x :: steps, text =>
    match change x.1 x.2 text with
    | none => changes steps text
    | some (outcome, next) =>
      (kindOf outcome :: (changes steps next).1, (changes steps next).2)

variable (path : Path) (theme : Nat)

theorem runStep_eq (w : Work) (x : ErrorPolicy × Step) : runStep path theme x.1 w x.2 =
    match change x.1 x.2 w.text with
    | none => w
    | some (outcome, text) => w.record path theme outcome text := by
  unfold runStep change
  cases x.2.effective with
  | error problem => by_cases h : x.1 = .fatal <;> simp [h]
  | ok search => by_cases h : search.isNoop <;> simp [h]

theorem record_eq (w : Work) (outcome : Outcome) (text : List Char) :
    w.record path theme outcome text = ⟨text, w.failed || (kindOf outcome).isFailure,
      w.report.extend [⟨some path, theme, kindOf outcome⟩]⟩ := by
  unfold Work.record kindOf
  split
  · rw [Report.fail_eq _ _ _ _ rfl]
    simp [EventKind.isFailure]
  · rw [Report.note_eq _ _ _ _ rfl]
    simp [EventKind.isFailure]

theorem foldl_runStep_eq (steps : List (ErrorPolicy × Step)) (w : Work) :
    steps.foldl (fun w x => runStep path theme x.1 w x.2) w =
      ⟨(changes steps w.text).2, w.failed || (changes steps w.text).1.any (·.isFailure),
        w.report.extend ((changes steps w.text).1.map (Event.mk (some path) theme))⟩ := by
  induction steps generalizing w with
  | nil => simp [changes]
  | cons x steps ih =>
    rw [List.foldl_cons, runStep_eq, changes]
    cases hx : change x.1 x.2 w.text with
    | none => exact ih w
    | some made =>
      dsimp only
      rw [record_eq, ih]
      simp [Report.extend, List.append_assoc, Bool.or_assoc, Bool.and_assoc]

theorem patchText_eq (b : Board) (o : PatchOptions) (block : Document) (text : List Char)
    (existed : Bool) (p : Progress) : patchText b o block path theme text existed p =
      let made := changes (agenda (operations o.undo block)) text
      let p := p.extend ((.opened :: made.1).map (Event.mk (some path) theme))
      if made.1.any (·.isFailure) then p
      else Save.save b o path theme (Search.revealed made.2) existed p := by
  rw [patchText_eq_finish, foldl_runStep_eq]
  unfold finish opened Work.shown
  dsimp only
  rw [Bool.false_or, Report.note_eq _ _ _ .opened rfl, ← Report.extend_append]
  rfl

end Modification

/-- A token without what it says of the file it belongs to. -/
def Token.bare (t : Token) : Token := ⟨t.kind, t.text, none, Theme.noCustom⟩

namespace Boardmod

/-- What is recorded of a token in an open file, the search that waits after it, and the text. -/
def obey (undo : Bool) (t : Token) (search : Option (List Char)) (text : List Char) :
    List EventKind × Option (List Char) × List Char :=
  match t.kind, search with
  | .search, none => ([], some t.text, text)
  | .search, some _ =>
    ([.error (.malformedPatch "two searches without a replacement")], some t.text, text)
  | _, none => ([.error (.malformedPatch "replacement without a search")], none, text)
  | _, some search =>
    let (needle, replacement) := exchange undo t search
    let shown := String.ofList search
    let add := String.ofList t.text
    if canEdit needle text then
      ([.replace (.succeeded shown add t.kind.position)], none,
        Text.replaceAll needle replacement text)
    else
      ([.failure (.ofProblem shown add t.kind.position (.notFound (String.ofList needle)))], none,
        text)

def follow (undo : Bool) : List Token → Option (List Char) → List Char →
    List EventKind × List Char
  | [], _, text => ([], text)
  | t :: tokens, search, text =>
    let (kinds, search, text) := obey undo t search text
    (kinds ++ (follow undo tokens search text).1, (follow undo tokens search text).2)

/-- What is recorded of a token when no file is open. -/
def stray (t : Token) : Event :=
  ⟨none, t.theme, .error (.malformedPatch
    (if t.kind = .search then "search before any file" else "replacement before any file"))⟩

theorem follow_bare (undo : Bool) (tokens : List Token) (search : Option (List Char))
    (text : List Char) :
    follow undo (tokens.map Token.bare) search text = follow undo tokens search text := by
  induction tokens generalizing search text with
  | nil => rfl
  | cons t tokens ih =>
    have ht : obey undo t.bare search text = obey undo t search text := rfl
    rw [List.map_cons, follow, follow, ht]
    dsimp only
    rw [ih]

variable {b : Board} {o : PatchOptions}

theorem spoil_eq (s : State) (f : OpenFile) (reason : String) : s.spoil f reason =
    ⟨some { f with failed := true }, s.search,
      s.progress.extend [⟨some f.path, f.theme, .error (.malformedPatch reason)⟩]⟩ :=
  congrArg (State.mk _ _) (Progress.fail_eq _ _ _ rfl)

theorem applyEdit_eq (o : PatchOptions) (t : Token) (search : List Char) (f : OpenFile)
    (s : State) : s.applyEdit o t search f =
      if canEdit (exchange o.undo t search).1 f.text then
        { s with
          file := some { f with
            text := Text.replaceAll (exchange o.undo t search).1 (exchange o.undo t search).2 f.text }
          progress := s.progress.extend [⟨some f.path, f.theme, .replace
            (.succeeded (String.ofList search) (String.ofList t.text) t.kind.position)⟩] }
      else
        { s with
          file := some { f with failed := true }
          progress := s.progress.extend [⟨some f.path, f.theme, .failure
            (.ofProblem (String.ofList search) (String.ofList t.text) t.kind.position
              (.notFound (String.ofList (exchange o.undo t search).1)))⟩] } := by
  unfold State.applyEdit
  dsimp only
  rw [Progress.note_eq _ _ _ rfl, Progress.fail_eq _ _ _ rfl]

theorem advance_open {t : Token} (hk : t.kind ≠ .file) {s : State} {f : OpenFile}
    (hf : s.file = some f) : advance b o s t =
      let (kinds, search, text) := obey o.undo t s.search f.text
      ⟨some { f with text, failed := f.failed || kinds.any (·.isFailure) }, search,
        s.progress.extend (kinds.map (Event.mk (some f.path) f.theme))⟩ := by
  unfold advance obey
  cases hkind : t.kind with
  | file => exact absurd hkind hk
  | search =>
    unfold State.beginSearch
    cases s.search with
    | none => simp [hf]
    | some search => simp [hf, spoil_eq, EventKind.isFailure]
  | insertBefore | insertAfter | replace =>
    unfold State.edit
    cases hs : s.search with
    | none => simp [hf, spoil_eq, EventKind.isFailure]
    | some search =>
      simp only [hf, applyEdit_eq]
      split <;> simp [EventKind.isFailure, hkind]

theorem advance_closed {t : Token} (hk : t.kind ≠ .file) {s : State} (hf : s.file = none)
    (hs : s.search = none) : advance b o s t = ⟨none, none, s.progress.extend [stray t]⟩ := by
  have hfail (reason : String) : s.progress.fail none t.theme (.error (.malformedPatch reason)) =
      s.progress.extend [⟨none, t.theme, .error (.malformedPatch reason)⟩] :=
    Progress.fail_eq _ _ _ rfl
  unfold advance stray
  cases hkind : t.kind with
  | file => exact absurd hkind hk
  | search => simp [State.beginSearch, State.malformed, hf, hs, hfail]
  | insertBefore | insertAfter | replace => simp [State.edit, State.malformed, hf, hfail]

theorem foldl_advance_open {tokens : List Token} (hk : ∀ t ∈ tokens, t.kind ≠ .file) {s : State}
    {f : OpenFile} (hf : s.file = some f) : ∃ search, tokens.foldl (advance b o) s =
      let (kinds, text) := follow o.undo tokens s.search f.text
      ⟨some { f with text, failed := f.failed || kinds.any (·.isFailure) }, search,
        s.progress.extend (kinds.map (Event.mk (some f.path) f.theme))⟩ := by
  induction tokens generalizing s f with
  | nil => exact ⟨s.search, by simp [follow, ← hf]⟩
  | cons t tokens ih =>
    rw [List.foldl_cons, advance_open (hk t (List.mem_cons_self ..)) hf]
    obtain ⟨search, hrest⟩ := ih (fun other ho => hk other (List.mem_cons_of_mem _ ho))
      (s := ⟨some { f with
          text := (obey o.undo t s.search f.text).2.2
          failed := f.failed || (obey o.undo t s.search f.text).1.any (·.isFailure) },
        (obey o.undo t s.search f.text).2.1,
        s.progress.extend ((obey o.undo t s.search f.text).1.map
          (Event.mk (some f.path) f.theme))⟩) rfl
    refine ⟨search, hrest.trans ?_⟩
    rw [follow]
    simp [Progress.extend_append, List.any_append, Bool.or_assoc]

theorem foldl_advance_closed {tokens : List Token} (hk : ∀ t ∈ tokens, t.kind ≠ .file) {s : State}
    (hf : s.file = none) (hs : s.search = none) :
    tokens.foldl (advance b o) s = ⟨none, none, s.progress.extend (tokens.map stray)⟩ := by
  induction tokens generalizing s with
  | nil => simp [← hf, ← hs]
  | cons t tokens ih =>
    rw [List.foldl_cons, advance_closed (hk t (List.mem_cons_self ..)) hf hs,
      ih (fun other ho => hk other (List.mem_cons_of_mem _ ho)) rfl rfl]
    simp [← Progress.extend_append]

theorem kind_of_fileOf? {t : Token} {path : Path} (h : fileOf? t = some path) : t.kind = .file := by
  unfold fileOf? at h
  split at h
  · assumption
  · cases h

theorem reportProblems_eq (p : Progress) (problems : List Problem) :
    reportProblems p problems =
      p.extend (problems.map fun problem => ⟨none, Theme.noCustom, .error problem⟩) := by
  induction problems generalizing p with
  | nil => exact (Progress.extend_nil p).symm
  | cons problem problems ih =>
    refine (ih (p.fail none Theme.noCustom (.error problem))).trans ?_
    rw [Progress.fail_eq _ _ _ rfl, ← Progress.extend_append]
    rfl

end Boardmod

/-- What a patch has to do with a file: the operations of a block, or the searches and edits of a
stream. -/
inductive Edits where
  | block (document : Document)
  | stream (body : List Token)

/-- What comes of that: the file is left alone, or its text is changed and may be saved. -/
inductive Revision where
  | left (kind : EventKind)
  | made (existed : Bool) (kinds : List EventKind) (text : List Char)

namespace Edits
open Modification

def ofBlock (undo : Bool) (document : Document) (existed : Bool) (text : List Char) : Revision :=
  let made := changes (agenda (operations undo document)) text
  .made existed made.1 (Search.revealed made.2)

def ofStream (undo : Bool) (body : List Token) (text : List Char) : Revision :=
  let made := Boardmod.follow undo body none text
  .made true made.1 made.2

/-- What the edits make of a file, by what it holds. -/
def revise (undo : Bool) : Edits → Option Contents → Revision
  | .block document, some (.text text) => ofBlock undo document true text.toList
  | .block _, some (.bytes _) => .left .missing
  | .block document, none =>
    match MissingFile.parse (document.fetch? "@error") with
    | .skip => .left .skipped
    | .ignore => ofBlock undo document false []
    | .fatal => .left .missing
  | .stream body, some (.text text) => ofStream undo body text.toList
  | .stream _, _ => .left .missing

end Edits

/-- Edits on one file, and what is recorded of them besides when they find no file to work on. -/
structure Run where
  file : ThemeCopy
  edits : Edits
  strays : List Event

namespace Run

def event (run : Run) (kind : EventKind) : Event := ⟨some run.file.path, run.file.theme, kind⟩

/-- Makes the revision of what the file holds now, records it and saves the text. -/
def carryOut (b : Board) (o : PatchOptions) (p : Progress) (run : Run) : Progress :=
  match run.edits.revise o.undo (p.site.tree.file? run.file.path) with
  | .left kind => p.extend (run.event kind :: run.strays)
  | .made existed kinds text =>
    let p := p.extend ((.opened :: kinds).map run.event)
    if kinds.any (·.isFailure) then p
    else Save.save b o run.file.path run.file.theme text existed p

end Run

variable {b : Board} {o : PatchOptions}

theorem Modification.applyBlock_eq_carryOut (block : Document) (copy : ThemeCopy) (p : Progress) :
    applyBlock b o block copy.path copy.theme p = (⟨copy, .block block, []⟩ : Run).carryOut b o p := by
  unfold Run.carryOut Edits.revise
  rw [applyBlock_eq]
  cases p.site.tree.file? copy.path with
  | some contents =>
    cases contents with
    | text text => exact patchText_eq ..
    | bytes value => exact Progress.fail_eq _ _ _ rfl
  | none =>
    dsimp only
    cases MissingFile.parse (block.fetch? "@error") with
    | fatal => exact Progress.fail_eq _ _ _ rfl
    | skip => exact Progress.note_eq _ _ _ rfl
    | ignore => exact patchText_eq ..

theorem Boardmod.openFile_eq (path : Path) (theme : Nat) (s : State) : s.openFile path theme =
    match s.progress.site.tree.file? path with
    | some (.text text) => ⟨some ⟨path, theme, text.toList, false⟩, none,
      s.progress.extend [⟨some path, theme, .opened⟩]⟩
    | _ => ⟨none, none, s.progress.extend [⟨some path, theme, .missing⟩]⟩ := by
  rw [← Progress.note_eq _ _ _ rfl, ← Progress.fail_eq _ _ _ rfl]
  unfold State.openFile
  rw [Tree.isFile_eq_file?]
  cases h : s.progress.site.tree.file? path with
  | none => rfl
  | some contents =>
    rw [if_pos Option.isSome_some, Tree.text?_of_file? h]
    cases contents <;> rfl

theorem Boardmod.runGroup_eq_carryOut {head : Token} {tail : List Token} {path : Path}
    (hh : fileOf? head = some path) (hk : ∀ t ∈ tail, t.kind ≠ .file) (p : Progress) :
    runGroup b o p (head :: tail) =
      (⟨⟨head.theme, path⟩, .stream (tail.map Token.bare), tail.map stray⟩ : Run).carryOut b o p := by
  have hclose : (⟨none, none, p⟩ : State).close b o = ⟨none, none, p⟩ := rfl
  have hmissing : ((tail.foldl (advance b o) ⟨none, none,
      p.extend [⟨some path, head.theme, .missing⟩]⟩).close b o).progress =
      p.extend (⟨some path, head.theme, .missing⟩ :: tail.map stray) := by
    rw [foldl_advance_closed hk rfl rfl]
    exact (Progress.extend_append p [_] _).symm
  unfold runGroup Run.carryOut Edits.revise
  rw [List.foldl_cons, advance_file hh, hclose, openFile_eq]
  dsimp only
  cases p.site.tree.file? path with
  | none => exact hmissing
  | some contents =>
    cases contents with
    | bytes value => exact hmissing
    | text text =>
      dsimp only [Edits.ofStream]
      rw [follow_bare]
      obtain ⟨search, hfold⟩ := foldl_advance_open (b := b) (o := o) hk (s := ⟨some
        ⟨path, head.theme, text.toList, false⟩, none,
        p.extend [⟨some path, head.theme, .opened⟩]⟩) rfl
      rw [hfold]
      unfold State.close
      dsimp only
      rw [Bool.false_or, ← Progress.extend_append]
      rfl

theorem Boardmod.runGroup_eq_strays {tokens : List Token} (hk : ∀ t ∈ tokens, t.kind ≠ .file)
    (p : Progress) : runGroup b o p tokens = p.extend (tokens.map stray) := by
  unfold runGroup
  rw [foldl_advance_closed hk rfl rfl]
  rfl

def EventKind.isReplace : EventKind → Bool
  | .replace _ => true
  | _ => false

/-- Saving a file records how that ended, under the path and the theme of the file. Only the backup
of the settings is skipped. -/
theorem Save.extends_save (path : Path) (theme : Nat) (text : List Char) (existed : Bool)
    (p : Progress) : ∃ new, (save b o path theme text existed p).report = p.report.extend new ∧
      ∀ e ∈ new, e.path = some path ∧ e.theme = theme ∧ e.kind.isReplace = false ∧
        (e.kind = .skipped → isSettingsBackup b path = true) := by
  rcases save_cases b path theme text existed o p with
    ⟨hb, hs⟩ | ⟨-, ⟨-, hs⟩ | ⟨-, -, hs⟩ | ⟨-, -, hs⟩⟩
  · rw [hs]
    exact ⟨_, Report.note_eq _ _ _ _ rfl, by simp [EventKind.isReplace, hb]⟩
  · rw [hs, Progress.note_eq _ _ _ rfl]
    split
    · exact ⟨_, rfl, by simp [EventKind.isReplace]⟩
    · rw [Progress.note_eq _ _ _ rfl, ← Progress.extend_append]
      exact ⟨_, rfl, by simp [EventKind.isReplace]⟩
  · rw [hs, Progress.note_eq _ _ _ rfl, Progress.fail_eq _ _ _ rfl, ← Progress.extend_append]
    exact ⟨_, rfl, by simp [EventKind.isReplace]⟩
  · rw [hs]
    rcases store_cases b path theme text existed (p.on (p.site.ensureWritable path).2) with
      ⟨-, ht⟩ | ⟨-, ht⟩
    · rw [ht]
      exact ⟨_, Report.note_eq _ _ _ _ rfl, by simp [EventKind.isReplace]⟩
    · rw [ht]
      exact ⟨_, Report.fail_eq _ _ _ _ rfl, by simp [EventKind.isReplace]⟩

/-- Everything that a run records is recorded under its file, but for what it says besides when the
file is left alone. -/
theorem Run.extends_carryOut (run : Run) (p : Progress) :
    ∃ new, (run.carryOut b o p).report = p.report.extend new ∧
      ∀ e ∈ new, (e.path = some run.file.path ∧ e.theme = run.file.theme) ∨
        (e ∈ run.strays ∧ ∃ kind, run.edits.revise o.undo (p.site.tree.file? run.file.path) =
          .left kind) := by
  unfold carryOut
  cases hr : run.edits.revise o.undo (p.site.tree.file? run.file.path) with
  | left kind =>
    refine ⟨_, rfl, fun e he => ?_⟩
    rcases List.mem_cons.1 he with rfl | he
    · exact .inl ⟨rfl, rfl⟩
    · exact .inr ⟨he, kind, rfl⟩
  | made existed kinds text =>
    have hown : ∀ e ∈ (EventKind.opened :: kinds).map run.event,
        e.path = some run.file.path ∧ e.theme = run.file.theme := by
      intro e he
      obtain ⟨kind, -, rfl⟩ := List.mem_map.1 he
      exact ⟨rfl, rfl⟩
    dsimp only
    split
    · exact ⟨_, rfl, fun e he => .inl (hown e he)⟩
    · obtain ⟨new, hsave, hnew⟩ := Save.extends_save (b := b) (o := o) run.file.path
        run.file.theme text existed (p.extend ((.opened :: kinds).map run.event))
      refine ⟨_, hsave.trans (Report.extend_append ..).symm, fun e he => .inl ?_⟩
      rcases List.mem_append.1 he with he | he
      · exact hown e he
      · exact ⟨(hnew e he).1, (hnew e he).2.1⟩

namespace Patch

def Task.run? : Task → Option Run
  | .job (.nameless _) => none
  | .job (.block document copy) => some ⟨copy, .block document, []⟩
  | .group [] => none
  | .group (head :: tail) => (Boardmod.fileOf? head).map fun path =>
    ⟨⟨head.theme, path⟩, .stream (tail.map Token.bare), tail.map Boardmod.stray⟩

variable {patch : Patch} {t : Tree} {task : Task}

theorem group_of_mem_tasks {tokens : List Token} (ht : .group tokens ∈ patch.tasks b t) :
    ∃ raw, patch = .stream raw ∧ tokens ∈ Boardmod.groups (Boardmod.visited b raw t) := by
  cases patch with
  | modification d => simp [tasks] at ht
  | stream raw =>
    unfold tasks at ht
    dsimp only at ht
    split at ht
    · obtain ⟨group, hg, he⟩ := List.mem_map.1 ht
      cases he
      exact ⟨raw, rfl, hg⟩
    · simp at ht

theorem perform_eq_carryOut (ht : task ∈ patch.tasks b t) {run : Run} (hr : task.run? = some run)
    (p : Progress) : perform b o p task = run.carryOut b o p := by
  cases task with
  | job job =>
    cases job with
    | nameless number => cases hr
    | block document copy =>
      cases hr
      exact Modification.applyBlock_eq_carryOut document copy p
  | group tokens =>
    obtain ⟨raw, -, hg⟩ := group_of_mem_tasks ht
    cases tokens with
    | nil => cases hr
    | cons head tail =>
      obtain ⟨path, hpath, rfl⟩ := Option.map_eq_some_iff.1 hr
      exact Boardmod.runGroup_eq_carryOut hpath (Boardmod.kind_ne_of_mem_tail hg) p

theorem kind_of_no_run {tokens : List Token} (ht : .group tokens ∈ patch.tasks b t)
    (hr : Task.run? (.group tokens) = none) : ∀ token ∈ tokens, token.kind ≠ .file := by
  obtain ⟨raw, -, hg⟩ := group_of_mem_tasks ht
  cases tokens with
  | nil => simp
  | cons head tail =>
    refine List.forall_mem_cons.2 ⟨fun hk => ?_, Boardmod.kind_ne_of_mem_tail hg⟩
    have hmem : head ∈ (Boardmod.groups (Boardmod.visited b raw t)).flatten :=
      List.mem_flatten.2 ⟨_, hg, List.mem_cons_self ..⟩
    rw [Boardmod.flatten_groups] at hmem
    obtain ⟨path, hpath⟩ := Boardmod.fileOf?_of_kind hk (Boardmod.isSome_of_mem_visited hmem hk)
    simp [Task.run?, hpath] at hr

theorem perform_of_no_run (ht : task ∈ patch.tasks b t) (hr : task.run? = none) (p : Progress) :
    ∃ new, perform b o p task = p.extend new ∧
      ∀ e ∈ new, e.path = none ∧ e.kind.isFailure = true ∧ e.kind.isRefusal = false := by
  cases task with
  | job job =>
    cases job with
    | nameless number =>
      exact ⟨_, Progress.fail_eq _ _ _ rfl, by simp [EventKind.isFailure, EventKind.isRefusal]⟩
    | block document copy => cases hr
  | group tokens =>
    refine ⟨_, Boardmod.runGroup_eq_strays (kind_of_no_run ht hr) p, fun e he => ?_⟩
    obtain ⟨token, -, rfl⟩ := List.mem_map.1 he
    exact ⟨rfl, rfl, rfl⟩

end Patch

end Patchboard
