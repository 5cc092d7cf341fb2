import Mathlib.Data.List.Induction
import Patchboard.Proofs.Cursor.Failures
import Patchboard.Proofs.Patch.Accounting
import Patchboard.Proofs.Patch.FanOut
import Patchboard.Proofs.Patch.Tracing

set_option autoImplicit false

namespace Patchboard

def Event.isOf (e : Event) (path : Path) (theme : Nat) : Bool :=
  e.path.any (·.same path) && e.theme = theme

/-- What is recorded of a file, in order. -/
def kindsOf (events : List Event) (path : Path) (theme : Nat) : List EventKind :=
  (events.filter (·.isOf path theme)).map (·.kind)

/-- A failure after which the file is not skipped. -/
def EventKind.Stays (kinds : List EventKind) : Prop :=
  ∃ before kind after, kinds = before ++ kind :: after ∧ kind.isFailure = true ∧
    EventKind.skipped ∉ after

theorem EventKind.stays_append {kinds : List EventKind} {kind : EventKind} :
    Stays (kinds ++ [kind]) ↔ kind.isFailure = true ∨ kind ≠ .skipped ∧ Stays kinds := by
  constructor
  · rintro ⟨before, failure, after, hkinds, hfailure, hafter⟩
    rcases List.eq_nil_or_concat after with rfl | ⟨after', last, rfl⟩
    · obtain ⟨-, hlast⟩ := List.append_inj' hkinds rfl
      exact .inl ((List.cons.inj hlast).1 ▸ hfailure)
    · rw [List.concat_eq_append, ← List.cons_append, ← List.append_assoc] at hkinds
      obtain ⟨hkinds, hlast⟩ := List.append_inj' hkinds rfl
      have hkind : kind = last := (List.cons.inj hlast).1
      rw [List.concat_eq_append, List.mem_append, not_or, List.mem_singleton] at hafter
      exact .inr ⟨fun h => hafter.2 (h ▸ hkind), before, failure, after', hkinds, hfailure,
        hafter.1⟩
  · rintro (hfailure | ⟨hkind, before, failure, after, rfl, hfailure, hafter⟩)
    · exact ⟨kinds, kind, [], rfl, hfailure, by simp⟩
    · refine ⟨before, failure, after ++ [kind], by simp, hfailure, ?_⟩
      rw [List.mem_append, List.mem_singleton]
      exact not_or.2 ⟨hafter, Ne.symm hkind⟩

theorem EventKind.stays_iff_of_not_skipped {kinds : List EventKind} (h : .skipped ∉ kinds) :
    Stays kinds ↔ ∃ kind ∈ kinds, kind.isFailure = true := by
  constructor
  · rintro ⟨before, kind, after, rfl, hfailure, -⟩
    exact ⟨kind, by simp, hfailure⟩
  · rintro ⟨kind, hkind, hfailure⟩
    obtain ⟨before, after, rfl⟩ := List.append_of_mem hkind
    exact ⟨before, kind, after, rfl, hfailure, fun hs => h (by simp [hs])⟩

section
variable {b : Board} {o : PatchOptions}

def Edits.skipsMissing : Edits → Bool
  | .block document => Modification.MissingFile.parse (document.fetch? "@error") = .skip
  | .stream _ => false

/-- The file of a run may be skipped: it is the backup of the settings, or it is not there and the
block skips it then. -/
def Run.MaySkip (b : Board) (t : Tree) (run : Run) : Prop :=
  Save.isSettingsBackup b run.file.path = true ∨
    t.isFile run.file.path = false ∧ run.edits.skipsMissing = true

instance (b : Board) (t : Tree) (run : Run) : Decidable (run.MaySkip b t) :=
  inferInstanceAs (Decidable (_ ∨ _))

theorem Run.MaySkip.of_grown {t t' : Tree} {written : List Place} (hg : Tree.Grown t t' written)
    {run : Run} (h : run.MaySkip b t') : run.MaySkip b t := by
  refine h.imp_right fun ⟨hnone, hedits⟩ => ⟨?_, hedits⟩
  rw [Tree.isFile_eq_file?] at hnone ⊢
  cases hf : (t.file? run.file.path).isSome with
  | false => rfl
  | true => exact absurd (Tree.isSome_file?_of_grown hg hf) (by simp [hnone])

theorem Boardmod.not_skipped_follow (undo : Bool) (tokens : List Token)
    (search : Option (List Char)) (text : List Char) :
    EventKind.skipped ∉ (follow undo tokens search text).1 := by
  induction tokens generalizing search text with
  | nil => simp [follow]
  | cons t tokens ih =>
    rw [follow, List.mem_append, not_or]
    refine ⟨?_, ih _ _⟩
    unfold obey
    split
    · simp
    · simp
    · simp
    · dsimp only
      split <;> simp

theorem Edits.not_skipped_of_made {undo existed : Bool} {edits : Edits} {found : Option Contents}
    {kinds : List EventKind} {text : List Char}
    (h : edits.revise undo found = .made existed kinds text) : .skipped ∉ kinds := by
  have hblock (block : Document) (existed' : Bool) (old : List Char)
      (h : ofBlock undo block existed' old = .made existed kinds text) : .skipped ∉ kinds := by
    cases h
    intro hs
    obtain ⟨outcome, hkind⟩ := Modification.kind_changes _ _ _ hs
    unfold Modification.kindOf at hkind
    split at hkind <;> cases hkind
  unfold revise at h
  split at h
  · exact hblock _ _ _ h
  · cases h
  · split at h
    · cases h
    · exact hblock _ _ _ h
    · cases h
  · cases h
    exact Boardmod.not_skipped_follow _ _ _ _
  · cases h

theorem Edits.of_left_skipped {undo : Bool} {edits : Edits} {found : Option Contents}
    (h : edits.revise undo found = .left .skipped) :
    found.isSome = false ∧ edits.skipsMissing = true := by
  unfold revise at h
  split at h
  · cases h
  · cases h
  · split at h
    · rename_i hparse
      exact ⟨rfl, decide_eq_true hparse⟩
    · cases h
    · cases h
  · cases h
  · cases h

theorem Run.skipped_carryOut {run : Run} (hstrays : ∀ e ∈ run.strays, e.kind ≠ .skipped)
    {p : Progress} {e : Event} (he : e ∈ (run.carryOut b o p).report.events)
    (hk : e.kind = .skipped) : e ∈ p.report.events ∨
      e.path = some run.file.path ∧ e.theme = run.file.theme ∧ run.MaySkip b p.site.tree := by
  unfold carryOut at he
  cases hr : run.edits.revise o.undo (p.site.tree.file? run.file.path) with
  | left kind =>
    rw [hr] at he
    rcases List.mem_append.1 he with he | he
    · exact .inl he
    · rcases List.mem_cons.1 he with rfl | he
      · have hkind : kind = .skipped := hk
        obtain ⟨hnone, hedits⟩ := Edits.of_left_skipped (hkind ▸ hr)
        exact .inr ⟨rfl, rfl, .inr ⟨(Tree.isFile_eq_file? ..).trans hnone, hedits⟩⟩
      · exact absurd hk (hstrays e he)
  | made existed kinds text =>
    have hopened : ∀ e ∈ (EventKind.opened :: kinds).map run.event, e.kind ≠ .skipped := by
      intro e he hk
      obtain ⟨kind, hm, rfl⟩ := List.mem_map.1 he
      have hkind : kind = .skipped := hk
      subst hkind
      rcases List.mem_cons.1 hm with hm | hm
      · cases hm
      · exact Edits.not_skipped_of_made hr hm
    have hbefore : ∀ e ∈ (p.extend ((EventKind.opened :: kinds).map run.event)).report.events,
        e.kind = .skipped → e ∈ p.report.events := by
      intro e he hk
      rcases List.mem_append.1 he with he | he
      · exact he
      · exact absurd hk (hopened e he)
    rw [hr] at he
    dsimp only at he
    split at he
    · exact .inl (hbefore e he hk)
    · obtain ⟨new, hsave, hnew⟩ := Save.extends_save (b := b) (o := o) run.file.path
        run.file.theme text existed (p.extend ((.opened :: kinds).map run.event))
      rw [hsave] at he
      rcases List.mem_append.1 he with he | he
      · exact .inl (hbefore e he hk)
      · obtain ⟨hpath, htheme, -, hbackup⟩ := hnew e he
        exact .inr ⟨hpath, htheme, .inl (hbackup hk)⟩

theorem Run.grown_carryOut (run : Run) (p : Progress) :
    ∃ written, Tree.Grown p.site.tree (run.carryOut b o p).site.tree written := by
  unfold carryOut
  cases run.edits.revise o.undo (p.site.tree.file? run.file.path) with
  | left kind => exact ⟨[], Tree.Grown.refl ..⟩
  | made existed kinds text =>
    dsimp only
    split
    · exact ⟨[], Tree.Grown.refl ..⟩
    · have hsave := Save.grown_save b run.file.path run.file.theme text existed o
        (p.extend ((.opened :: kinds).map run.event))
      exact ⟨_, hsave⟩

namespace Patch

theorem Carried.skipped {runs : List Run} {p p' : Progress} (h : Carried b o runs p p')
    (hstrays : ∀ run ∈ runs, ∀ e ∈ run.strays, e.kind ≠ .skipped) {e : Event}
    (he : e ∈ p'.report.events) (hk : e.kind = .skipped) : e ∈ p.report.events ∨
      ∃ run ∈ runs, e.path = some run.file.path ∧ e.theme = run.file.theme ∧
        run.MaySkip b p.site.tree := by
  induction h with
  | done p => exact .inl he
  | @run run runs p p' rest ih =>
    obtain ⟨hfirst, hothers⟩ := List.forall_mem_cons.1 hstrays
    rcases ih hothers he with he | ⟨other, hm, hpath, htheme, hmay⟩
    · exact (run.skipped_carryOut hfirst he hk).imp_right fun h =>
        ⟨run, List.mem_cons_self, h⟩
    · obtain ⟨written, hg⟩ := run.grown_carryOut (b := b) (o := o) p
      exact .inr ⟨other, List.mem_cons_of_mem _ hm, hpath, htheme, hmay.of_grown hg⟩
  | @error new runs p p' hnew rest ih =>
    refine (ih hstrays he).imp_left fun he => ?_
    rcases List.mem_append.1 he with he | he
    · exact he
    · have hfailure := (hnew e he).2
      rw [hk] at hfailure
      cases hfailure

theorem skipped_applyTo (patch : Patch) (s : Site) {e : Event}
    (he : e ∈ (patch.applyTo b o s).report.events) (hk : e.kind = .skipped) :
    ∃ run ∈ patch.fanOut b s.tree, e.path = some run.file.path ∧ e.theme = run.file.theme ∧
      run.MaySkip b s.tree := by
  have hstrays : ∀ run ∈ patch.fanOut b s.tree, ∀ e ∈ run.strays, e.kind ≠ .skipped := by
    intro run hr e he
    obtain ⟨edits, file, theme, rfl⟩ := on_of_mem_fanOut hr
    cases edits with
    | block document => cases he
    | stream body =>
      obtain ⟨token, -, rfl⟩ := List.mem_map.1 he
      exact fun hk => by cases hk
  exact ((carried_fanOut b o patch s).skipped hstrays he hk).resolve_left fun h => by cases h

end Patch

end

namespace Cursor

variable {c : RunContext} {a : Action} {path : Path} {theme : Nat}

theorem isFailure_applyEvent_iff (path : Path) (kind : EventKind) (r : StepResult) :
    (applyEvent path kind r).isFailure = true ↔
      kind.isFailure = true ∨ kind ≠ .skipped ∧ r.isFailure = true := by
  cases kind with
  | opened | replace outcome => simp [applyEvent, EventKind.isFailure, StepResult.isFailure]
  | failure outcome | missing | error problem =>
    simp [applyEvent, EventKind.isFailure, StepResult.isFailure, Status.isFailure]
  | skipped => simp [applyEvent, EventKind.isFailure, StepResult.isFailure, Status.isFailure]
  | saved =>
    cases hr : r.isFailure with
    | true => simp [applyEvent, hr]
    | false =>
      simp [applyEvent, hr, EventKind.isFailure]
      rfl
  | chmodNeeded =>
    by_cases hr : r.status = .opened
    · simp [applyEvent, hr, EventKind.isFailure, StepResult.isFailure, Status.isFailure]
    · simp [applyEvent, hr, EventKind.isFailure]

section
variable {q : Path} {owner : Nat} (kind : EventKind) (folded : List Folded)

theorem Folded.isFor_of_isFor {f : Folded} (h : f.isFor q owner = true) :
    f.isFor path theme = (q.same path && owner = theme) := by
  obtain ⟨hpath, htheme⟩ := Bool.and_eq_true_iff.1 h
  have hcomponents : f.path.components = q.components := of_decide_eq_true hpath
  rw [isFor, Path.same, Path.same, hcomponents, of_decide_eq_true htheme]

theorem filter_foldInto_of_other (h : (q.same path && owner = theme) = false) :
    (foldInto c a q owner kind folded).filter (·.isFor path theme) =
      folded.filter (·.isFor path theme) := by
  have hnew : ∀ r, Folded.isFor ⟨q, owner, r⟩ path theme = false := fun _ => h
  induction folded with
  | nil => simp [foldInto, hnew]
  | cons f folded ih =>
    rw [foldInto]
    split
    · rename_i hf
      have hother : f.isFor path theme = false := (Folded.isFor_of_isFor hf).trans h
      have hother' : Folded.isFor { f with result := applyEvent q kind f.result } path theme =
        false := hother
      simp [hother, hother']
    · rw [List.filter_cons, List.filter_cons, ih]

/-- The result before its file has any events. -/
def fresh (c : RunContext) (a : Action) (path : Path) (theme : Nat) : StepResult :=
  (StepResult.make a.kind (c.board.vars.display path) .opened).withTheme theme

theorem filter_foldInto (h : (q.same path && owner = theme) = true) :
    (foldInto c a q owner kind folded).filter (·.isFor path theme) =
      match folded.filter (·.isFor path theme) with
      | [] => [⟨q, owner, applyEvent q kind (fresh c a q owner)⟩]
      | f :: rest => { f with result := applyEvent q kind f.result } :: rest := by
  have hnew : ∀ r, Folded.isFor ⟨q, owner, r⟩ path theme = true := fun _ => h
  induction folded with
  | nil => simp [foldInto, hnew, fresh]
  | cons f folded ih =>
    have hsame : f.isFor q owner = f.isFor path theme := by
      obtain ⟨hpath, htheme⟩ := Bool.and_eq_true_iff.1 h
      have hcomponents : q.components = path.components := of_decide_eq_true hpath
      rw [Folded.isFor, Folded.isFor, Path.same, Path.same, hcomponents, of_decide_eq_true htheme]
    rw [foldInto, hsame]
    cases hf : f.isFor path theme with
    | true =>
      have hf' : Folded.isFor { f with result := applyEvent q kind f.result } path theme =
        true := hf
      simp [hf, hf']
    | false => simp [hf, ih]

end

theorem foldEvents_append (events : List Event) (e : Event) :
    foldEvents c a (events ++ [e]) =
      match e.path with
      | some q => foldInto c a q e.theme e.kind (foldEvents c a events)
      | none => foldEvents c a events := by
  rw [foldEvents, List.foldl_append]
  rfl

theorem kindsOf_append (events : List Event) (e : Event) :
    kindsOf (events ++ [e]) path theme =
      kindsOf events path theme ++ if e.isOf path theme then [e.kind] else [] := by
  rw [kindsOf, List.filter_append, List.map_append, List.filter_singleton]
  cases e.isOf path theme <;> rfl

/-- A file has one result if anything is recorded of it, and the result is a failure when one
stays. -/
theorem filter_foldEvents (c : RunContext) (a : Action) (path : Path) (theme : Nat)
    (events : List Event) :
    (kindsOf events path theme = [] ∧
      (foldEvents c a events).filter (·.isFor path theme) = []) ∨
    kindsOf events path theme ≠ [] ∧
      ∃ f, (foldEvents c a events).filter (·.isFor path theme) = [f] ∧
        (f.result.isFailure = true ↔ EventKind.Stays (kindsOf events path theme)) := by
  induction events using List.reverseRecOn with
  | nil => exact .inl ⟨rfl, rfl⟩
  | append_singleton events e ih =>
    rw [foldEvents_append, kindsOf_append]
    cases hq : e.path with
    | none =>
      have hof : e.isOf path theme = false := by simp [Event.isOf, hq]
      simpa [hof] using ih
    | some q =>
      have hof : e.isOf path theme = (q.same path && e.theme = theme) := by simp [Event.isOf, hq]
      dsimp only
      cases h : e.isOf path theme with
      | false =>
        rw [filter_foldInto_of_other e.kind _ (hof.symm.trans h)]
        simpa using ih
      | true =>
        refine .inr ⟨by simp, ?_⟩
        rw [filter_foldInto e.kind _ (hof.symm.trans h), if_pos rfl]
        rcases ih with ⟨hnone, hfilter⟩ | ⟨-, f, hfilter, hfails⟩
        · rw [hfilter]
          refine ⟨_, rfl, ?_⟩
          rw [isFailure_applyEvent_iff, EventKind.stays_append, hnone]
          simp [fresh, StepResult.isFailure, StepResult.withTheme, StepResult.make,
            Status.isFailure, EventKind.Stays]
        · rw [hfilter]
          refine ⟨_, rfl, ?_⟩
          rw [isFailure_applyEvent_iff, EventKind.stays_append, hfails]

/-- The results of a patch for a file. -/
def resultsFor (c : RunContext) (a : Action) (events : List Event) (path : Path) (theme : Nat) :
    List StepResult :=
  ((foldEvents c a events).filter (·.isFor path theme)).map fun f => settleMessage f.result

theorem sublist_resultsFor (report : Report) (s : Cursor) :
    (resultsFor c a report.events path theme).Sublist (foldReport c a report s).1 := by
  have hfiles : (resultsFor c a report.events path theme).Sublist
      ((foldEvents c a report.events).map fun f => settleMessage f.result) :=
    List.filter_sublist.map _
  refine hfiles.trans ?_
  unfold foldReport
  dsimp only
  rw [List.map_map]
  exact List.sublist_append_right ..

theorem resultsFor_eq (c : RunContext) (a : Action) (path : Path) (theme : Nat)
    (events : List Event) :
    (kindsOf events path theme = [] ∧ resultsFor c a events path theme = []) ∨
    ∃ r, resultsFor c a events path theme = [r] ∧
      (r.isFailure = true ↔ EventKind.Stays (kindsOf events path theme)) := by
  unfold resultsFor
  rcases filter_foldEvents c a path theme events with
    ⟨hnone, hfilter⟩ | ⟨-, f, hfilter, hfails⟩
  · rw [hfilter]
    exact .inl ⟨hnone, rfl⟩
  · rw [hfilter]
    exact .inr ⟨settleMessage f.result, rfl, by rw [isFailure_settleMessage, hfails]⟩

/-- A report gives each file that it says something of one result, which is a failure exactly when
the file is not skipped after its last failure. So when no run of a patch on a file may skip it, the
result is a failure exactly when the report holds a failure for the file, wherever it stands. -/
theorem failure_kept_iff (c : RunContext) (a : Action) (path : Path) (theme : Nat) :
    (∀ (report : Report) (s : Cursor),
      (resultsFor c a report.events path theme).Sublist (foldReport c a report s).1 ∧
        ((kindsOf report.events path theme = [] ∧ resultsFor c a report.events path theme = []) ∨
          ∃ r, resultsFor c a report.events path theme = [r] ∧
            (r.isFailure = true ↔ EventKind.Stays (kindsOf report.events path theme)))) ∧
    ∀ (b : Board) (o : PatchOptions) (patch : Patch) (site : Site),
      let events := (patch.applyTo b o site).report.events
      (∀ run ∈ patch.fanOut b site.tree, run.file.path.same path = true → run.file.theme = theme →
        ¬ run.MaySkip b site.tree) →
      kindsOf events path theme ≠ [] →
      ∃ r, resultsFor c a events path theme = [r] ∧
        (r.isFailure = true ↔ ∃ kind ∈ kindsOf events path theme, kind.isFailure = true) := by
  refine ⟨fun report s => ⟨sublist_resultsFor report s, resultsFor_eq c a path theme _⟩, ?_⟩
  intro b o patch site events hruns hsome
  have hskipped : EventKind.skipped ∉ kindsOf events path theme := by
    intro hm
    obtain ⟨e, he, hk⟩ := List.mem_map.1 hm
    obtain ⟨he, hof⟩ := List.mem_filter.1 he
    obtain ⟨run, hr, hpath, htheme, hmay⟩ := patch.skipped_applyTo site he hk
    rw [Event.isOf, hpath, htheme, Bool.and_eq_true_iff] at hof
    exact hruns run hr hof.1 (of_decide_eq_true hof.2) hmay
  rcases resultsFor_eq c a path theme events with ⟨hnone, -⟩ | ⟨r, hr, hfails⟩
  · exact absurd hnone hsome
  · exact ⟨r, hr, hfails.trans (EventKind.stays_iff_of_not_skipped hskipped)⟩

def patchAction : Action := .make .modification "/p"

theorem failure_kept_half :
    let events := (Patch.halfMissingPatch.applyTo Patch.plainBoard ⟨false, false⟩
      Patch.plainSite).report.events
    ∃ r, resultsFor plainContext patchAction events ⟨"/f"⟩ Theme.noCustom = [r] ∧
      r.isFailure = true := by
  intro events
  obtain ⟨-, hpatch⟩ := failure_kept_iff plainContext patchAction ⟨"/f"⟩ Theme.noCustom
  obtain ⟨r, hr, hfails⟩ := hpatch Patch.plainBoard ⟨false, false⟩ Patch.halfMissingPatch
    Patch.plainSite (by decide +kernel) (by decide +kernel)
  exact ⟨r, hr, hfails.2 (by decide +kernel)⟩

def twiceMissingPatch : Patch :=
  .modification ⟨.table [("file", .array [.table [("name", .string "/f")],
    .table [("name", .string "/f"), ("error", .string "skip")]])]⟩

theorem failure_skipped :
    let events := (twiceMissingPatch.applyTo Patch.plainBoard ⟨false, false⟩
      Patch.plainSite).report.events
    events = [⟨some ⟨"/f"⟩, Theme.noCustom, .missing⟩, ⟨some ⟨"/f"⟩, Theme.noCustom, .skipped⟩] ∧
      (resultsFor plainContext patchAction events ⟨"/f"⟩ Theme.noCustom).map (·.status) =
        [.skipped] := by
  decide +kernel

end Cursor

end Patchboard
