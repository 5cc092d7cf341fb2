import Mathlib.Data.List.Induction
import Patchboard.Proofs.Cursor.FailedFiles
import Patchboard.Proofs.Cursor.Summaries
import Patchboard.Proofs.Patch.Attribution

set_option autoImplicit false

/-!
The results of a run by theme. The table of the themes holds the results of all steps under a custom
theme, in order, and a theme has a row when it has a result. Every such result goes back to a file of
a patch or to a copy of the destination of an action, so a theme is touched exactly when one of those
lies in its directory.
-/

namespace Patchboard

theorem ThemeCopy.candidate_of_mem_ofAction {themes : List Theme} {t : Tree} {a : Action}
    {copy : ThemeCopy} (hc : copy ∈ ofAction themes t a) :
    ∃ destination, copy ∈ candidates themes destination := by
  unfold ofAction at hc
  split at hc
  · simp at hc
  · split at hc
    · split at hc
      · exact ⟨_, (List.mem_filter.1 hc).1⟩
      · simp at hc
    · simp at hc

namespace Cursor

section
variable {table : List (Nat × List StepResult)} {results : List StepResult} {r : StepResult}
  {theme : Nat}

def rowOf (table : List (Nat × List StepResult)) (theme : Nat) : List StepResult :=
  ((table.find? fun e => e.1 = theme).map (·.2)).getD []

theorem rowOf_cons (e : Nat × List StepResult) (table : List (Nat × List StepResult)) :
    rowOf (e :: table) theme = if e.1 = theme then e.2 else rowOf table theme := by
  unfold rowOf
  rw [List.find?_cons]
  by_cases h : e.1 = theme <;> simp [h]

theorem rowOf_of_not_mem (h : theme ∉ table.map (·.1)) : rowOf table theme = [] := by
  have hnone : table.find? (fun e => e.1 = theme) = none := by
    rw [List.find?_eq_none]
    intro e he heq
    exact h (List.mem_map.2 ⟨e, he, of_decide_eq_true heq⟩)
  rw [rowOf, hnone]
  rfl

theorem mem_ids_add : theme ∈ (addThemeResult r table).map (·.1) ↔
    r.theme = theme ∨ theme ∈ table.map (·.1) := by
  induction table with
  | nil => simp [addThemeResult, eq_comm]
  | cons e table ih =>
    rw [addThemeResult]
    split
    · rename_i heq
      rw [List.map_cons, List.map_cons, List.mem_cons]
      exact ⟨.inr, fun h => h.elim (fun hr => .inl (hr.symm.trans heq)) id⟩
    · split
      · rw [List.map_cons, List.mem_cons, eq_comm]
      · rw [List.map_cons, List.mem_cons, ih, List.map_cons, List.mem_cons, or_left_comm]

def Ascending (table : List (Nat × List StepResult)) : Prop :=
  (table.map (·.1)).Pairwise (· < ·)

theorem ascending_add (h : Ascending table) : Ascending (addThemeResult r table) := by
  induction table with
  | nil => exact List.pairwise_singleton _ _
  | cons e table ih =>
    obtain ⟨hfirst, hrest⟩ := List.pairwise_cons.1 h
    rw [addThemeResult]
    split
    · exact h
    · rename_i hne
      split
      · rename_i hlt
        refine List.pairwise_cons.2 ⟨fun id hid => ?_, h⟩
        rcases List.mem_cons.1 hid with rfl | hid
        · exact hlt
        · exact hlt.trans (hfirst id hid)
      · rename_i hge
        refine List.pairwise_cons.2 ⟨fun id hid => ?_, ih hrest⟩
        rcases mem_ids_add.1 hid with rfl | hid
        · exact Nat.lt_of_le_of_ne (Nat.not_lt.1 hge) (Ne.symm hne)
        · exact hfirst id hid

theorem rowOf_add (h : Ascending table) : rowOf (addThemeResult r table) theme =
    rowOf table theme ++ if r.theme = theme then [r] else [] := by
  induction table with
  | nil => rw [addThemeResult, rowOf_cons]; rfl
  | cons e table ih =>
    obtain ⟨id, rs⟩ := e
    obtain ⟨hfirst, hrest⟩ := List.pairwise_cons.1 h
    rw [addThemeResult]
    split
    · rename_i heq
      rw [rowOf_cons, rowOf_cons, heq]
      split <;> simp
    · rename_i hne
      split
      · rename_i hlt
        rw [rowOf_cons]
        split
        · rename_i htheme
          have hnot : theme ∉ ((id, rs) :: table).map (·.1) := by
            rw [List.map_cons, List.mem_cons, not_or]
            refine ⟨fun heq => hne (htheme.trans heq), fun hm => ?_⟩
            exact absurd (hfirst theme hm) (Nat.lt_asymm (htheme ▸ hlt))
          rw [rowOf_of_not_mem hnot, List.nil_append]
        · rw [List.append_nil]
      · rw [rowOf_cons, rowOf_cons, ih hrest]
        split
        · rename_i htheme
          rw [if_neg fun heq => hne (heq.trans htheme.symm), List.append_nil]
        · rfl

/-- The table of some results: in the order of the ids, the results of each theme in order. -/
structure ByTheme (table : List (Nat × List StepResult)) (results : List StepResult) : Prop where
  ascending : Ascending table
  ids : ∀ theme, theme ∈ table.map (·.1) ↔ ∃ r ∈ results, r.theme = theme
  rows : ∀ theme, rowOf table theme = results.filter fun r => r.theme = theme

theorem byTheme_foldl (results : List StepResult) :
    ByTheme (results.foldl (fun all r => addThemeResult r all) []) results := by
  induction results using List.reverseRecOn with
  | nil => exact ⟨List.Pairwise.nil, by simp, fun _ => rfl⟩
  | append_singleton results r ih =>
    rw [List.foldl_append]
    refine ⟨ascending_add ih.ascending, fun theme => ?_, fun theme => ?_⟩
    · refine mem_ids_add.trans ?_
      rw [ih.ids]
      simp [or_comm]
    · refine (rowOf_add ih.ascending).trans ?_
      rw [ih.rows, List.filter_append, List.filter_singleton]
      by_cases h : r.theme = theme <;> simp [h]

end

section
variable {c : RunContext} {a : Action} {path : Path} {theme : Nat}

theorem theme_applyEvent (path : Path) (kind : EventKind) (r : StepResult) :
    (applyEvent path kind r).theme = r.theme := by
  cases kind with
  | opened | replace outcome | failure outcome | missing | skipped | error problem => rfl
  | saved | chmodNeeded =>
    unfold applyEvent
    dsimp only
    split <;> rfl

theorem theme_settleMessage (r : StepResult) : (settleMessage r).theme = r.theme := by
  unfold settleMessage
  split <;> rfl

def Folded.IsFrom (events : List Event) (f : Folded) : Prop :=
  f.result.theme = f.theme ∧ ∃ e ∈ events, e.path = some f.path ∧ e.theme = f.theme

theorem isFrom_foldInto {events : List Event} {e : Event} {folded : List Folded}
    (he : e ∈ events) (hpath : e.path = some path) (h : ∀ f ∈ folded, f.IsFrom events) :
    ∀ f ∈ foldInto c a path e.theme e.kind folded, f.IsFrom events := by
  induction folded with
  | nil =>
    intro f hf
    rw [foldInto, List.mem_singleton] at hf
    subst hf
    exact ⟨theme_applyEvent .., e, he, hpath, rfl⟩
  | cons first folded ih =>
    obtain ⟨hfirst, hrest⟩ := List.forall_mem_cons.1 h
    rw [foldInto]
    split
    · refine List.forall_mem_cons.2 ⟨?_, hrest⟩
      exact ⟨(theme_applyEvent ..).trans hfirst.1, hfirst.2⟩
    · exact List.forall_mem_cons.2 ⟨hfirst, ih hrest⟩

theorem isFrom_foldEvents (events : List Event) :
    ∀ f ∈ foldEvents c a events, f.IsFrom events := by
  induction events using List.reverseRecOn with
  | nil => simp [foldEvents]
  | append_singleton events e ih =>
    have hold : ∀ f ∈ foldEvents c a events, f.IsFrom (events ++ [e]) := by
      intro f hf
      obtain ⟨htheme, e', he', hfrom⟩ := ih f hf
      exact ⟨htheme, e', List.mem_append_left _ he', hfrom⟩
    rw [foldEvents_append]
    cases hpath : e.path with
    | none => exact hold
    | some path => exact isFrom_foldInto (by simp) hpath hold

theorem exists_folded_of_event {events : List Event} {e : Event} (he : e ∈ events)
    (hpath : e.path.isSome = true) : ∃ f ∈ foldEvents c a events, f.result.theme = e.theme := by
  obtain ⟨path, hpath⟩ := Option.isSome_iff_exists.1 hpath
  have hof : e.isOf path e.theme = true := by simp [Event.isOf, hpath, Path.same]
  have hkinds : kindsOf events path e.theme ≠ [] :=
    List.ne_nil_of_mem (List.mem_map.2 ⟨e, List.mem_filter.2 ⟨he, hof⟩, rfl⟩)
  rcases filter_foldEvents c a path e.theme events with ⟨hnone, -⟩ | ⟨-, f, hfilter, -⟩
  · exact absurd hnone hkinds
  · have hf : f ∈ (foldEvents c a events).filter (·.isFor path e.theme) := by simp [hfilter]
    obtain ⟨hf, hfor⟩ := List.mem_filter.1 hf
    refine ⟨f, hf, (isFrom_foldEvents events f hf).1.trans ?_⟩
    exact of_decide_eq_true (Bool.and_eq_true_iff.1 hfor).2

theorem exists_folded_of_result {report : Report} (ha : Report.Anchored report.events)
    {r : StepResult} (hr : r ∈ patchResults c a report) (htheme : r.theme ≠ Theme.noCustom) :
    ∃ f ∈ foldEvents c a report.events, f.result.theme = r.theme := by
  have hresults : r ∈ report.events.filterMap (looseResult? a) ++
      (foldEvents c a report.events).map (fun f => settleMessage f.result) := by
    unfold patchResults at hr
    dsimp only at hr
    rw [List.map_map] at hr
    split at hr
    · refine (List.mem_append.1 hr).resolve_right fun hr => ?_
      rw [List.mem_singleton.1 hr] at htheme
      exact htheme rfl
    · exact hr
  rcases List.mem_append.1 hresults with hr | hr
  · obtain ⟨e, he, hloose⟩ := List.mem_filterMap.1 hr
    have hsame : r.theme = e.theme := by
      unfold looseResult? at hloose
      split at hloose
      · obtain rfl := Option.some.inj hloose
        rfl
      · cases hloose
    obtain ⟨e', he', hpath, hother⟩ := ha e he (hsame ▸ htheme)
    rw [hsame, ← hother]
    exact exists_folded_of_event he' hpath
  · obtain ⟨f, hf, rfl⟩ := List.mem_map.1 hr
    exact ⟨f, hf, (theme_settleMessage f.result).symm⟩

end

def copyResults (c : RunContext) (a : Action) (s : Cursor) : List FileResult :=
  match a.destination with
  | none => []
  | some destination =>
    let s := (runAt c a destination Theme.noCustom s).2
    let copies := ThemeCopy.ofAction c.board.themes s.site.tree a
    (copies.zip (runAll c a copies s).1).map fun x => ⟨a, x.1.path, x.2⟩

/-- The results of a modification for its files, or of a tree action at the copies of its
destination. -/
def placed (c : RunContext) (a : Action) (s : Cursor) : List FileResult :=
  if a.kind = .modification then fileResultsOf c a s.site else copyResults c a s

/-- The same for at most `n` more actions. -/
def placedResults (c : RunContext) (actions : List Action) : Nat → Cursor → List FileResult
  | 0, _ => []
  | n + 1, s =>
    match actions[s.position]? with
    | none => []
    | some a =>
      placed c a { s with position := s.position + 1 } ++
        placedResults c actions n (next c actions s).2

section
variable {c : RunContext} {a : Action} {s : Cursor} {r : StepResult}

theorem theme_runAt (destination : Path) (theme : Nat) :
    (runAt c a destination theme s).1.theme = theme := by
  unfold runAt
  dsimp only
  split
  · rfl
  · split
    · rfl
    · split <;> rfl

theorem length_runAll (copies : List ThemeCopy) :
    (runAll c a copies s).1.length = copies.length := by
  induction copies generalizing s with
  | nil => rfl
  | cons copy copies ih => exact congrArg Nat.succ ih

theorem theme_of_mem_zip_runAll {copies : List ThemeCopy} {x : ThemeCopy × StepResult}
    (hx : x ∈ copies.zip (runAll c a copies s).1) : x.1 ∈ copies ∧ x.2.theme = x.1.theme := by
  refine ⟨(List.of_mem_zip hx).1, ?_⟩
  induction copies generalizing s with
  | nil => simp at hx
  | cons copy copies ih =>
    rcases List.mem_cons.1 hx with rfl | hx
    · exact theme_runAt ..
    · exact ih hx

theorem runTree_eq {destination : Path} (hd : a.destination = some destination) :
    (runTree c a s).1 =
      (runAt c a destination Theme.noCustom s).1 :: (copyResults c a s).map (·.result) := by
  unfold runTree copyResults
  rw [hd]
  dsimp only
  rw [List.map_map]
  exact congrArg (List.cons _) (List.map_snd_zip (Nat.le_of_eq (length_runAll _))).symm

theorem copy_of_mem_copyResults {f : FileResult} (hf : f ∈ copyResults c a s) :
    ∃ destination, ∃ copy ∈ ThemeCopy.candidates c.board.themes destination,
      f.path = copy.path ∧ f.result.theme = copy.theme := by
  unfold copyResults at hf
  split at hf
  · simp at hf
  · obtain ⟨x, hx, rfl⟩ := List.mem_map.1 hf
    obtain ⟨hcopy, htheme⟩ := theme_of_mem_zip_runAll hx
    obtain ⟨destination, hc⟩ := ThemeCopy.candidate_of_mem_ofAction hcopy
    exact ⟨destination, x.1, hc, rfl, htheme⟩

theorem runTree_of_none (hd : a.destination = none) : copyResults c a s = [] ∧
    ∀ r ∈ (runTree c a s).1, r.theme = Theme.noCustom := by
  unfold copyResults runTree
  rw [hd]
  exact ⟨rfl, by simp [result, StepResult.withProblem, StepResult.make]⟩

theorem runAction_tree (hk : a.kind.isFileTree = true) (actions : List Action) (index : Nat) :
    runAction c actions index a s = runTree c a s := by
  unfold runAction
  cases hkind : a.kind with
  | createFile | createDir | requireFile | requireDir | removeFile | removeDir | moveFile
  | moveDir => rfl
  | modification | code | database | hook | credits | requires | readme | license | redirect
  | error | chmod =>
    rw [hkind] at hk
    cases hk

theorem copyResults_of_no_tree (hk : a.kind.isFileTree = false) : copyResults c a s = [] := by
  have hcopies (t : Tree) : ThemeCopy.ofAction c.board.themes t a = [] := by
    have hkinds : (a.kind.isRequire || a.kind.isRemoval) = false := by
      cases hkind : a.kind with
      | requireFile | requireDir | removeFile | removeDir =>
        rw [hkind] at hk
        cases hk
      | createFile | createDir | moveFile | moveDir | modification | code | database | hook
      | credits | requires | readme | license | redirect | error | chmod => rfl
    unfold ThemeCopy.ofAction
    rw [hkinds]
    rfl
  unfold copyResults
  split
  · rfl
  · dsimp only
    rw [hcopies]
    rfl

theorem theme_runDocument (actions : List Action) (index : Nat) :
    (runDocument c actions index a s).1.theme = Theme.noCustom := by
  unfold runDocument
  split
  · split
    · split <;> rfl
    · rfl
  · rfl

theorem theme_runDeferred : (runDeferred c a s).1.theme = Theme.noCustom := by
  unfold runDeferred
  split <;> rfl

theorem theme_runRequires : (runRequires c a s).theme = Theme.noCustom := by
  unfold runRequires
  split
  · unfold requirement
    dsimp only
    split
    · rfl
    · rfl
    · rfl
    · split <;> rfl
    · rfl
  · rfl

theorem theme_runChmod : ∀ r ∈ (runChmod c a s).1, r.theme = Theme.noCustom := by
  unfold runChmod
  split
  · simp
  · dsimp only
    split
    · exact List.forall_mem_singleton.2 rfl
    · split <;> exact List.forall_mem_singleton.2 rfl

theorem theme_runAction (hk : a.kind.isFileTree = false) (hm : a.kind ≠ .modification)
    (actions : List Action) (index : Nat) :
    ∀ r ∈ (runAction c actions index a s).1, r.theme = Theme.noCustom := by
  unfold runAction
  cases hkind : a.kind with
  | createFile | createDir | requireFile | requireDir | removeFile | removeDir | moveFile
  | moveDir =>
    rw [hkind] at hk
    cases hk
  | modification => exact absurd hkind hm
  | chmod => exact theme_runChmod
  | requires => exact List.forall_mem_singleton.2 theme_runRequires
  | readme | license => exact List.forall_mem_singleton.2 (theme_runDocument actions index)
  | error => exact List.forall_mem_singleton.2 rfl
  | code | database | hook | credits | redirect =>
    exact List.forall_mem_singleton.2 theme_runDeferred

end

/-- Some results of files or copies are among the results of a run, each under the theme that owns
its place, and every custom theme that has a result is the theme of one of them. -/
structure Attributed (themes : List Theme) (files : List FileResult) (results : List StepResult) :
    Prop where
  sublist : (files.map (·.result)).Sublist results
  owned : ∀ f ∈ files, f.result.theme = Theme.owner themes f.path
  covered : ∀ r ∈ results, r.theme ≠ Theme.noCustom → ∃ f ∈ files, f.result.theme = r.theme

section
variable {c : RunContext} {a : Action} {s : Cursor} {themes : List Theme}
  {files files' : List FileResult} {results results' : List StepResult}

theorem Attributed.append (h : Attributed themes files results)
    (h' : Attributed themes files' results') :
    Attributed themes (files ++ files') (results ++ results') := by
  refine ⟨?_, List.forall_mem_append.2 ⟨h.owned, h'.owned⟩, fun r hr htheme => ?_⟩
  · rw [List.map_append]
    exact h.sublist.append h'.sublist
  · rcases List.mem_append.1 hr with hr | hr
    · obtain ⟨f, hf, hsame⟩ := h.covered r hr htheme
      exact ⟨f, List.mem_append_left _ hf, hsame⟩
    · obtain ⟨f, hf, hsame⟩ := h'.covered r hr htheme
      exact ⟨f, List.mem_append_right _ hf, hsame⟩

theorem attributed_of_noCustom (h : ∀ r ∈ results, r.theme = Theme.noCustom) :
    Attributed themes [] results :=
  ⟨List.nil_sublist _, by simp, fun r hr htheme => absurd (h r hr) htheme⟩

variable (ha : Theme.Apart c.board.themes) (hr : Theme.Rooted c.board.themes)
include ha hr

theorem attributed_runModification :
    Attributed c.board.themes (fileResultsOf c a s.site) (runModification c a s).1 := by
  obtain ⟨-, hsublist⟩ := files_runModification (c := c) (a := a) (s := s)
  revert hsublist
  unfold fileResultsOf
  cases ht : s.site.tree.text? (patchFile a) with
  | error e =>
    rw [runModification_unread fun raw => by simp [ht]]
    exact fun _ => attributed_of_noCustom (List.forall_mem_singleton.2 rfl)
  | ok raw =>
    dsimp only
    cases hp : patch? a raw with
    | error problem =>
      rw [runModification_malformed ht hp]
      exact fun _ => attributed_of_noCustom (List.forall_mem_singleton.2 rfl)
    | ok patch =>
      dsimp only
      rw [(runModification_ok (c := c) ht hp).1]
      refine fun hsublist => ⟨hsublist, fun f hf => ?_, fun r hr' htheme => ?_⟩
      · obtain ⟨folded, hfolded, rfl⟩ := List.mem_map.1 hf
        obtain ⟨htheme, e, he, hpath, hsame⟩ := isFrom_foldEvents _ folded hfolded
        rw [theme_settleMessage, htheme, ← hsame]
        exact Patch.theme_of_event ha hr he hpath
      · have hanchored := Patch.anchored_applyTo c.board ⟨c.options.testing, a.reverse⟩ patch s.site
        obtain ⟨f, hf, hsame⟩ := exists_folded_of_result hanchored hr' htheme
        exact ⟨_, List.mem_map_of_mem hf, (theme_settleMessage _).trans hsame⟩

theorem attributed_runTree :
    Attributed c.board.themes (copyResults c a s) (runTree c a s).1 := by
  cases hd : a.destination with
  | none =>
    obtain ⟨hnone, hresults⟩ := runTree_of_none (c := c) (s := s) hd
    rw [hnone]
    exact attributed_of_noCustom hresults
  | some destination =>
    rw [runTree_eq hd]
    refine ⟨List.sublist_cons_self .., fun f hf => ?_, fun r hr' htheme => ?_⟩
    · obtain ⟨_, copy, hc, hpath, htheme⟩ := copy_of_mem_copyResults hf
      rw [htheme, hpath]
      exact ha.owner_of_candidate hr hc
    · rcases List.mem_cons.1 hr' with rfl | hr'
      · exact absurd (theme_runAt ..) htheme
      · obtain ⟨f, hf, rfl⟩ := List.mem_map.1 hr'
        exact ⟨f, hf, rfl⟩

theorem attributed_runAction (actions : List Action) (index : Nat) :
    Attributed c.board.themes (placed c a s) (runAction c actions index a s).1 := by
  unfold placed
  by_cases hm : a.kind = .modification
  · rw [if_pos hm, runAction_modification hm]
    exact attributed_runModification ha hr
  · rw [if_neg hm]
    cases hk : a.kind.isFileTree with
    | true =>
      rw [runAction_tree hk]
      exact attributed_runTree ha hr
    | false =>
      rw [copyResults_of_no_tree hk]
      exact attributed_of_noCustom (theme_runAction hk hm actions index)

theorem attributed_walk (actions : List Action) (n : Nat) :
    Attributed c.board.themes (placedResults c actions n s)
      ((walk c actions n s).1.flatMap (·.results)) := by
  have hnone : Attributed c.board.themes [] [] := attributed_of_noCustom (by simp)
  induction n generalizing s with
  | zero => exact hnone
  | succ n ih =>
    cases h : actions[s.position]? with
    | none =>
      rw [walk_of_done _ h, placedResults, h]
      exact hnone
    | some a =>
      have hnext := next_some (c := c) actions h
      rw [placedResults, h, walk_succ hnext, List.flatMap_cons]
      dsimp only
      rw [hnext]
      exact (attributed_runAction ha hr actions s.position).append ih

end

section
variable {c : RunContext} {s : Cursor}

theorem themeResults_walk (actions : List Action) (n : Nat) :
    (walk c actions n s).2.themeResults =
      (((walk c actions n s).1.flatMap (·.results)).filter StepResult.isCustom).foldl
        (fun all r => addThemeResult r all) s.themeResults := by
  induction n generalizing s with
  | zero => rfl
  | succ n ih =>
    cases h : actions[s.position]? with
    | none =>
      rw [walk_of_done _ h]
      rfl
    | some a =>
      have hkeeps := (keeps_runAction (c := c) (a := a) (s := { s with position := s.position + 1 })
        actions s.position).themeResults
      rw [walk_succ (next_some actions h), ih, List.flatMap_cons, List.filter_append,
        List.foldl_append]
      dsimp only [record]
      rw [hkeeps]

theorem byTheme_walk (actions : List Action) (n : Nat) (site : Site) :
    ByTheme (walk c actions n (start site)).2.themeResults
      (((walk c actions n (start site)).1.flatMap (·.results)).filter StepResult.isCustom) := by
  rw [themeResults_walk]
  exact byTheme_foldl _

variable {results : List StepResult} {id : Nat}

theorem resultsOf_eq (h : ByTheme s.themeResults (results.filter StepResult.isCustom))
    (hid : id ≠ Theme.noCustom) : s.resultsOf id = results.filter fun r => r.theme = id := by
  refine (h.rows id).trans ?_
  rw [List.filter_filter]
  refine List.filter_congr fun r _ => ?_
  by_cases hr : r.theme = id <;> simp [StepResult.isCustom, hr, hid]

theorem mem_themesTouched_iff (h : ByTheme s.themeResults (results.filter StepResult.isCustom)) :
    id ∈ s.themesTouched ↔ id ≠ Theme.noCustom ∧ ∃ r ∈ results, r.theme = id := by
  refine (h.ids id).trans ?_
  simp only [List.mem_filter, StepResult.isCustom, decide_eq_true_iff]
  constructor
  · rintro ⟨r, ⟨hr, hcustom⟩, rfl⟩
    exact ⟨hcustom, r, hr, rfl⟩
  · rintro ⟨hcustom, r, hr, rfl⟩
    exact ⟨r, ⟨hr, hcustom⟩, rfl⟩

theorem Attributed.mem_themesTouched_iff {themes : List Theme} {files : List FileResult}
    (h : Attributed themes files results)
    (ht : ByTheme s.themeResults (results.filter StepResult.isCustom)) :
    id ∈ s.themesTouched ↔
      id ≠ Theme.noCustom ∧ ∃ f ∈ files, Theme.owner themes f.path = id := by
  rw [Cursor.mem_themesTouched_iff ht]
  refine and_congr_right fun hid => ⟨?_, ?_⟩
  · rintro ⟨r, hr, rfl⟩
    obtain ⟨f, hf, hsame⟩ := h.covered r hr hid
    exact ⟨f, hf, (h.owned f hf).symm.trans hsame⟩
  · rintro ⟨f, hf, rfl⟩
    exact ⟨f.result, h.sublist.subset (List.mem_map_of_mem hf), h.owned f hf⟩

end

/-- A path belongs to no custom theme when none holds it, or when one does whose id stands for none.
In a run over a board whose custom themes lie apart and whose default theme is at a place that is
written out, the results for the files of patches and for the copies of destinations are among those
of the steps, each under the theme that owns its place; those in a custom theme are in its row, in
order; and the themes touched are, in ascending order, the custom themes that hold one of them, but
for one whose id stands for none. -/
theorem themes_by_owner {text : String} {config : Config} (hc : Config.parse text = .ok config) :
    (∀ p, Theme.owner config.themes p = Theme.noCustom ↔
      (∀ t ∈ Theme.custom config.themes, t.contains p = false) ∨
        ∃ t ∈ Theme.custom config.themes, t.id = Theme.noCustom ∧ t.contains p = true) ∧
    (Theme.Apart config.themes → config.defaultThemeDirectory.text ≠ "" →
      ∀ (c : RunContext) (actions : List Action) (n : Nat) (site : Site),
        c.board.themes = config.themes →
        let run := walk c actions n (start site)
        let files := placedResults c actions n (start site)
        (files.map (·.result)).Sublist (run.1.flatMap (·.results)) ∧
        (∀ f ∈ files, f.result.theme = Theme.owner config.themes f.path) ∧
        run.2.themesTouched.Pairwise (· < ·) ∧
        (∀ id ∈ run.2.themesTouched,
          id ≠ Theme.noCustom ∧ ∃ t ∈ Theme.custom config.themes, t.id = id) ∧
        ∀ t ∈ Theme.custom config.themes, t.id ≠ Theme.noCustom →
          ((files.filter fun f => t.contains f.path).map (·.result)).Sublist
              (run.2.resultsOf t.id) ∧
            (t.id ∈ run.2.themesTouched ↔ ∃ f ∈ files, t.contains f.path = true)) := by
  refine ⟨fun p => Theme.owner_eq_noCustom_iff config.ordered_themes, ?_⟩
  intro hapart hdirectory c actions n site hthemes
  dsimp only
  rw [← hthemes] at hapart ⊢
  have hrooted : Theme.Rooted c.board.themes := hthemes ▸ Config.rooted_themes hdirectory
  have hfrom := attributed_walk (s := start site) hapart hrooted actions n
  have htable := byTheme_walk (c := c) actions n site
  refine ⟨hfrom.sublist, hfrom.owned, htable.ascending, fun id hid => ?_, fun t ht hid => ?_⟩
  · obtain ⟨hcustom, f, -, howner⟩ := (hfrom.mem_themesTouched_iff htable).1 hid
    obtain ⟨t, ht, hsame, -⟩ := (hapart.owner_eq_iff hcustom).1 howner
    exact ⟨hcustom, t, ht, hsame⟩
  · have hplace (p : Path) : Theme.owner c.board.themes p = t.id ↔ t.contains p = true :=
      hapart.owner_eq_id_iff (hthemes ▸ Config.nodup_ids hc) ht hid
    constructor
    · have hplaces : (placedResults c actions n (start site)).filter (fun f => t.contains f.path) =
          (placedResults c actions n (start site)).filter
            ((fun r => decide (r.theme = t.id)) ∘ FileResult.result) := by
        refine List.filter_congr fun f hf => Bool.eq_iff_iff.2 ?_
        rw [Function.comp_apply, decide_eq_true_iff, hfrom.owned f hf, hplace]
      rw [resultsOf_eq htable hid, hplaces, ← List.filter_map]
      exact hfrom.sublist.filter _
    · rw [hfrom.mem_themesTouched_iff htable, and_iff_right hid]
      simp only [hplace]

def boardText (themes : String) : String :=
  "product_version = \"1\"\nboard_dir = \"\"\nthemes = [" ++ themes ++ "]"

theorem config_of_boardText (themes : String) (settings : List Theme)
    (h : (Config.parse (boardText themes)).toOption.map (fun config =>
      (config.boardDirectory, config.themeSettings)) = some (⟨""⟩, settings))
    (hs : settings ≠ []) (ho : settings.Pairwise fun t t' => t.id ≤ t'.id) :
    ∃ config, Config.parse (boardText themes) = .ok config ∧ config.themes = settings.map fun t =>
      { t with directory := if t.directory.isAbsolute then t.directory else
        (⟨""⟩ : Path).join t.directory } := by
  cases hc : Config.parse (boardText themes) with
  | error f => simp [hc, Except.toOption] at h
  | ok config =>
    rw [hc] at h
    obtain ⟨hboard, hsettings⟩ := Prod.ext_iff.1 (Option.some.inj h)
    dsimp only at hboard hsettings
    subst hsettings
    refine ⟨config, rfl, (Config.themes_of_ordered hs ho).trans ?_⟩
    unfold Config.resolveDirectory
    rw [hboard]

def boardContext (themes : List Theme) : RunContext :=
  ⟨⟨.empty, themes, none, false⟩, fun _ _ => .ok none, ⟨.install, false, "english"⟩⟩

def copiedSite : Site :=
  ⟨⟨[(["p"], .file (.text "<file>\n/t/d/x\n</file>\n") 0o644), (["t"], .directory 0o755),
    (["t", "d"], .directory 0o755), (["t", "o"], .directory 0o755),
    (["t", "d", "x"], .file (.text "a") 0o644), (["t", "o", "x"], .file (.text "b") 0o644)], []⟩,
    .byMode⟩

theorem themes_by_owner_copied :
    ∃ config, Config.parse (boardText "[1, \"default\", \"/t/d\"], [2, \"other\", \"/t/o\"]") =
        .ok config ∧ Theme.Apart config.themes ∧ config.defaultThemeDirectory.text ≠ "" ∧
      let run := walk (boardContext config.themes) [streamAction] 1 (start copiedSite)
      2 ∈ run.2.themesTouched := by
  obtain ⟨config, hc, hthemes⟩ := config_of_boardText
    "[1, \"default\", \"/t/d\"], [2, \"other\", \"/t/o\"]"
    [⟨1, "default", ⟨"/t/d"⟩⟩, ⟨2, "other", ⟨"/t/o"⟩⟩] (by decide +kernel) (by simp) (by decide)
  have hapart : Theme.Apart config.themes := by
    rw [hthemes]
    decide +kernel
  have hdirectory : config.defaultThemeDirectory = ⟨"/t/d"⟩ := by
    unfold Config.defaultThemeDirectory
    rw [hthemes]
    rfl
  have hwritten : config.defaultThemeDirectory.text ≠ "" := by
    rw [hdirectory]
    decide
  obtain ⟨-, hrun⟩ := themes_by_owner hc
  obtain ⟨-, -, -, -, htouched⟩ := hrun hapart hwritten (boardContext config.themes)
    [streamAction] 1 copiedSite rfl
  obtain ⟨-, hiff⟩ := htouched ⟨2, "other", ⟨"/t/o"⟩⟩ (by rw [hthemes]; decide +kernel) (by decide)
  refine ⟨config, hc, hapart, hwritten, hiff.2 ?_⟩
  rw [hthemes]
  decide +kernel

/-- A custom theme with the id of no theme holds a patched file and is not touched; and when the
directory of the default theme is empty, a file that lies in no theme counts as the copy of itself in
each. -/
theorem theme_untouched :
    (∃ config, Config.parse (boardText "[0, \"other\", \"/t/o\"], [1, \"default\", \"/t/d\"]") =
        .ok config ∧ Theme.Apart config.themes ∧ config.defaultThemeDirectory = ⟨"/t/d"⟩ ∧
      let t : Theme := ⟨0, "other", ⟨"/t/o"⟩⟩
      t ∈ Theme.custom config.themes ∧ t.contains ⟨"/t/o/x"⟩ = true ∧
        Theme.owner config.themes ⟨"/t/o/x"⟩ = Theme.noCustom ∧
        let start := start copiedSite
        (∃ f ∈ placedResults (boardContext config.themes) [streamAction] 1 start,
          f.path = ⟨"/t/o/x"⟩) ∧
        (walk (boardContext config.themes) [streamAction] 1 start).2.themesTouched = []) ∧
    ∃ config, Config.parse (boardText "[1, \"default\", \"\"], [2, \"other\", \"/t/o\"]") =
        .ok config ∧ Theme.Apart config.themes ∧ config.defaultThemeDirectory = ⟨""⟩ ∧
      let start := start copiedSite
      (∀ f ∈ placedResults (boardContext config.themes) [streamAction] 1 start,
        Theme.owner config.themes f.path = Theme.noCustom) ∧
      (walk (boardContext config.themes) [streamAction] 1 start).2.themesTouched = [2] := by
  constructor
  · obtain ⟨config, hc, hthemes⟩ := config_of_boardText
      "[0, \"other\", \"/t/o\"], [1, \"default\", \"/t/d\"]"
      [⟨0, "other", ⟨"/t/o"⟩⟩, ⟨1, "default", ⟨"/t/d"⟩⟩] (by decide +kernel) (by simp) (by decide)
    refine ⟨config, hc, ?_⟩
    unfold Config.defaultThemeDirectory
    rw [hthemes]
    exact ⟨by decide +kernel, rfl, by decide +kernel, by decide +kernel, by decide +kernel,
      by decide +kernel, by decide +kernel⟩
  · obtain ⟨config, hc, hthemes⟩ := config_of_boardText
      "[1, \"default\", \"\"], [2, \"other\", \"/t/o\"]"
      [⟨1, "default", ⟨""⟩⟩, ⟨2, "other", ⟨"/t/o"⟩⟩] (by decide +kernel) (by simp) (by decide)
    refine ⟨config, hc, ?_⟩
    unfold Config.defaultThemeDirectory
    rw [hthemes]
    exact ⟨by decide +kernel, rfl, by decide +kernel, by decide +kernel⟩

end Cursor

end Patchboard
