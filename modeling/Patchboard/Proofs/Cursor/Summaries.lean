import Patchboard.Proofs.Cursor.Failures
import Patchboard.Proofs.Cursor.Index

set_option autoImplicit false

namespace Patchboard.Cursor

def fileResultsOf (c : RunContext) (a : Action) (site : Site) : List FileResult :=
  match site.tree.text? (patchFile a) with
  | .error _ => []
  | .ok raw =>
    match patch? a raw with
    | .error _ => []
    | .ok patch =>
      (foldEvents c a
        (patch.applyTo c.board ⟨c.options.testing, a.reverse⟩ site).report.events).map
        fun f => ⟨a, f.path, settleMessage f.result⟩

def recorded (c : RunContext) (a : Action) (site : Site) : List FileResult :=
  if a.kind = .modification then fileResultsOf c a site else []

/-- The results for files of at most `n` more actions. -/
def fileResults (c : RunContext) (actions : List Action) : Nat → Cursor → List FileResult
  | 0, _ => []
  | n + 1, s =>
    match actions[s.position]? with
    | none => []
    | some a => recorded c a s.site ++ fileResults c actions n (next c actions s).2

section
variable {c : RunContext} {a : Action} {s : Cursor}

theorem sublist_patchResults (report : Report) :
    ((foldEvents c a report.events).map fun f => settleMessage f.result).Sublist
      (patchResults c a report) := by
  have hfiles : ((foldEvents c a report.events).map fun f => settleMessage f.result).Sublist
      (report.events.filterMap (looseResult? a) ++ ((foldEvents c a report.events).map fun f =>
        { f with result := settleMessage f.result }).map (·.result)) := by
    rw [List.map_map]
    exact List.sublist_append_right _ _
  unfold patchResults
  dsimp only
  split
  · exact hfiles.trans (List.sublist_append_left _ _)
  · exact hfiles

theorem files_runModification :
    (runModification c a s).2.files = (fileResultsOf c a s.site).foldl FileResult.add s.files ∧
      ((fileResultsOf c a s.site).map (·.result)).Sublist (runModification c a s).1 := by
  unfold fileResultsOf
  cases ht : s.site.tree.text? (patchFile a) with
  | error e =>
    rw [runModification_unread fun raw => by simp [ht]]
    exact ⟨rfl, List.nil_sublist _⟩
  | ok raw =>
    cases hp : patch? a raw with
    | error problem =>
      rw [runModification_malformed ht hp]
      dsimp only
      rw [hp]
      exact ⟨rfl, List.nil_sublist _⟩
    | ok patch =>
      obtain ⟨hresults, -, hfiles⟩ := runModification_ok (c := c) ht hp
      dsimp only
      rw [hp, hfiles, hresults]
      constructor
      · rw [List.foldl_map, List.foldl_map]
        rfl
      · rw [List.map_map]
        exact sublist_patchResults _

theorem files_runAction (actions : List Action) (index : Nat) :
    (runAction c actions index a s).2.files =
        (recorded c a s.site).foldl FileResult.add s.files ∧
      ((recorded c a s.site).map (·.result)).Sublist (runAction c actions index a s).1 := by
  unfold recorded
  by_cases hk : a.kind = .modification
  · rw [if_pos hk, runAction_modification hk]
    exact files_runModification
  · rw [if_neg hk]
    exact ⟨(keepsFiles_runAction hk actions index).files, List.nil_sublist _⟩

theorem files_walk (actions : List Action) (n : Nat) :
    (walk c actions n s).2.files = (fileResults c actions n s).foldl FileResult.add s.files ∧
      ((fileResults c actions n s).map (·.result)).Sublist
        ((walk c actions n s).1.flatMap (·.results)) := by
  induction n generalizing s with
  | zero => exact ⟨rfl, List.nil_sublist _⟩
  | succ n ih =>
    cases h : actions[s.position]? with
    | none =>
      rw [walk_of_done _ h, fileResults, h]
      exact ⟨rfl, List.nil_sublist _⟩
    | some a =>
      obtain ⟨hfiles, hresults⟩ := files_runAction (c := c) (a := a)
        (s := { s with position := s.position + 1 }) actions s.position
      have hnext := next_some (c := c) actions h
      have hfiles' : (next c actions s).2.files =
          (recorded c a s.site).foldl FileResult.add s.files := by
        rw [hnext]
        exact hfiles
      obtain ⟨hrest, hsteps⟩ := ih (s := (next c actions s).2)
      rw [hfiles'] at hrest
      rw [fileResults, h]
      dsimp only
      rw [hnext] at hrest hsteps ⊢
      rw [walk_succ hnext, List.foldl_append, List.map_append, List.flatMap_cons]
      exact ⟨hrest, hresults.append hsteps⟩

end

theorem tabulates_walk (c : RunContext) (actions : List Action) (n : Nat) (site : Site) :
    Tabulates (walk c actions n (start site)).2.files (fileResults c actions n (start site)) := by
  rw [(files_walk actions n).1]
  exact tabulates_foldl _

/-- The summaries of a run hold the results for files that its steps give: one summary for each key,
of the file that came first, with all the operations in order, and failing when one of the results
is. Each is of one physical file, with all that its patch file has recorded for it, exactly when no
two files share a key, and so when the files of a patch file have names of their own. -/
theorem summaries_by_key (c : RunContext) (actions : List Action) (n : Nat) (site : Site) :
    let results := fileResults c actions n (start site)
    let files := (walk c actions n (start site)).2.files
    (results.map (·.result)).Sublist ((walk c actions n (start site)).1.flatMap (·.results)) ∧
    Ordered files ∧
    (∀ k, (∃ f, (k, f) ∈ files) ↔ ∃ r ∈ results, r.key = k) ∧
    (∀ k f, (k, f) ∈ files →
      let own := results.filter fun r => r.key = k
      (∃ r ∈ own.head?, f.path = r.path ∧ f.theme = r.result.theme) ∧
        f.operations = own.flatMap (fun r => r.result.operations) ∧
        (f.status.isFailure = true ↔ ∃ r ∈ own, r.result.isFailure = true)) ∧
    (Whole files results ↔ Apart results) ∧
    (NamedApart results → Apart results) := by
  have htable := tabulates_walk c actions n site
  refine ⟨(files_walk actions n).2, htable.ordered, htable.exists_iff, ?_, htable.whole_iff, ?_⟩
  · intro k f hm
    exact summary?_eq_some (htable.of_mem hm)
  · exact NamedApart.apart

def twoFilesSite (missing : String) : Site :=
  let patch := "<file>\n/a/x\n</file>\n<file>\n" ++ missing ++ "\n</file>\n"
  ⟨⟨[(["p"], .file (.text patch) 0o644), (["a"], .directory 0o755),
    (["a", "x"], .file (.text "u") 0o644)], []⟩, .byMode⟩

theorem summaries_by_key_two :
    let results := fileResults plainContext [streamAction] 1 (start (twoFilesSite "/b/y"))
    let files := (walk plainContext [streamAction] 1 (start (twoFilesSite "/b/y"))).2.files
    NamedApart results ∧ Apart results ∧ Whole files results ∧
      ∃ f, ("x||/p", f) ∈ files ∧ f.operations =
        (results.filter fun r => r.key = "x||/p").flatMap (fun r => r.result.operations) := by
  obtain ⟨-, -, hkeys, hown, hwhole, hapart⟩ :=
    summaries_by_key plainContext [streamAction] 1 (twoFilesSite "/b/y")
  have hnamed : NamedApart (fileResults plainContext [streamAction] 1
    (start (twoFilesSite "/b/y"))) := by decide +kernel
  obtain ⟨f, hf⟩ := (hkeys "x||/p").2 (by decide +kernel)
  exact ⟨hnamed, hapart hnamed, hwhole.2 (hapart hnamed), f, hf, (hown _ f hf).2.1⟩

/-- Two files of one name in two directories share a summary: that of the first, which was saved,
says that it is missing. -/
theorem summary_shared :
    let results := fileResults plainContext [streamAction] 1 (start (twoFilesSite "/b/x"))
    let files := (walk plainContext [streamAction] 1 (start (twoFilesSite "/b/x"))).2.files
    results.map (fun r => (r.path, r.result.status)) =
        [(⟨"/a/x"⟩, .saved), (⟨"/b/x"⟩, .missing)] ∧
      files.map (fun e => (e.1, e.2.path, e.2.status)) = [("x||/p", ⟨"/a/x"⟩, .missing)] ∧
      ¬Apart results ∧ ¬Whole files results := by
  have hshared : ¬Apart (fileResults plainContext [streamAction] 1
    (start (twoFilesSite "/b/x"))) := by decide +kernel
  refine ⟨by decide +kernel, by decide +kernel, hshared, ?_⟩
  rw [(tabulates_walk ..).whole_iff]
  exact hshared

end Patchboard.Cursor
