import Patchboard.Proofs.Patch.FanOut
import Patchboard.Proofs.Theme.Owner

set_option autoImplicit false

namespace Patchboard

namespace Boardmod

theorem theme_of_no_file {b : Board} {tree : Tree} {raw : String} {group : List Token}
    (hg : group ∈ groups (visited b raw tree)) (hk : ∀ t ∈ group, t.kind ≠ .file) :
    ∀ t ∈ group, t.theme = Theme.noCustom := by
  unfold visited at hg
  rw [groups_fannedOut, groups_map kind_locate, List.mem_append] at hg
  rcases hg with hg | hg
  · obtain ⟨read, hread, rfl⟩ := List.mem_map.1 hg
    intro t ht
    obtain ⟨t', ht', rfl⟩ := List.mem_map.1 ht
    have hmem := List.mem_flatten.2 ⟨read, hread, ht'⟩
    rw [flatten_groups] at hmem
    have hfile := hk _ ht
    rw [kind_locate] at hfile
    rw [locate_of_ne hfile, ← Token.bare_of_mem_tokens hmem]
    rfl
  · obtain ⟨located, hl, hc⟩ := List.mem_flatMap.1 hg
    have htail : ∀ t ∈ located.tail, t.kind ≠ .file := by
      obtain ⟨read, hread, rfl⟩ := List.mem_map.1 hl
      intro t ht
      rw [← List.map_tail] at ht
      obtain ⟨t', ht', rfl⟩ := List.mem_map.1 ht
      rw [kind_locate]
      exact kind_ne_of_mem_tail hread t' ht'
    obtain ⟨hfile, -⟩ := isGroup_of_mem_copyGroups htail hc
    exact absurd hfile (hk _ (List.mem_cons_self ..))

end Boardmod

def Report.Anchored (events : List Event) : Prop :=
  ∀ e ∈ events, e.theme ≠ Theme.noCustom → ∃ e' ∈ events, e'.path.isSome = true ∧ e'.theme = e.theme

namespace Report

variable {events new : List Event}

theorem Anchored.append (h : Anchored events) (h' : Anchored new) : Anchored (events ++ new) := by
  intro e he htheme
  rcases List.mem_append.1 he with he | he
  · obtain ⟨e', he', hfile⟩ := h e he htheme
    exact ⟨e', List.mem_append_left _ he', hfile⟩
  · obtain ⟨e', he', hfile⟩ := h' e he htheme
    exact ⟨e', List.mem_append_right _ he', hfile⟩

theorem anchored_of_noCustom (h : ∀ e ∈ new, e.theme = Theme.noCustom) : Anchored new :=
  fun e he htheme => absurd (h e he) htheme

theorem anchored_of_path (h : ∀ e ∈ new, e.path.isSome = true) : Anchored new :=
  fun e he _ => ⟨e, he, h e he, rfl⟩

end Report

variable {b : Board} {o : PatchOptions} {t : Tree} {patch : Patch}

namespace Patch
open Report

theorem theme_of_mem_strays {run : Run} (hr : run ∈ patch.fanOut b t) {e : Event}
    (he : e ∈ run.strays) : e.theme = Theme.noCustom ∨ e.theme = run.file.theme := by
  have hon : ∀ {edits : Edits} {file : ThemeCopy} {theme : Nat}, e ∈ (edits.on file theme).strays →
      e.theme = theme := by
    intro edits file theme he
    cases edits with
    | block document => cases he
    | stream body =>
      obtain ⟨token, -, rfl⟩ := List.mem_map.1 he
      rfl
  obtain ⟨x, -, rfl | hc⟩ := fanOut_cases hr
  · exact .inl (hon he)
  · obtain ⟨c, -, rfl⟩ := List.mem_map.1 hc
    exact .inr (hon he)

theorem anchored_carryOut {run : Run} (hr : run ∈ patch.fanOut b t) {p : Progress}
    (hp : Anchored p.report.events) : Anchored (run.carryOut b o p).report.events := by
  have hfile : ∀ kinds : List EventKind, Anchored (kinds.map run.event) := fun kinds =>
    anchored_of_path fun e he => by
      obtain ⟨kind, -, rfl⟩ := List.mem_map.1 he
      rfl
  unfold Run.carryOut
  cases run.edits.revise o.undo (p.site.tree.file? run.file.path) with
  | left kind =>
    refine hp.append fun e he htheme => ⟨run.event kind, List.mem_cons_self .., rfl, ?_⟩
    rcases List.mem_cons.1 he with rfl | he
    · rfl
    · exact ((theme_of_mem_strays hr he).resolve_left htheme).symm
  | made existed kinds text =>
    dsimp only
    split
    · exact hp.append (hfile _)
    · obtain ⟨new, hsave, hnew⟩ := Save.extends_save (b := b) (o := o) run.file.path
        run.file.theme text existed (p.extend ((.opened :: kinds).map run.event))
      rw [hsave]
      refine (hp.append (hfile _)).append (anchored_of_path fun e he => ?_)
      rw [(hnew e he).1]
      rfl

theorem anchored_perform {task : Task} (ht : task ∈ patch.tasks b t) {p : Progress}
    (hp : Anchored p.report.events) : Anchored (perform b o p task).report.events := by
  cases hrun : task.run? with
  | some run =>
    have hr : run ∈ patch.fanOut b t := by
      rw [← runs_eq_fanOut]
      exact List.mem_filterMap.2 ⟨task, ht, hrun⟩
    rw [perform_eq_carryOut ht hrun]
    exact anchored_carryOut hr hp
  | none =>
    cases task with
    | job job =>
      cases job with
      | nameless number => exact hp.append (anchored_of_noCustom (by simp))
      | block document copy => cases hrun
    | group tokens =>
      obtain ⟨raw, -, hg⟩ := group_of_mem_tasks ht
      have hk := kind_of_no_run ht hrun
      have hperform : perform b o p (.group tokens) = p.extend (tokens.map Boardmod.stray) :=
        Boardmod.runGroup_eq_strays hk p
      rw [hperform]
      refine hp.append (anchored_of_noCustom fun e he => ?_)
      obtain ⟨token, htoken, rfl⟩ := List.mem_map.1 he
      exact Boardmod.theme_of_no_file hg hk token htoken

theorem anchored_opening (patch : Patch) (s : Site) :
    Anchored (patch.opening b s).report.events := by
  have hnone : Anchored Report.empty.events := anchored_of_noCustom (by simp [Report.empty])
  cases patch with
  | modification d =>
    unfold opening
    dsimp only
    split
    · exact hnone.append (anchored_of_noCustom (by simp))
    · exact hnone
  | stream raw =>
    have hstart : Anchored (Boardmod.start raw s).progress.report.events := by
      unfold Boardmod.start
      dsimp only
      rw [Boardmod.reportProblems_eq]
      refine hnone.append (anchored_of_noCustom fun e he => ?_)
      obtain ⟨problem, -, rfl⟩ := List.mem_map.1 he
      rfl
    unfold opening
    dsimp only
    split
    · exact hstart
    · exact hstart.append (anchored_of_noCustom (by simp))

theorem anchored_applyTo (b : Board) (o : PatchOptions) (patch : Patch) (s : Site) :
    Anchored (patch.applyTo b o s).report.events := by
  have htasks : ∀ {tasks : List Task}, (∀ task ∈ tasks, task ∈ patch.tasks b s.tree) →
      ∀ {p : Progress}, Anchored p.report.events →
        Anchored (tasks.foldl (perform b o) p).report.events := by
    intro tasks
    induction tasks with
    | nil => exact fun _ _ hp => hp
    | cons task tasks ih =>
      intro ht p hp
      obtain ⟨hfirst, hrest⟩ := List.forall_mem_cons.1 ht
      exact ih hrest (anchored_perform hfirst hp)
  rw [applyTo_eq_foldl]
  exact htasks (fun _ h => h) (anchored_opening patch s)

theorem run_of_event {s : Site} {e : Event} (he : e ∈ (patch.applyTo b o s).report.events)
    {path : Path} (hpath : e.path = some path) :
    ∃ run ∈ patch.fanOut b s.tree, run.file.path = path ∧ run.file.theme = e.theme := by
  have hcarried : ∀ {runs : List Run} {p p' : Progress}, Carried b o runs p p' →
      runs ⊆ patch.fanOut b s.tree → e ∈ p'.report.events → e ∈ p.report.events ∨
        ∃ run ∈ runs, run.file.path = path ∧ run.file.theme = e.theme := by
    intro runs p p' h
    induction h with
    | done p => exact fun _ he => .inl he
    | @run run runs p p' rest ih =>
      intro hruns he
      obtain ⟨hfirst, hothers⟩ := List.cons_subset.1 hruns
      rcases ih hothers he with he | ⟨other, ho, hother⟩
      · obtain ⟨new, hrecords, hnew⟩ := run.extends_carryOut (b := b) (o := o) p
        rw [hrecords] at he
        rcases List.mem_append.1 he with he | he
        · exact .inl he
        · rcases hnew e he with ⟨hown, htheme⟩ | ⟨hstray, -⟩
          · exact .inr ⟨run, List.mem_cons_self .., Option.some.inj (hown.symm.trans hpath),
              htheme.symm⟩
          · rw [path_of_mem_strays hfirst hstray] at hpath
            cases hpath
      · exact .inr ⟨other, List.mem_cons_of_mem _ ho, hother⟩
    | @error new runs p p' hnew rest ih =>
      intro hruns he
      refine (ih hruns he).imp_left fun he => (List.mem_append.1 he).resolve_right fun he => ?_
      rw [(hnew e he).1] at hpath
      cases hpath
  refine (hcarried (carried_fanOut b o patch s) (List.Subset.refl _) he).resolve_left fun h => ?_
  simp [Report.empty] at h

theorem theme_of_mem_fanOut (ha : Theme.Apart b.themes) (hr : Theme.Rooted b.themes) {run : Run}
    (hrun : run ∈ patch.fanOut b t) : run.file.theme = Theme.owner b.themes run.file.path := by
  obtain ⟨x, -, rfl | hc⟩ := fanOut_cases hrun
  · rfl
  · obtain ⟨c, hholder, rfl⟩ := List.mem_map.1 hc
    rw [← ThemeCopy.ofFile_eq] at hholder
    exact ha.owner_of_candidate hr (List.mem_filter.1 hholder).1

theorem theme_of_event (ha : Theme.Apart b.themes) (hr : Theme.Rooted b.themes) {s : Site}
    {e : Event} (he : e ∈ (patch.applyTo b o s).report.events) {path : Path}
    (hpath : e.path = some path) : e.theme = Theme.owner b.themes path := by
  obtain ⟨run, hrun, rfl, htheme⟩ := run_of_event he hpath
  rw [← htheme]
  exact theme_of_mem_fanOut ha hr hrun

end Patch

end Patchboard
