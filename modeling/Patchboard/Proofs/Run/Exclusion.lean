import Mathlib.Logic.Function.Basic
import Mathlib.Logic.Relation
import Patchboard.Proofs.Run.Files
import Patchboard.Proofs.Tree.Removal

set_option autoImplicit false

/-!
Runs that contend for the marker. The operations that claims and clears are made of happen in any
order. The marker is made by one operation that fails when it is there, so it never has two keepers;
it is removed without a look at what it holds, so its holder alone may ask for that. A claim that
cannot write the marker it has made leaves it there.
-/

namespace Patchboard.Run
open Path Tree StateLayout

variable {l : StateLayout} {t t' : Tree} {run : String}

/-- The file at the place of the marker, whether or not a path leads there yet. -/
def markerFile? (l : StateLayout) (t : Tree) : Option Entry :=
  (t.at? (fileAt l t "active")).filter Entry.isFile

/-- What leaves the marker as it is: no file comes to its place or goes from there or changes, and
the directory of runs stays. -/
structure Aside (l : StateLayout) (t t' : Tree) : Prop where
  working : t'.working = t.working
  marker : markerFile? l t' = markerFile? l t
  runs : t.isDirectory l.runs = true → t'.isDirectory l.runs = true

theorem Aside.refl (t : Tree) : Aside l t t := ⟨rfl, rfl, fun h => h⟩

theorem aside_prepare (l : StateLayout) (t : Tree) : Aside l t ((prepare l).run.run t).2 := by
  have hparent : l.activeMarker.parent? = some l.runs :=
    parent?_join isName_active (endsSolid_runs l)
  have hconfined : Confined (fun _ => False) (t.way l.runs) t ((prepare l).run.run t).2 :=
    confines_ensureParent hparent t rfl
  refine ⟨hconfined.working, ?_, fun hd => ?_⟩
  · unfold markerFile? fileAt
    rw [lexicalPlace_congr hconfined.working]
    -- The place may become a directory when the path to the runs leads through it: still no file.
    rcases hconfined.outside _ id with hsame | ⟨-, hnone, hdirectory⟩
    · rw [hsame]
    · rw [hnone, hdirectory]
      rfl
  · unfold prepare FileTree.ensureParent
    rw [hparent]
    obtain ⟨_, hgrown⟩ := outgrown_ensureDirectory l.runs t
    exact isDirectory_of_grown hgrown hd

theorem run_create (l : StateLayout) (t : Tree) :
    (∃ e, (create l).run.run t = (.error e, t)) ∨
      Fits l.runs "active" ∧ t.isDirectory l.runs = true ∧
        t.at? (fileAt l t "active") = none ∧
          (create l).run.run t = (.ok (fileAt l t "active"),
            t.put (fileAt l t "active") (.file (.text "") modeOfNewFile)) := by
  unfold create
  rw [run_bind, run_get]
  dsimp only
  rcases createNew_cases l.activeMarker t with ⟨e, h⟩ | ⟨place, hl, ha, h⟩
  · rw [h]
    cases e <;> exact .inl ⟨_, rfl⟩
  · obtain ⟨hf, he, rfl⟩ := (locate_join_iff isName_active).1 hl
    rw [h]
    exact .inr ⟨hf, isDirectory_of_enters (text_runs l)
      ((size_join isName_active.piece l.runs).trans hf.path) he, ha, rfl⟩

theorem run_fill {place : Place} {contents : Contents} {mode : Nat}
    (ha : t.at? place = some (.file contents mode)) (run : String) (fault : Option Fault) :
    (fill l place run fault).run.run t =
        (.ok (), t.put place (.file (.text (run ++ "\n")) mode)) ∨
      ∃ e contents, (fill l place run fault).run.run t =
        (.error e, t.put place (.file contents mode)) := by
  unfold fill
  rw [run_on, run_writeOpened ha]
  cases fault with
  | none => exact .inl rfl
  | some fault => exact .inr ⟨_, _, rfl⟩

theorem run_flush (l : StateLayout) (fault : Option FileError) (t : Tree) :
    ((flush l fault).run.run t).2 = t := by
  cases fault <;> rfl

/-- What a run is about. A run that holds the marker may claim it once more, in vain. -/
inductive Stage where
  | idle
  | claiming (again : Bool)
  | filling (place : Place)
  | flushing
  | holding
  | clearing

/-- From its claim that succeeded to the removal of the marker. -/
def Stage.holds : Stage → Bool
  | idle => false
  | claiming again => again
  | filling _ => false
  | flushing => false
  | holding => true
  | clearing => true

/-- From the making of the marker to its removal. -/
def Stage.keeps : Stage → Bool
  | filling _ => true
  | flushing => true
  | stage => stage.holds

/-- Where a run stands that has no call under way. -/
def Stage.rest (holds : Bool) : Stage := if holds then holding else idle

@[simp] theorem Stage.holds_rest (holds : Bool) : (Stage.rest holds).holds = holds := by
  cases holds <;> rfl

@[simp] theorem Stage.keeps_rest (holds : Bool) : (Stage.rest holds).keeps = holds := by
  cases holds <;> rfl

theorem Stage.keeps_of_holds {stage : Stage} (h : stage.holds = true) : stage.keeps = true := by
  cases stage <;> first | rfl | exact h

theorem Stage.rest_ne_filling (holds : Bool) (place : Place) : Stage.rest holds ≠ .filling place := by
  cases holds <;> exact nofun

structure Contention (ι : Type) where
  tree : Tree
  stage : ι → Stage
  /-- Whether a claim failed that had made the marker already. -/
  left : Bool

variable {ι : Type} {id : ι → String} {s s' : Contention ι} {i j : ι}

def Contention.Holds (s : Contention ι) (i : ι) : Prop := (s.stage i).holds = true

def Contention.Keeps (s : Contention ι) (i : ι) : Prop := (s.stage i).keeps = true

def Contention.go [DecidableEq ι] (s : Contention ι) (t : Tree) (i : ι) (stage : Stage) :
    Contention ι :=
  { s with tree := t, stage := Function.update s.stage i stage }

def Contention.leave [DecidableEq ι] (s : Contention ι) (t : Tree) (i : ι) : Contention ι :=
  { s.go t i .idle with left := true }

/-- One operation of one run, which may fail, or something else on the disk that leaves the marker
as it is. A run calls for the marker to be cleared when it holds it, and then holds it no longer. -/
inductive Step [DecidableEq ι] (l : StateLayout) (id : ι → String) :
    Contention ι → Contention ι → Prop
  | prepared {s : Contention ι} {i : ι} {holds : Bool} {t : Tree}
      (stage : s.stage i = .rest holds) (op : (prepare l).run.run s.tree = (.ok (), t)) :
      Step l id s (s.go t i (.claiming holds))
  | unprepared {s : Contention ι} {i : ι} {holds : Bool} {e : Failure} {t : Tree}
      (stage : s.stage i = .rest holds) (op : (prepare l).run.run s.tree = (.error e, t)) :
      Step l id s (s.go t i (.rest holds))
  | created {s : Contention ι} {i : ι} {again : Bool} {place : Place} {t : Tree}
      (stage : s.stage i = .claiming again) (op : (create l).run.run s.tree = (.ok place, t)) :
      Step l id s (s.go t i (.filling place))
  | refused {s : Contention ι} {i : ι} {again : Bool} {e : Failure} {t : Tree}
      (stage : s.stage i = .claiming again) (op : (create l).run.run s.tree = (.error e, t)) :
      Step l id s (s.go t i (.rest again))
  | filled {s : Contention ι} {i : ι} {place : Place} {fault : Option Fault} {t : Tree}
      (stage : s.stage i = .filling place)
      (op : (fill l place (id i) fault).run.run s.tree = (.ok (), t)) :
      Step l id s (s.go t i .flushing)
  | unfilled {s : Contention ι} {i : ι} {place : Place} {fault : Option Fault} {e : Failure}
      {t : Tree} (stage : s.stage i = .filling place)
      (op : (fill l place (id i) fault).run.run s.tree = (.error e, t)) :
      Step l id s (s.leave t i)
  | flushed {s : Contention ι} {i : ι} {fault : Option FileError} {t : Tree}
      (stage : s.stage i = .flushing) (op : (flush l fault).run.run s.tree = (.ok (), t)) :
      Step l id s (s.go t i .holding)
  | unflushed {s : Contention ι} {i : ι} {fault : Option FileError} {e : Failure} {t : Tree}
      (stage : s.stage i = .flushing) (op : (flush l fault).run.run s.tree = (.error e, t)) :
      Step l id s (s.leave t i)
  | seen {s : Contention ι} {i : ι} {t : Tree}
      (stage : s.stage i = .holding) (op : (look l).run.run s.tree = (.ok true, t)) :
      Step l id s (s.go t i .clearing)
  | missed {s : Contention ι} {i : ι} {t : Tree}
      (stage : s.stage i = .holding) (op : (look l).run.run s.tree = (.ok false, t)) :
      Step l id s (s.go t i .idle)
  | removed {s : Contention ι} {i : ι} {result : Except Failure Unit} {t : Tree}
      (stage : s.stage i = .clearing) (op : (remove l).run.run s.tree = (result, t)) :
      Step l id s (s.go t i .idle)
  | other {s : Contention ι} {t : Tree} (aside : Aside l s.tree t) :
      Step l id s { s with tree := t }

section
variable [DecidableEq ι]

@[simp] theorem Contention.stage_go (s : Contention ι) (t : Tree) (i : ι) (stage : Stage) :
    (s.go t i stage).stage i = stage := Function.update_self ..

theorem Contention.stage_go_of_ne (s : Contention ι) (t : Tree) (stage : Stage) (h : j ≠ i) :
    (s.go t i stage).stage j = s.stage j := Function.update_of_ne h ..

theorem Contention.stage_leave_of_ne (s : Contention ι) (t : Tree) (h : j ≠ i) :
    (s.leave t i).stage j = s.stage j := s.stage_go_of_ne t .idle h

theorem Contention.stage_go_go_of_ne (s : Contention ι) (t u : Tree) (stage stage' : Stage)
    (h : j ≠ i) : ((s.go t i stage).go u i stage').stage j = s.stage j :=
  (stage_go_of_ne _ u stage' h).trans (s.stage_go_of_ne t stage h)

theorem Step.of_fill {place : Place} {contents : Contents} {mode : Nat} {faults : Faults}
    {result : Except Failure Path} (hi : s.stage i = .filling place)
    (ha : s.tree.at? place = some (.file contents mode))
    (hr : (do
      fill l place (id i) faults.write
      flush l faults.flush
      return l.activeMarker : Job Path).run.run s.tree = (result, t)) :
    ∃ s', Relation.ReflTransGen (Step l id) s s' ∧ s'.tree = t ∧
      (∀ j, j ≠ i → s'.stage j = s.stage j) ∧
      (result.isOk = true ∧ s'.stage i = .holding ∨ result.isOk = false ∧ s'.stage i = .idle) := by
  rw [run_bind] at hr
  rcases run_fill (l := l) ha (id i) faults.write with hf | ⟨e, left, hf⟩ <;> rw [hf] at hr
  · have hfilled := Relation.ReflTransGen.single (Step.filled hi hf)
    have hflush := run_flush l faults.flush (s.tree.put place (.file (.text (id i ++ "\n")) mode))
    dsimp only at hr
    rw [run_bind] at hr
    rcases hx : (flush l faults.flush).run.run
        (s.tree.put place (.file (.text (id i ++ "\n")) mode)) with ⟨e | _, u⟩ <;>
      rw [hx] at hr hflush <;> obtain ⟨rfl, rfl⟩ := Prod.mk.inj hr
    · exact ⟨_, hfilled.tail (.unflushed (s.stage_go ..) hx), rfl,
        fun j hj => (Contention.stage_leave_of_ne _ u hj).trans (s.stage_go_of_ne _ _ hj),
        .inr ⟨rfl, Function.update_self ..⟩⟩
    · exact ⟨_, hfilled.tail (.flushed (s.stage_go ..) hx), rfl,
        fun j hj => s.stage_go_go_of_ne _ _ _ _ hj, .inl ⟨rfl, Contention.stage_go ..⟩⟩
  · obtain ⟨rfl, rfl⟩ := Prod.mk.inj hr
    exact ⟨_, .single (.unfilled hi hf), rfl, fun j hj => s.stage_leave_of_ne _ hj,
      .inr ⟨rfl, Function.update_self ..⟩⟩

/-- A claim that nothing comes in between is a sequence of steps. When it fails the run goes back to
where it was, unless there was no marker and the one that was made is left. -/
theorem Step.of_claim {holds : Bool} {faults : Faults} {result : Except Failure Path}
    (hi : s.stage i = .rest holds)
    (hr : (claimUnder faults l (id i)).run.run s.tree = (result, t)) :
    ∃ s', Relation.ReflTransGen (Step l id) s s' ∧ s'.tree = t ∧
      (∀ j, j ≠ i → s'.stage j = s.stage j) ∧
      (result.isOk = true ∧ s'.stage i = .holding ∨
        result.isOk = false ∧ (s'.stage i = .rest holds ∨
          s'.stage i = .idle ∧ markerFile? l s.tree = none)) := by
  have hmarker := (aside_prepare l s.tree).marker
  unfold claimUnder at hr
  rw [run_bind] at hr
  rcases hp : (prepare l).run.run s.tree with ⟨e | _, made⟩ <;> rw [hp] at hr hmarker
  · obtain ⟨rfl, rfl⟩ := Prod.mk.inj hr
    exact ⟨_, .single (.unprepared hi hp), rfl, fun j hj => s.stage_go_of_ne _ _ hj,
      .inr ⟨rfl, .inl (s.stage_go ..)⟩⟩
  dsimp only at hr hmarker
  have hprepared : Relation.ReflTransGen (Step l id) _ _ := .single (.prepared hi hp)
  rw [run_bind] at hr
  rcases run_create l made with ⟨e, hc⟩ | ⟨-, -, hnone, hc⟩ <;> rw [hc] at hr
  · obtain ⟨rfl, rfl⟩ := Prod.mk.inj hr
    exact ⟨_, hprepared.tail (.refused (s.stage_go ..) hc), rfl,
      fun j hj => s.stage_go_go_of_ne _ _ _ _ hj, .inr ⟨rfl, .inl (Contention.stage_go ..)⟩⟩
  · have habsent : markerFile? l s.tree = none := by
      rw [← hmarker, markerFile?, hnone]
      rfl
    have hcreated := hprepared.tail (.created (s.stage_go ..) hc)
    obtain ⟨s', hsteps, htree, hothers, hstage⟩ :=
      Step.of_fill (Contention.stage_go ..) (at?_put_self _) hr
    refine ⟨s', hcreated.trans hsteps, htree,
      fun j hj => (hothers j hj).trans (s.stage_go_go_of_ne _ _ _ _ hj),
      hstage.imp_right (And.imp_right fun hidle => ?_)⟩
    exact .inr ⟨hidle, habsent⟩

theorem Contention.keeps_go (s : Contention ι) (t : Tree) (i : ι) (stage : Stage) (j : ι) :
    (s.go t i stage).Keeps j ↔ if j = i then stage.keeps = true else s.Keeps j := by
  unfold Contention.Keeps
  split
  · rename_i h
    rw [h, stage_go]
  · rename_i h
    rw [stage_go_of_ne s t stage h]

theorem Contention.keeps_go_same {stage stage' : Stage} (h : s.stage i = stage)
    (hs : stage'.keeps = stage.keeps) (t : Tree) (j : ι) :
    (s.go t i stage').Keeps j ↔ s.Keeps j := by
  rw [Contention.keeps_go]
  split
  · rename_i hj
    rw [hj, hs, Contention.Keeps, h]
  · rfl

end

/-- The marker is there, and a path leads to it. -/
structure Marked (l : StateLayout) (t : Tree) (contents : Contents) : Prop where
  fits : Fits l.runs "active"
  runs : t.isDirectory l.runs = true
  marker : markerFile? l t = some (.file contents modeOfNewFile)

theorem Marked.at? {contents : Contents} (h : Marked l t contents) :
    t.at? (fileAt l t "active") = some (.file contents modeOfNewFile) :=
  (Option.filter_eq_some_iff.1 h.marker).1

theorem Marked.aside {contents : Contents} (h : Marked l t contents) (ha : Aside l t t') :
    Marked l t' contents :=
  ⟨h.fits, ha.runs h.runs, ha.marker.trans h.marker⟩

theorem Marked.file? {contents : Contents} (h : Marked l t contents) :
    t.file? l.activeMarker = some contents :=
  file?_eq_some.2 ⟨endsInSeparator_join isName_active l.runs, _, _,
    locate_file isName_active h.fits (enters_of_isDirectory h.runs), h.at?⟩

theorem marked_put (hf : Fits l.runs "active") (hd : t.isDirectory l.runs = true)
    (hx : ∀ mode, t.at? (fileAt l t "active") ≠ some (.directory mode)) (contents : Contents) :
    Marked l (t.put (fileAt l t "active") (.file contents modeOfNewFile)) contents := by
  refine ⟨hf, isDirectory_put_file hd hx _ _, ?_⟩
  have hself : (t.put (fileAt l t "active") (.file contents modeOfNewFile)).at?
      (fileAt l t "active") = _ := at?_put_self _
  unfold markerFile?
  change Option.filter _ ((t.put _ _).at? (fileAt l t "active")) = _
  rw [hself]
  rfl

/-- The marker is gone, or one run keeps it and has written its id unless it is just about to, or it
was left by a claim that failed and nobody keeps it. -/
inductive Exclusive (l : StateLayout) (id : ι → String) (s : Contention ι) : Prop
  | free (noOne : ∀ i, ¬s.Keeps i) (left : s.left = false) (marker : markerFile? l s.tree = none)
  | kept (i : ι) (contents : Contents) (only : ∀ j, s.Keeps j ↔ j = i) (left : s.left = false)
      (marked : Marked l s.tree contents)
      (stage : s.stage i = .filling (fileAt l s.tree "active") ∨
        (∀ place, s.stage i ≠ .filling place) ∧ contents = .text (id i ++ "\n"))
  | left (contents : Contents) (noOne : ∀ i, ¬s.Keeps i) (left : s.left = true)
      (marked : Marked l s.tree contents)

section
variable (h : Exclusive l id s)
include h

theorem Exclusive.isFile_marker :
    s.tree.isFile l.activeMarker = true ↔ (∃ i, s.Keeps i) ∨ s.left = true := by
  rw [isFile_eq_file?]
  cases h with
  | free noOne left marker =>
    refine iff_of_false (fun hs => ?_) (by simp [noOne, left])
    obtain ⟨contents, hf⟩ := Option.isSome_iff_exists.1 hs
    obtain ⟨-, place, mode, hl, ha⟩ := file?_eq_some.1 hf
    obtain ⟨-, -, rfl⟩ := (locate_join_iff isName_active).1 hl
    have hfile : markerFile? l s.tree = some (.file contents mode) :=
      Option.filter_eq_some_iff.2 ⟨ha, rfl⟩
    rw [marker] at hfile
    cases hfile
  | kept i contents only left marked stage =>
    exact iff_of_true (by rw [marked.file?]; rfl) (.inl ⟨i, (only i).2 rfl⟩)
  | left contents noOne left marked =>
    exact iff_of_true (by rw [marked.file?]; rfl) (.inr left)

theorem Exclusive.free_of_absent (ha : markerFile? l s.tree = none) :
    (∀ i, ¬s.Keeps i) ∧ s.left = false := by
  cases h with
  | free noOne left marker => exact ⟨noOne, left⟩
  | kept i contents only left marked stage =>
    rw [marked.marker] at ha
    cases ha
  | left contents noOne left marked =>
    rw [marked.marker] at ha
    cases ha

theorem Exclusive.of_keeps (hi : s.Keeps i) : ∃ contents, (∀ j, s.Keeps j ↔ j = i) ∧
    s.left = false ∧ Marked l s.tree contents ∧
      (s.stage i = .filling (fileAt l s.tree "active") ∨
        (∀ place, s.stage i ≠ .filling place) ∧ contents = .text (id i ++ "\n")) := by
  cases h with
  | free noOne left marker => exact absurd hi (noOne i)
  | kept k contents only left marked stage =>
    obtain rfl := (only i).1 hi
    exact ⟨contents, only, left, marked, stage⟩
  | left contents noOne left marked => exact absurd hi (noOne i)

theorem Exclusive.marked (hi : s.Holds i) : Marked l s.tree (.text (id i ++ "\n")) := by
  obtain ⟨contents, -, -, hmarked, hstage⟩ := h.of_keeps (Stage.keeps_of_holds hi)
  rcases hstage with hstage | ⟨-, rfl⟩
  · rw [Contention.Holds, hstage] at hi
    cases hi
  · exact hmarked

theorem Exclusive.other (ha : Aside l s.tree t) : Exclusive l id { s with tree := t } := by
  cases h with
  | free noOne left marker => exact .free noOne left (ha.marker.trans marker)
  | kept i contents only left marked stage =>
    refine .kept i contents only left (marked.aside ha) ?_
    rw [fileAt_congr ha.working]
    exact stage
  | left contents noOne left marked => exact .left contents noOne left (marked.aside ha)

variable [DecidableEq ι]

theorem Exclusive.go {stage stage' : Stage} (ha : Aside l s.tree t) (hi : s.stage i = stage)
    (hk : stage'.keeps = stage.keeps) (hn : ∀ place, stage ≠ .filling place)
    (hn' : ∀ place, stage' ≠ .filling place) : Exclusive l id (s.go t i stage') := by
  have hkeeps := Contention.keeps_go_same hi hk t
  cases h with
  | free noOne left marker =>
    exact .free (fun j hj => noOne j ((hkeeps j).1 hj)) left (ha.marker.trans marker)
  | kept k contents only left marked stage =>
    refine .kept k contents (fun j => (hkeeps j).trans (only j)) left (marked.aside ha) ?_
    by_cases hki : k = i
    · subst hki
      rw [s.stage_go]
      refine .inr ⟨hn', (stage.resolve_left ?_).2⟩
      rw [hi]
      exact hn _
    · rw [s.stage_go_of_ne t _ hki]
      change s.stage k = .filling (fileAt l t "active") ∨ _
      rw [fileAt_congr ha.working]
      exact stage
  | left contents noOne left marked =>
    exact .left contents (fun j hj => noOne j ((hkeeps j).1 hj)) left (marked.aside ha)

theorem Exclusive.create {place : Place} (hc : (create l).run.run s.tree = (.ok place, t)) (i : ι) :
    Exclusive l id (s.go t i (.filling place)) := by
  rcases run_create l s.tree with ⟨e, hrun⟩ | ⟨hf, hd, ha, hrun⟩
  · cases hc.symm.trans hrun
  obtain ⟨hplace, rfl⟩ := Prod.mk.inj (hc.symm.trans hrun)
  obtain rfl := Except.ok.inj hplace
  obtain ⟨hnone, hleft⟩ := h.free_of_absent (by rw [markerFile?, ha]; rfl)
  refine .kept i _ (fun j => ?_) hleft (marked_put hf hd (by simp [ha]) _) (.inl (s.stage_go ..))
  rw [s.keeps_go]
  split
  · rename_i hj
    simp [hj, Stage.keeps]
  · rename_i hj
    exact iff_of_false (hnone j) hj

theorem Exclusive.leave {contents : Contents} (hi : s.Keeps i) (hm : Marked l t contents) :
    Exclusive l id (s.leave t i) := by
  obtain ⟨-, honly, -⟩ := h.of_keeps hi
  refine .left contents (fun j hj => ?_) rfl hm
  have hj' : (s.go t i .idle).Keeps j := hj
  rw [s.keeps_go] at hj'
  split at hj'
  · cases hj'
  · rename_i hne
    exact hne ((honly j).1 hj')

theorem Exclusive.fill {place : Place} {fault : Option Fault} {result : Except Failure Unit}
    (hi : s.stage i = .filling place)
    (hf : (fill l place (id i) fault).run.run s.tree = (result, t)) :
    (result = .ok () → Exclusive l id (s.go t i .flushing)) ∧
      (∀ e, result = .error e → Exclusive l id (s.leave t i)) := by
  have hkeeps : s.Keeps i := by rw [Contention.Keeps, hi]; rfl
  obtain ⟨contents, honly, hleft, hmarked, hstage⟩ := h.of_keeps hkeeps
  have hplace : place = fileAt l s.tree "active" := by
    rcases hstage with hstage | ⟨hn, -⟩
    · rw [hi] at hstage
      exact Stage.filling.inj hstage
    · exact absurd hi (hn place)
  subst hplace
  have hput := marked_put hmarked.fits hmarked.runs (by simp [hmarked.at?])
  rcases run_fill (l := l) hmarked.at? (id i) fault with hrun | ⟨e, taken, hrun⟩ <;>
    obtain ⟨rfl, rfl⟩ := Prod.mk.inj (hf.symm.trans hrun)
  · have hsame : Stage.flushing.keeps = (Stage.filling (fileAt l s.tree "active")).keeps := rfl
    refine ⟨fun _ => .kept i _ (fun j => ?_) hleft (hput _) (.inr ⟨?_, rfl⟩), nofun⟩
    · exact (Contention.keeps_go_same hi hsame _ j).trans (honly j)
    · rw [s.stage_go]
      exact nofun
  · exact ⟨nofun, fun _ _ => h.leave hkeeps (hput _)⟩

theorem Exclusive.remove (hi : s.stage i = .clearing) {result : Except Failure Unit}
    (hr : (remove l).run.run s.tree = (result, t)) : Exclusive l id (s.go t i .idle) := by
  obtain ⟨contents, honly, hleft, hmarked, -⟩ :=
    h.of_keeps (i := i) (by rw [Contention.Keeps, hi]; rfl)
  have hremove : (Run.remove l).run.run s.tree = _ := run_on_eq_ok.2
    (run_removeFile isName_active hmarked.fits (enters_of_isDirectory hmarked.runs) hmarked.at?)
  obtain ⟨-, rfl⟩ := Prod.mk.inj (hr.symm.trans hremove)
  refine .free (fun j => ?_) hleft ?_
  · rw [s.keeps_go]
    split
    · simp [Stage.keeps, Stage.holds]
    · rename_i hj
      exact fun hkeep => hj ((honly j).1 hkeep)
  · have hgone := at?_removeBelow s.tree (fileAt_ne_nil l s.tree "active")
      (fileAt l s.tree "active")
    rw [if_pos List.prefix_rfl] at hgone
    exact congrArg (Option.filter Entry.isFile) hgone

theorem Exclusive.step (hs : Step l id s s') : Exclusive l id s' := by
  have hprepare := aside_prepare l s.tree
  cases hs with
  | prepared stage op =>
    rw [op] at hprepare
    exact h.go hprepare stage (Stage.keeps_rest _).symm (Stage.rest_ne_filling _) nofun
  | unprepared stage op =>
    rw [op] at hprepare
    exact h.go hprepare stage rfl (Stage.rest_ne_filling _) (Stage.rest_ne_filling _)
  | @created i _ _ _ _ op => exact h.create op i
  | refused stage op =>
    rcases run_create l s.tree with ⟨e, hrun⟩ | ⟨-, -, -, hrun⟩
    · obtain ⟨-, rfl⟩ := Prod.mk.inj (op.symm.trans hrun)
      exact h.go (.refl _) stage (Stage.keeps_rest _) nofun (Stage.rest_ne_filling _)
    · cases op.symm.trans hrun
  | filled stage op => exact (h.fill stage op).1 rfl
  | unfilled stage op => exact (h.fill stage op).2 _ rfl
  | @flushed _ fault _ stage op =>
    obtain rfl : _ = s.tree := by simpa [op] using run_flush l fault s.tree
    exact h.go (.refl _) stage rfl nofun nofun
  | @unflushed i fault _ _ stage op =>
    obtain rfl : _ = s.tree := by simpa [op] using run_flush l fault s.tree
    have hkeeps : s.Keeps i := by rw [Contention.Keeps, stage]; rfl
    obtain ⟨contents, -, -, hmarked, -⟩ := h.of_keeps hkeeps
    exact h.leave hkeeps hmarked
  | seen stage op =>
    obtain ⟨-, rfl⟩ := Prod.mk.inj op
    exact h.go (.refl _) stage rfl nofun nofun
  | @missed i _ stage op =>
    -- A holder that finds no marker would have lost it to another one, and there is none.
    have hfile := h.isFile_marker.2 (.inl ⟨i, by rw [Contention.Keeps, stage]; rfl⟩)
    have hx : s.tree.pathExists l.activeMarker = false := Except.ok.inj (Prod.mk.inj op).1
    rw [pathExists, Option.isSome_eq_false_iff, Option.isNone_iff_eq_none] at hx
    rw [isFile, hx] at hfile
    cases hfile
  | removed stage op => exact h.remove stage op
  | other aside => exact h.other aside

theorem Exclusive.claim {holds : Bool} {faults : Faults} {result : Except Failure Path}
    (hi : s.stage i = .rest holds)
    (hr : (claimUnder faults l (id i)).run.run s.tree = (result, t)) :
    ∃ s', Relation.ReflTransGen (Step l id) s s' ∧ s'.tree = t ∧
      (∀ j, j ≠ i → s'.stage j = s.stage j) ∧ (s'.Holds i ↔ result.isOk = true ∨ s.Holds i) := by
  obtain ⟨s', hsteps, htree, hothers, hcases⟩ := Step.of_claim hi hr
  refine ⟨s', hsteps, htree, hothers, ?_⟩
  unfold Contention.Holds
  rcases hcases with ⟨hok, hstage⟩ | ⟨hok, hstage | ⟨hstage, habsent⟩⟩
  · simp [hstage, hok, Stage.holds]
  · simp [hstage, hok, hi]
  · have hfree := (h.free_of_absent habsent).1 i
    simp only [hstage, hok, Stage.holds, Bool.false_eq_true, false_or, false_iff]
    exact fun hold => hfree (Stage.keeps_of_holds hold)

end

end Patchboard.Run
