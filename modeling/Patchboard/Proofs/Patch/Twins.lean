import Patchboard.Proofs.Patch.DryRun.Dialect
import Patchboard.Proofs.Tree.TwinJobs

set_option autoImplicit false

namespace Patchboard
open Path Tree

variable {r : Reserve} {base : Tree} {Q : Tree → Tree → Prop}

structure Site.Twin (Q : Tree → Tree → Prop) (s s' : Site) : Prop where
  tree : Q s.tree s'.tree
  permissions : s'.permissions = s.permissions

structure Progress.Twin (Q : Tree → Tree → Prop) (p p' : Progress) : Prop where
  site : p.site.Twin Q p'.site
  report : p'.report = p.report

theorem Progress.Twin.on {p p' : Progress} (h : p.Twin Q p') {s s' : Site} (hs : s.Twin Q s') :
    (p.on s).Twin Q (p'.on s') :=
  ⟨hs, h.report⟩

theorem Progress.Twin.note {p p' : Progress} (h : p.Twin Q p') (path : Path) (theme : Nat)
    (kind : EventKind) : (p.note path theme kind).Twin Q (p'.note path theme kind) :=
  ⟨h.site, congrArg (·.note path theme kind) h.report⟩

theorem Progress.Twin.fail {p p' : Progress} (h : p.Twin Q p') (path : Option Path) (theme : Nat)
    (kind : EventKind) : (p.fail path theme kind).Twin Q (p'.fail path theme kind) :=
  ⟨h.site, congrArg (·.fail path theme kind) h.report⟩

namespace Tree

variable (h : Blind r base Q) {p : Path} {t u : Tree}
include h

theorem twin_tryModes (hp : Seen r base p) (modes : List Nat) (hq : Q t u) :
    (tryModes p modes u).1 = (tryModes p modes t).1 ∧
      Q (tryModes p modes t).2 (tryModes p modes u).2 := by
  induction modes generalizing t u with
  | nil => exact ⟨rfl, hq⟩
  | cons mode modes ih =>
    obtain ⟨hresult, hrelated⟩ := alike_setMode h hp mode t u hq
    rw [tryModes, tryModes]
    rcases hrun : (setMode p mode).run.run t with ⟨result, t'⟩
    rcases hrun' : (setMode p mode).run.run u with ⟨result', u'⟩
    rw [hrun, hrun'] at hresult hrelated
    dsimp only at hresult hrelated
    subst hresult
    rcases result' with e | _
    · exact ⟨rfl, hrelated⟩
    · dsimp only
      rw [h.isWritable hrelated hp]
      split
      · exact ⟨rfl, hrelated⟩
      · exact ih hrelated

theorem twin_makeWritable (hp : Seen r base p) (hq : Q t u) :
    (u.makeWritable p).1 = (t.makeWritable p).1 ∧
      Q (t.makeWritable p).2 (u.makeWritable p).2 := by
  obtain ⟨hsame, hseen⟩ := h.probe? hq hp
  unfold makeWritable
  rw [hsame]
  cases ht : t.probe? p with
  | none => exact ⟨rfl, hq⟩
  | some target =>
    have hs := hseen target ht
    dsimp only
    rw [h.isDirectory hq hs]
    exact twin_tryModes h hs _ hq

end Tree

namespace Site

theorem Twin.run {ε α : Type} {s s' : Site} (hs : s.Twin Q s')
    {action : ExceptT ε (StateM Tree) α} (ha : Alike Q action) :
    (s'.run action).1 = (s.run action).1 ∧ (s.run action).2.Twin Q (s'.run action).2 := by
  obtain ⟨hresult, hrelated⟩ := ha _ _ hs.tree
  exact ⟨hresult, hrelated, hs.permissions⟩

section
variable (h : Blind r base Q) {p : Path} {s s' : Site} (hp : Seen r base p)
include h hp

theorem Twin.isWritable (hs : s.Twin Q s') : s'.isWritable p = s.isWritable p := by
  unfold Site.isWritable
  rw [hs.permissions, h.isWritable hs.tree hp]

theorem Twin.makeWritable (hs : s.Twin Q s') :
    (s'.makeWritable p).1 = (s.makeWritable p).1 ∧
      (s.makeWritable p).2.Twin Q (s'.makeWritable p).2 := by
  obtain ⟨hok, htree⟩ := twin_makeWritable h hp hs.tree
  unfold Site.makeWritable
  rw [hs.permissions]
  split
  · exact ⟨hok, htree, rfl⟩
  · split
    · exact ⟨rfl, hs.tree, rfl⟩
    · exact ⟨rfl, hs⟩

theorem Twin.ensureWritable (hs : s.Twin Q s') :
    (s'.ensureWritable p).1 = (s.ensureWritable p).1 ∧
      (s.ensureWritable p).2.Twin Q (s'.ensureWritable p).2 := by
  unfold Site.ensureWritable
  rw [hs.isWritable h hp]
  split
  · exact ⟨rfl, hs⟩
  · exact hs.makeWritable h hp

end

end Site

namespace Save

theorem seen_backup {p : Path} (h : Clear r base p) (settings : Option Path) :
    Seen r base (Backup.ofFile p settings) := by
  have hseen {name : List Char} (hn : '/' ∉ name) (hl : 3 ≤ name.length) :
      Seen r base (p.withFileName name) := by
    have hs := h.seen_withFileName (isName_of_long hn hl)
    rwa [String.toList_ofList] at hs
  have hname {n : List Char} (hn : n ∈ p.fileName?) : '/' ∉ n := not_mem_of_fileName? hn
  unfold Backup.ofFile
  split
  · have hstem : '/' ∉ p.stem?.getD [] := by
      unfold stem?
      cases hf : p.fileName? with
      | none => simp
      | some n => exact (not_mem_splitName (hname hf)).1
    unfold Backup.ofSettings
    dsimp only
    split
    · rename_i extension he
      obtain ⟨n, hf, he⟩ := Option.bind_eq_some_iff.1 he
      have hextension := (not_mem_splitName (hname hf)).2 extension he
      refine hseen ?_ ?_
      · simp [hstem, hextension]
      · simp
        omega
    · refine hseen ?_ ?_
      · simp [hstem]
      · simp
  · refine hseen ?_ ?_
    · cases hf : p.fileName? with
      | none => decide
      | some n => simpa using hname hf
    · simp
section
variable (h : Blind r base Q) {b : Board} {path : Path} {p p' : Progress}
  (hp : Clear r base path)
include h hp

theorem twin_backUp (existed : Bool) {s s' : Site} (hs : s.Twin Q s') :
    (backUp b path existed s).Twin Q (backUp b path existed s') := by
  have hbackup := seen_backup hp b.settings
  have hcopy : Alike Q (copyTo path (Backup.ofFile path b.settings)) :=
    (alike_makeParents h hbackup).bind fun _ => alike_copyFile h hp.seen hbackup
  unfold backUp
  split
  · exact (hs.run hcopy).2
  · exact hs

theorem twin_store (theme : Nat) (text : List Char) (existed : Bool) (ht : p.Twin Q p') :
    (store b path theme text existed p).Twin Q (store b path theme text existed p') := by
  have hwrite : Alike Q (write path text) :=
    (alike_makeParents h hp.seen).bind fun _ => alike_writeText h hp.seen _
  obtain ⟨hresult, hsite⟩ := (twin_backUp h hp existed ht.site).run hwrite
  have hwritten :
      (written b path text existed p'.site).1 = (written b path text existed p.site).1 := hresult
  rcases store_cases b path theme text existed p with ⟨hok, hs⟩ | ⟨⟨e, he⟩, hs⟩ <;>
    rcases store_cases b path theme text existed p' with ⟨hok', hs'⟩ | ⟨⟨e', he'⟩, hs'⟩
  · rw [hs, hs']
    exact (ht.on hsite).note ..
  · rw [hwritten, hok] at he'
    cases he'
  · rw [hwritten, he] at hok'
    cases hok'
  · rw [hs, hs']
    exact (ht.on hsite).fail ..

theorem twin_save (o : PatchOptions) (theme : Nat) (text : List Char) (existed : Bool)
    (ht : p.Twin Q p') :
    (save b o path theme text existed p).Twin Q (save b o path theme text existed p') := by
  obtain ⟨hok, hsite⟩ := ht.site.ensureWritable h hp.seen
  unfold save
  split
  · exact ht.note ..
  · split
    · dsimp only
      rw [ht.site.isWritable h hp.seen]
      split
      · exact ht.note ..
      · exact (ht.note ..).note ..
    · dsimp only
      rw [hok]
      split
      · exact twin_store h hp theme text existed (ht.on hsite)
      · exact ((ht.on hsite).note ..).fail ..

end

end Save

namespace Modification

variable (h : Blind r base Q) {b : Board} {p p' : Progress}
include h

theorem twin_patchText {path : Path} (hp : Clear r base path)
    (o : PatchOptions) (block : Document) (theme : Nat) (text : List Char) (existed : Bool)
    (ht : p.Twin Q p') : (patchText b o block path theme text existed p).Twin Q
      (patchText b o block path theme text existed p') := by
  unfold patchText
  dsimp only
  rw [ht.report]
  split
  · exact ⟨ht.site, rfl⟩
  · exact Save.twin_save h hp o theme _ existed ⟨ht.site, rfl⟩

theorem twin_runJob {job : Job} (hp : ∀ path ∈ job.path?, Clear r base path) (o : PatchOptions)
    (ht : p.Twin Q p') : (runJob b o p job).Twin Q (runJob b o p' job) := by
  cases job with
  | nameless number => exact ht.fail ..
  | block document copy =>
    have hpath := hp copy.path rfl
    have hfile : p'.site.tree.file? copy.path = p.site.tree.file? copy.path :=
      file?_of_view (h.view ht.site.tree hpath.seen)
    have hmissing : (missing p copy.path copy.theme).Twin Q (missing p' copy.path copy.theme) :=
      ht.fail ..
    unfold runJob
    dsimp only
    rw [applyBlock_eq, applyBlock_eq, hfile]
    split
    · exact twin_patchText h hpath o document copy.theme _ true ht
    · exact hmissing
    · split
      · exact ht.note ..
      · exact twin_patchText h hpath o document copy.theme _ false ht
      · exact hmissing

end Modification

namespace Boardmod

/-- The same file is open, with the same search waiting, on twin sites. -/
structure State.Twin (Q : Tree → Tree → Prop) (s s' : State) : Prop where
  file : s'.file = s.file
  search : s'.search = s.search
  progress : s.progress.Twin Q s'.progress

variable (h : Blind r base Q) {b : Board} {s s' : State}

include h in
theorem State.Twin.close (hp : ∀ path ∈ s.path?, Clear r base path) (o : PatchOptions)
    (ht : s.Twin Q s') : (s.close b o).Twin Q (s'.close b o) := by
  unfold State.close
  rw [ht.file]
  cases hf : s.file with
  | none => exact ht
  | some f =>
    refine ⟨rfl, ht.search, ?_⟩
    dsimp only
    split
    · exact ht.progress
    · exact Save.twin_save h (hp f.path (by rw [State.path?, hf]; rfl)) o f.theme f.text true
        ht.progress

include h in
theorem State.Twin.openFile {path : Path} (hp : Seen r base path) (theme : Nat)
    (ht : s.Twin Q s') : (s.openFile path theme).Twin Q (s'.openFile path theme) := by
  have hfile := h.isFile ht.progress.site.tree hp
  have htext := h.text? ht.progress.site.tree hp
  have hmissing : State.Twin Q ⟨none, none, s.progress.fail (some path) theme .missing⟩
      ⟨none, none, s'.progress.fail (some path) theme .missing⟩ :=
    ⟨rfl, rfl, ht.progress.fail ..⟩
  unfold State.openFile
  dsimp only
  rw [hfile, htext]
  split
  · split
    · exact ⟨rfl, rfl, ht.progress.note ..⟩
    · exact hmissing
  · exact hmissing

theorem State.Twin.beginSearch (t : Token) (ht : s.Twin Q s') :
    (s.beginSearch t).Twin Q (s'.beginSearch t) := by
  have hfile := ht.file
  have hsearch := ht.search
  unfold State.beginSearch
  rw [hfile, hsearch]
  cases hf : s.file with
  | none => exact ⟨hfile, hsearch, ht.progress.fail ..⟩
  | some f =>
    dsimp only
    split
    · exact ⟨rfl, rfl, ht.progress.fail ..⟩
    · exact ⟨hfile, rfl, ht.progress⟩

theorem State.Twin.edit (o : PatchOptions) (t : Token) (ht : s.Twin Q s') :
    (s.edit o t).Twin Q (s'.edit o t) := by
  unfold State.edit
  rw [ht.file, ht.search]
  dsimp only
  cases s.file with
  | none => exact ⟨rfl, rfl, ht.progress.fail ..⟩
  | some f =>
    cases s.search with
    | none => exact ⟨rfl, rfl, ht.progress.fail ..⟩
    | some search =>
      unfold State.applyEdit
      dsimp only
      split
      · exact ⟨rfl, rfl, ht.progress.note ..⟩
      · exact ⟨rfl, rfl, ht.progress.fail ..⟩

include h in
theorem twin_advance {t : Token} (hk : t.kind = .file → t.path.isSome)
    (hopen : ∀ path ∈ s.path?, Clear r base path) (hp : ∀ path ∈ fileOf? t, Clear r base path)
    (o : PatchOptions) (ht : s.Twin Q s') : (advance b o s t).Twin Q (advance b o s' t) := by
  by_cases hfile : t.kind = .file
  · obtain ⟨path, hpath⟩ := fileOf?_of_kind hfile (hk hfile)
    rw [advance_file hpath, advance_file hpath]
    exact (ht.close h hopen o).openFile h (hp path hpath).seen t.theme
  · unfold advance
    split
    · rename_i hsame
      exact absurd hsame hfile
    · exact ht.beginSearch t
    · exact ht.edit o t

include h in
theorem twin_runGroup {group : List Token} (hk : ∀ t ∈ group, t.kind = .file → t.path.isSome)
    (hp : ∀ t ∈ group, ∀ path ∈ fileOf? t, Clear r base path)
    (o : PatchOptions) {p p' : Progress} (ht : p.Twin Q p') :
    (runGroup b o p group).Twin Q (runGroup b o p' group) := by
  have hfold (s s' : State) (hs : s.Twin Q s')
      (hopen : ∀ path ∈ s.path?, Clear r base path) :
      ((group.foldl (advance b o) s).close b o).Twin Q
        ((group.foldl (advance b o) s').close b o) := by
    induction group generalizing s s' with
    | nil => exact hs.close h hopen o
    | cons t group ih =>
      have htoken := hk t (List.mem_cons_self ..)
      have hfirst := hp t (List.mem_cons_self ..)
      refine ih (fun other ho => hk other (List.mem_cons_of_mem _ ho))
        (fun other ho => hp other (List.mem_cons_of_mem _ ho)) _ _
        (twin_advance h htoken hopen hfirst o hs) fun path hpath => ?_
      rcases path?_advance htoken path hpath with hnew | hold
      · exact hfirst path hnew
      · exact hopen path hold
  have hstart : State.Twin Q ⟨none, none, p⟩ ⟨none, none, p'⟩ := ⟨rfl, rfl, ht⟩
  exact (hfold _ _ hstart (by simp [State.path?])).progress

end Boardmod

namespace Patch

variable (h : Blind r base Q) {b : Board}
include h

theorem twin_perform {patch : Patch} {t : Tree}
    (hp : ∀ path ∈ patch.paths b t, Clear r base path) {task : Task}
    (hm : task ∈ patch.tasks b t) (o : PatchOptions) {p p' : Progress} (ht : p.Twin Q p') :
    (perform b o p task).Twin Q (perform b o p' task) := by
  cases patch with
  | modification d =>
    obtain ⟨job, hjob, rfl⟩ := List.mem_map.1 hm
    exact Modification.twin_runJob h
      (fun path hpath => hp path (List.mem_filterMap.2 ⟨job, hjob, hpath⟩)) o ht
  | stream raw =>
    unfold tasks at hm
    dsimp only at hm
    split at hm
    · obtain ⟨group, hg, rfl⟩ := List.mem_map.1 hm
      have hvisited (token : Token) (htoken : token ∈ group) :
          token ∈ Boardmod.visited b raw t := by
        rw [← Boardmod.flatten_groups (Boardmod.visited b raw t)]
        exact List.mem_flatten.2 ⟨group, hg, htoken⟩
      exact Boardmod.twin_runGroup h
        (fun token htoken => Boardmod.isSome_of_mem_visited (hvisited token htoken))
        (fun token htoken path hpath => hp path
          (List.mem_filterMap.2 ⟨token, hvisited token htoken, hpath⟩)) o ht
    · cases hm

theorem tasks_of_looks {patch : Patch} {t u : Tree} (hq : Q t u)
    (hp : ∀ p ∈ patch.looks b t, Seen r base p) : patch.tasks b u = patch.tasks b t := by
  cases patch with
  | modification d =>
    unfold tasks
    dsimp only
    rw [Modification.jobs_of_view fun p hm => (h.view hq (hp p hm)).symm]
  | stream raw =>
    unfold tasks
    dsimp only
    rw [Boardmod.visited_of_view fun p hm => (h.view hq (hp p hm)).symm]

omit h in
theorem twin_opening (patch : Patch) {s s' : Site} (hs : s.Twin Q s') :
    (patch.opening b s).Twin Q (patch.opening b s') := by
  have hempty : Progress.Twin Q ⟨s, .empty⟩ ⟨s', .empty⟩ := ⟨hs, rfl⟩
  cases patch with
  | modification d =>
    unfold opening
    dsimp only
    split
    · exact hempty.fail ..
    · exact hempty
  | stream raw =>
    have hproblems (problems : List Problem) (p p' : Progress) (ht : p.Twin Q p') :
        (Boardmod.reportProblems p problems).Twin Q (Boardmod.reportProblems p' problems) := by
      induction problems generalizing p p' with
      | nil => exact ht
      | cons problem problems ih => exact ih _ _ (ht.fail ..)
    have hstart := hproblems (Token.problems raw.toList) _ _ hempty
    unfold opening
    dsimp only
    split
    · exact hstart
    · exact hstart.fail ..

theorem twin_applyTo {patch : Patch} {s s' : Site}
    (hl : ∀ p ∈ patch.looks b s.tree, Seen r base p)
    (hp : ∀ path ∈ patch.paths b s.tree, Clear r base path) (o : PatchOptions)
    (hs : s.Twin Q s') : (patch.applyTo b o s).Twin Q (patch.applyTo b o s') := by
  have hfold (tasks : List Task) (hm : ∀ task ∈ tasks, task ∈ patch.tasks b s.tree)
      (p p' : Progress) (ht : p.Twin Q p') :
      (tasks.foldl (perform b o) p).Twin Q (tasks.foldl (perform b o) p') := by
    induction tasks generalizing p p' with
    | nil => exact ht
    | cons task tasks ih =>
      exact ih (fun other ho => hm other (List.mem_cons_of_mem _ ho)) _ _
        (twin_perform h hp (hm task (List.mem_cons_self ..)) o ht)
  rw [applyTo_eq_foldl, applyTo_eq_foldl, tasks_of_looks h hs.tree hl]
  exact hfold _ (fun _ => id) _ _ (twin_opening patch hs)

end Patch

end Patchboard
