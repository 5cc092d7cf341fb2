import Mathlib.Data.List.Flatten
import Patchboard.Proofs.Patch.Backups
import Patchboard.Proofs.Patch.FanOut
import Patchboard.Proofs.Tree.Reaching
import Patchboard.Proofs.Tree.Repeating

set_option autoImplicit false

namespace Patchboard
open Tree

namespace Modification
variable {b : Board} {undo : Bool} {site site' : Site}

theorem Undisturbed.congr {jobs : List Job} {p : Progress} (h : Undisturbed b undo site jobs p)
    (hf : ∀ path ∈ jobs.filterMap Job.path?, site.tree.file? path = site'.tree.file? path) :
    Undisturbed b undo site' jobs p := by
  induction jobs generalizing p with
  | nil => trivial
  | cons job jobs ih =>
    obtain ⟨hfile, h⟩ := h
    refine ⟨fun path hp => (hfile path hp).trans (hf path ?_), ih h fun path hp => hf path ?_⟩
    · exact List.mem_filterMap.2 ⟨job, List.mem_cons_self, hp⟩
    · obtain ⟨other, ho, hp⟩ := List.mem_filterMap.1 hp
      exact List.mem_filterMap.2 ⟨other, List.mem_cons_of_mem _ ho, hp⟩

end Modification

namespace Boardmod
variable {b : Board} {undo : Bool} {site site' : Site}

theorem Undisturbed.congr {tokens : List Token} {s : State} (h : Undisturbed b undo site tokens s)
    (hf : ∀ path ∈ tokens.filterMap fileOf?, site.tree.file? path = site'.tree.file? path) :
    Undisturbed b undo site' tokens s := by
  induction tokens generalizing s with
  | nil => trivial
  | cons t tokens ih =>
    obtain ⟨hfile, h⟩ := h
    refine ⟨fun path hp => (hfile path hp).trans (hf path ?_), ih h fun path hp => hf path ?_⟩
    · exact List.mem_filterMap.2 ⟨t, List.mem_cons_self, hp⟩
    · obtain ⟨other, ho, hp⟩ := List.mem_filterMap.1 hp
      exact List.mem_filterMap.2 ⟨other, List.mem_cons_of_mem _ ho, hp⟩

theorem filterMap_heads (gs : List (List Token))
    (h : ∀ group ∈ gs, ∀ t ∈ group.tail, t.kind ≠ .file) :
    gs.filterMap (fun group => group.head?.bind fileOf?) = gs.flatten.filterMap fileOf? := by
  induction gs with
  | nil => rfl
  | cons group gs ih =>
    rw [List.flatten_cons, List.filterMap_append, List.filterMap_cons,
      ih fun other ho => h other (List.mem_cons_of_mem _ ho)]
    cases group with
    | nil => rfl
    | cons head tail =>
      have htail : tail.filterMap fileOf? = [] := List.filterMap_eq_nil_iff.2 fun t ht =>
        if_neg (h (head :: tail) List.mem_cons_self t ht)
      rw [List.filterMap_cons, htail, List.head?_cons, Option.bind_some]
      cases fileOf? head <;> rfl

end Boardmod

namespace Save

def backingUp (b : Board) (t : Tree) (p : Path) : Deed :=
  ⟨[], [], [t.spot (Backup.ofFile p b.settings)], t.missing (Backup.ofFile p b.settings)⟩

def deeds (b : Board) (t : Tree) (p : Path) : List Deed := [backingUp b t p, .writing t p]

def Storable (t : Tree) (p : Path) : Prop := ((write p []).run.run t).1.isOk = true

instance (t : Tree) (p : Path) : Decidable (Storable t p) := inferInstanceAs (Decidable (_ = true))

variable {b : Board} {site s : Site} {done : List Deed} {path : Path}

theorem Storable.write {t : Tree} (h : Storable t path) (text : List Char) :
    ∃ t', (write path text).run.run t = (.ok (), t') := by
  rcases hrun : (Save.write path []).run.run t with ⟨e | ⟨⟩, t'⟩
  · unfold Storable at h
    rw [hrun] at h
    cases h
  · obtain ⟨⟨⟩, made, hparents, hwrite⟩ := run_bind_eq_ok.1 hrun
    unfold writeText at hwrite
    rw [run_writeContents] at hwrite
    cases hw : made.writable? path with
    | error e => rw [hw] at hwrite; cases hwrite
    | ok found =>
      refine ⟨made.put found.1 (.file (.text (String.ofList text)) (found.2.getD modeOfNewFile)),
        run_bind_eq_ok.2 ⟨(), made, hparents, ?_⟩⟩
      unfold writeText
      rw [run_writeContents, hw]

theorem regular_write (path : Path) (text : List Char) : Regulates (write path text) :=
  .bind lasting_regular (regular_makeParents path) fun _ => regular_writeContents path _

theorem regular_copyTo (source target : Path) : Regulates (copyTo source target) :=
  .bind lasting_regular (regular_makeParents target) fun _ => regular_copyFile source target

theorem reached_backUp (h : site.Reached done s) (existed : Bool) :
    site.Reached (done ++ [backingUp b site.tree path]) (backUp b path existed s) := by
  unfold backUp
  split
  · have halters : (backingUp b site.tree path).Alters
        (site.tree.lexicalPlace (Backup.ofFile path b.settings)) :=
      ⟨_, List.mem_singleton_self _, rfl⟩
    exact h.run ⟨_, confines_copyTo halters path s.tree h.left.second,
      fun place hw hn => .inl (mem_missing hw hn)⟩ (regular_copyTo path _ _ h.regular)
  · exact h.mono fun d hd => List.mem_append_left _ hd

theorem reached_write (h : site.Reached done s)
    (hs : ∀ d ∈ done, d.Spares (.writing site.tree path)) (hstore : Storable site.tree path)
    (text : List Char) : (s.run (write path text)).1 = .ok () ∧
      site.Reached (done ++ [.writing site.tree path]) (s.run (write path text)).2 := by
  have hpasses : Passes site.tree (Deed.writing site.tree path).Seen path := fun place hm => .inl hm
  have hfirm : (Deed.writing site.tree path).Firm (site.tree.lexicalPlace path) :=
    ⟨_, List.mem_singleton_self _, rfl⟩
  have hrepeats := (@repeats_makeParents site.tree _ (Deed.writing site.tree path).Firm _ hpasses).bind
    fun _ => repeats_writeContents hpasses hfirm (.text (String.ofList text))
  obtain ⟨t', hrun⟩ := hstore.write text
  obtain ⟨u', hrun', -⟩ := hrepeats site.tree t' s.tree () (h.left.carries hs) hrun
  have halters : (Deed.writing site.tree path).Alters (site.tree.lexicalPlace path) := hfirm
  exact ⟨congrArg Prod.fst hrun', h.run ⟨_, confines_write halters text s.tree h.left.second,
    fun place hw hn => .inl (mem_missing hw hn)⟩ (regular_write path text _ h.regular)⟩

theorem reached_written (h : site.Reached done s)
    (hs : (done ++ deeds b site.tree path).Pairwise Deed.Spares)
    (hstore : Storable site.tree path) (text : List Char) (existed : Bool) :
    (written b path text existed s).1 = .ok () ∧
      site.Reached (done ++ deeds b site.tree path) (written b path text existed s).2 := by
  have hlast : ∀ d ∈ done ++ [backingUp b site.tree path], d.Spares (.writing site.tree path) := by
    rw [deeds, ← List.singleton_append, ← List.append_assoc, List.pairwise_append] at hs
    exact fun d hd => hs.2.2 d hd _ (List.mem_singleton_self _)
  obtain ⟨hok, hreached⟩ := reached_write (reached_backUp h existed) hlast hstore text
  rw [List.append_assoc] at hreached
  exact ⟨hok, hreached⟩

theorem reached_save {undo : Bool} {p : Progress} (h : site.Reached done p.site)
    (hs : (done ++ deeds b site.tree path).Pairwise Deed.Spares)
    (hw : site.isWritable path = true) (hstore : Storable site.tree path) (theme : Nat)
    (text : List Char) (existed : Bool) (hr : p.report.Unrefused) :
    site.Reached (done ++ deeds b site.tree path)
        (save b ⟨false, undo⟩ path theme text existed p).site ∧
      (save b ⟨false, undo⟩ path theme text existed p).report.Unrefused := by
  have hmore := h.mono fun d hd => List.mem_append_left (deeds b site.tree path) hd
  have hnote (p : Progress) (hr : p.report.Unrefused) {kind : EventKind}
      (hk : kind.isRefusal = false) : (p.note path theme kind).report.Unrefused := by
    refine List.forall_mem_append.2 ⟨hr, ?_⟩
    simpa using hk
  have hpasses : Passes site.tree (Deed.writing site.tree path).Seen path := fun place hm => .inl hm
  have hspares : ∀ d ∈ done, d.Spares (.writing site.tree path) := fun d hd =>
    (List.pairwise_append.1 hs).2.2 d hd _ (by simp [deeds])
  rcases save_cases b path theme text existed ⟨false, undo⟩ p with
    ⟨-, hsave⟩ | ⟨-, ⟨ht, -⟩ | ⟨-, hno, -⟩ | ⟨-, -, hsave⟩⟩
  · rw [hsave]
    exact ⟨hmore, hnote p hr rfl⟩
  · cases ht
  · rw [h.writable hspares hpasses hw] at hno
    cases hno
  · obtain ⟨hok, hreached⟩ := reached_written (h.ensureWritable path) hs hstore text existed
    rcases store_cases b path theme text existed (p.on (p.site.ensureWritable path).2) with
      ⟨-, hstored⟩ | ⟨⟨e, he⟩, -⟩
    · rw [hsave, hstored]
      exact ⟨hreached, hnote (p.on _) hr rfl⟩
    · exact absurd (he.symm.trans hok) nofun

end Save

namespace Modification

theorem isRefusal_kindOf (outcome : Outcome) : (kindOf outcome).isRefusal = false := by
  unfold kindOf
  split <;> rfl

theorem isRefusal_of_mem_changes {steps : List (ErrorPolicy × Step)} {text : List Char}
    {kind : EventKind} (h : kind ∈ (changes steps text).1) : kind.isRefusal = false := by
  induction steps generalizing text with
  | nil => cases h
  | cons x steps ih =>
    rw [changes] at h
    cases hx : change x.1 x.2 text with
    | none =>
      rw [hx] at h
      exact ih h
    | some made =>
      rw [hx] at h
      rcases List.mem_cons.1 h with rfl | h
      · exact isRefusal_kindOf _
      · exact ih h

end Modification

namespace Boardmod

theorem isRefusal_of_mem_obey {undo : Bool} {t : Token} {search : Option (List Char)}
    {text : List Char} {kind : EventKind} (h : kind ∈ (obey undo t search text).1) :
    kind.isRefusal = false := by
  unfold obey at h
  split at h
  · cases h
  · rw [List.mem_singleton.1 h]
    rfl
  · rw [List.mem_singleton.1 h]
    rfl
  · dsimp only at h
    split at h <;> (rw [List.mem_singleton.1 h]; rfl)

theorem isRefusal_of_mem_follow {undo : Bool} {tokens : List Token} {search : Option (List Char)}
    {text : List Char} {kind : EventKind} (h : kind ∈ (follow undo tokens search text).1) :
    kind.isRefusal = false := by
  induction tokens generalizing search text with
  | nil => cases h
  | cons t tokens ih =>
    rw [follow] at h
    rcases List.mem_append.1 h with h | h
    · exact isRefusal_of_mem_obey h
    · exact ih h

end Boardmod

theorem Edits.isRefusal_of_revise (edits : Edits) (undo : Bool) (contents? : Option Contents) :
    (∀ kind, edits.revise undo contents? = .left kind → kind.isRefusal = false) ∧
      ∀ existed kinds text, edits.revise undo contents? = .made existed kinds text →
        ∀ kind ∈ kinds, kind.isRefusal = false := by
  have hblock {document : Document} {existed : Bool} {kinds : List EventKind}
      {text text' : List Char} {existed' : Bool}
      (h : ofBlock undo document existed' text' = .made existed kinds text) :
      ∀ kind ∈ kinds, kind.isRefusal = false := by
    cases h
    exact fun kind hm => Modification.isRefusal_of_mem_changes hm
  unfold revise
  split
  · exact ⟨nofun, fun _ _ _ h => hblock h⟩
  · exact ⟨fun _ h => by cases h; rfl, nofun⟩
  · split
    · exact ⟨fun _ h => by cases h; rfl, nofun⟩
    · exact ⟨nofun, fun _ _ _ h => hblock h⟩
    · exact ⟨fun _ h => by cases h; rfl, nofun⟩
  · refine ⟨nofun, fun _ _ _ h => ?_⟩
    cases h
    exact fun kind hm => Boardmod.isRefusal_of_mem_follow hm
  · exact ⟨fun _ h => by cases h; rfl, nofun⟩

theorem Report.Unrefused.extend {r : Report} (h : r.Unrefused) {new : List Event}
    (hn : ∀ e ∈ new, e.kind.isRefusal = false) : (r.extend new).Unrefused :=
  List.forall_mem_append.2 ⟨h, hn⟩

section
variable {b : Board} {site s : Site} {done : List Deed} {undo : Bool} {p : Progress}

theorem Run.reached_carryOut {run : Run} (h : site.Reached done p.site)
    (hs : (done ++ Save.deeds b site.tree run.file.path).Pairwise Deed.Spares)
    (hw : site.isWritable run.file.path = true) (hstore : Save.Storable site.tree run.file.path)
    (hstrays : ∀ e ∈ run.strays, e.kind.isRefusal = false) (hr : p.report.Unrefused) :
    site.Reached (done ++ Save.deeds b site.tree run.file.path)
        (run.carryOut b ⟨false, undo⟩ p).site ∧
      (run.carryOut b ⟨false, undo⟩ p).report.Unrefused := by
  have hmore := h.mono fun d hd => List.mem_append_left (Save.deeds b site.tree run.file.path) hd
  obtain ⟨hleft, hmade⟩ :=
    run.edits.isRefusal_of_revise undo (p.site.tree.file? run.file.path)
  unfold carryOut
  split
  · rename_i kind hrevise
    refine ⟨hmore, hr.extend (List.forall_mem_cons.2 ⟨?_, hstrays⟩)⟩
    exact hleft kind hrevise
  · rename_i existed kinds text hrevise
    have hnew : (p.extend ((.opened :: kinds).map run.event)).report.Unrefused := by
      refine Report.Unrefused.extend hr fun e he => ?_
      obtain ⟨kind, hk, rfl⟩ := List.mem_map.1 he
      rcases List.mem_cons.1 hk with rfl | hk
      · rfl
      · exact hmade existed kinds text hrevise kind hk
    have hsite : site.Reached done (p.extend ((.opened :: kinds).map run.event)).site := h
    dsimp only
    split
    · exact ⟨hmore, hnew⟩
    · exact Save.reached_save hsite hs hw hstore run.file.theme text existed hnew

namespace Patch

theorem path?_eq (task : Task) : task.path? = task.run?.map (·.file.path) := by
  cases task with
  | job job => cases job <;> rfl
  | group tokens =>
    cases tokens with
    | nil => rfl
    | cons head tail =>
      have hpath : Task.path? (.group (head :: tail)) = Boardmod.fileOf? head := rfl
      rw [hpath, Task.run?]
      cases Boardmod.fileOf? head <;> rfl

theorem isRefusal_of_mem_strays {task : Task} {run : Run} (h : task.run? = some run) {e : Event}
    (he : e ∈ run.strays) : e.kind.isRefusal = false := by
  cases task with
  | job job =>
    cases job with
    | nameless number => cases h
    | block document copy =>
      cases h
      cases he
  | group tokens =>
    cases tokens with
    | nil => cases h
    | cons head tail =>
      obtain ⟨path, -, rfl⟩ := Option.map_eq_some_iff.1 h
      obtain ⟨token, -, rfl⟩ := List.mem_map.1 he
      rfl

theorem paths_tasks (b : Board) (t : Tree) (patch : Patch) :
    ((patch.tasks b t).filterMap Task.path?).Sublist (patch.paths b t) := by
  cases patch with
  | modification d =>
    unfold tasks paths
    dsimp only
    rw [List.filterMap_map]
    exact List.Sublist.refl _
  | stream raw =>
    unfold tasks paths
    dsimp only
    split
    · rw [List.filterMap_map]
      have hheads := Boardmod.filterMap_heads (Boardmod.groups (Boardmod.visited b raw t))
        fun group hg => Boardmod.kind_ne_of_mem_tail hg
      rw [Boardmod.flatten_groups] at hheads
      rw [← hheads]
      exact List.Sublist.refl _
    · exact List.nil_sublist _

theorem reached_perform (undo : Bool) {patch : Patch} {t : Tree} {task : Task}
    (ht : task ∈ patch.tasks b t)
    (h : site.Reached done p.site)
    (hs : (done ++ task.path?.toList.flatMap (Save.deeds b site.tree)).Pairwise Deed.Spares)
    (hp : ∀ path ∈ task.path?, site.isWritable path = true ∧ Save.Storable site.tree path)
    (hr : p.report.Unrefused) :
    site.Reached (done ++ task.path?.toList.flatMap (Save.deeds b site.tree))
        (perform b ⟨false, undo⟩ p task).site ∧
      (perform b ⟨false, undo⟩ p task).report.Unrefused := by
  have hpath := path?_eq task
  cases hrun : task.run? with
  | none =>
    obtain ⟨new, hnew, hkinds⟩ := perform_of_no_run (b := b) (o := ⟨false, undo⟩) ht hrun p
    rw [hpath, hrun, hnew]
    exact ⟨h.mono fun d hd => List.mem_append_left _ hd, hr.extend fun e he => (hkinds e he).2.2⟩
  | some run =>
    rw [hrun, Option.map_some] at hpath
    obtain ⟨hw, hstore⟩ := hp run.file.path (by rw [hpath]; rfl)
    rw [hpath, Option.toList_some, List.flatMap_singleton] at hs ⊢
    rw [perform_eq_carryOut ht hrun]
    exact run.reached_carryOut h hs hw hstore (fun e he => isRefusal_of_mem_strays hrun he) hr

theorem reached_foldl_perform (undo : Bool) {patch : Patch} {t : Tree} {tasks : List Task}
    (ht : ∀ task ∈ tasks, task ∈ patch.tasks b t) (h : site.Reached done p.site)
    (hs : (done ++ (tasks.filterMap Task.path?).flatMap (Save.deeds b site.tree)).Pairwise
      Deed.Spares)
    (hp : ∀ path ∈ tasks.filterMap Task.path?,
      site.isWritable path = true ∧ Save.Storable site.tree path)
    (hr : p.report.Unrefused) :
    site.Reached (done ++ (tasks.filterMap Task.path?).flatMap (Save.deeds b site.tree))
        (tasks.foldl (perform b ⟨false, undo⟩) p).site ∧
      (tasks.foldl (perform b ⟨false, undo⟩) p).report.Unrefused := by
  induction tasks generalizing done p with
  | nil =>
    rw [List.filterMap_nil, List.flatMap_nil, List.append_nil]
    exact ⟨h, hr⟩
  | cons task tasks ih =>
    have hsplit : (task :: tasks).filterMap Task.path? =
        task.path?.toList ++ tasks.filterMap Task.path? := by
      rw [List.filterMap_cons]
      cases task.path? <;> rfl
    rw [hsplit, List.flatMap_append, ← List.append_assoc] at hs ⊢
    rw [hsplit] at hp
    obtain ⟨hfirst, hunrefused⟩ := reached_perform undo
      (ht task List.mem_cons_self) h (hs.sublist (List.sublist_append_left ..))
      (fun path hm => hp path (List.mem_append_left _ (Option.mem_toList.2 hm))) hr
    exact ih (fun other ho => ht other (List.mem_cons_of_mem _ ho)) hfirst hs
      (fun path hm => hp path (List.mem_append_right _ hm)) hunrefused

def deeds (b : Board) (t : Tree) (patch : Patch) : List Deed :=
  .looking t (patch.looks b t) :: (patch.paths b t).flatMap (Save.deeds b t)

/-- All files of a patch can be written, and no way to them or to where they are looked for steps up
out of something that is missing. -/
structure Feasible (b : Board) (site : Site) (patch : Patch) : Prop where
  steady : ∀ p ∈ patch.looks b site.tree ++ patch.paths b site.tree, site.tree.Steady p
  files : ∀ p ∈ patch.paths b site.tree, site.isWritable p = true ∧ Save.Storable site.tree p

instance (b : Board) (site : Site) (patch : Patch) : Decidable (patch.Feasible b site) :=
  decidable_of_iff ((∀ p ∈ patch.looks b site.tree ++ patch.paths b site.tree,
      site.tree.Steady p) ∧ ∀ p ∈ patch.paths b site.tree,
        site.isWritable p = true ∧ Save.Storable site.tree p)
    ⟨fun h => ⟨h.1, h.2⟩, fun h => ⟨h.steady, h.files⟩⟩

section
variable {patch : Patch} {t t' : Tree}

theorem tasks_of_view (h : ∀ p ∈ patch.looks b t, t.view p = t'.view p) :
    patch.tasks b t = patch.tasks b t' ∧ patch.paths b t = patch.paths b t' := by
  cases patch with
  | modification d =>
    have hjobs : Modification.jobs b d t = Modification.jobs b d t' := Modification.jobs_of_view h
    exact ⟨by rw [tasks, tasks, hjobs], by rw [paths, paths, hjobs]⟩
  | stream raw =>
    have hvisited : Boardmod.visited b raw t = Boardmod.visited b raw t' :=
      Boardmod.visited_of_view h
    exact ⟨by rw [tasks, tasks, hvisited], by rw [paths, paths, hvisited]⟩

theorem Undisturbed.of_view (hu : patch.Undisturbed b undo s s)
    (hl : ∀ p ∈ patch.looks b site.tree, site.tree.view p = s.tree.view p)
    (hp : ∀ p ∈ patch.paths b site.tree, site.tree.view p = s.tree.view p) :
    patch.Undisturbed b undo site s := by
  unfold Undisturbed at hu ⊢
  cases patch with
  | modification d =>
    have hjobs := Modification.jobs_of_view hl
    dsimp only at hu ⊢
    rw [hjobs]
    refine hu.congr fun p hm => (file?_of_view (hp p ?_)).symm
    rw [paths, hjobs]
    exact hm
  | stream raw =>
    have hvisited := Boardmod.visited_of_view hl
    dsimp only at hu ⊢
    rw [hvisited]
    refine hu.congr fun p hm => (file?_of_view (hp p ?_)).symm
    rw [paths, hvisited]
    exact hm

end

theorem clears_of_spares {p q : Path} (h : site.Reached done s)
    (hs : ∀ d ∈ Save.deeds b site.tree p, ∀ e ∈ Save.deeds b site.tree q, d.Spares e) :
    Clears b s.tree p q := by
  have hplace (p : Path) : s.tree.lexicalPlace p = site.tree.lexicalPlace p :=
    lexicalPlace_congr h.left.second p
  have hway (d : Deed) (hd : d ∈ Save.deeds b site.tree p) :
      ¬d.Alters (site.tree.lexicalPlace q) :=
    (hs d hd (Deed.writing site.tree q) (by simp [Save.deeds])).passes _
      (lexicalPlace_mem_way site.tree q)
  unfold Clears Save.footprint
  rw [hplace, hplace, hplace, List.mem_cons, List.mem_singleton]
  rintro (he | he)
  · exact hway (Save.backingUp b site.tree p) (by simp [Save.deeds])
      ⟨_, List.mem_singleton_self _, he⟩
  · exact hway (Deed.writing site.tree p) (by simp [Save.deeds]) ⟨_, List.mem_singleton_self _, he⟩

section
variable {patch : Patch} {p : Path} (hc : site.tree.Closed) (h : site.Reached done s)
  (hs : (done ++ patch.deeds b site.tree).Pairwise Deed.Spares) (hf : patch.Feasible b site)
include hc h hs hf

theorem view_of_mem_looks (hp : p ∈ patch.looks b site.tree) :
    s.tree.view p = site.tree.view p :=
  view_of_looking h.left
    (fun d hd => (List.pairwise_append.1 hs).2.2 d hd _ List.mem_cons_self) hc hp
    (hf.steady p (List.mem_append_left _ hp))

omit hc hf in
theorem carries_of_mem_paths (hp : p ∈ patch.paths b site.tree) :
    Carries site.tree (Deed.writing site.tree p).Seen (Deed.writing site.tree p).Firm
      site.tree s.tree := by
  refine h.left.carries fun d hd =>
    (List.pairwise_append.1 hs).2.2 d hd _ (List.mem_cons_of_mem _ ?_)
  exact List.mem_flatMap.2 ⟨p, hp, by simp [Save.deeds]⟩

/-- A patch that is spared by what was done before finds its files as they were at the start. -/
theorem undisturbed_of_spared (undo : Bool) : patch.Undisturbed b undo site s := by
  have hlooks (p : Path) (hp : p ∈ patch.looks b site.tree) :
      site.tree.view p = s.tree.view p :=
    (view_of_mem_looks hc h hs hf hp).symm
  have hpaths : patch.paths b site.tree = patch.paths b s.tree := (tasks_of_view hlooks).2
  have hpasses (p : Path) : Passes site.tree (Deed.writing site.tree p).Seen p :=
    fun place hm => .inl hm
  have hsteady (p : Path) (hp : p ∈ patch.paths b site.tree) : site.tree.Steady p :=
    hf.steady p (List.mem_append_right _ hp)
  have hclears : (patch.paths b site.tree).Pairwise (Clears b s.tree) :=
    (List.pairwise_flatMap.1 (List.pairwise_cons.1 (List.pairwise_append.1 hs).2.1).2).2.imp
      fun hpair => clears_of_spares h hpair
  have hnow : patch.Undisturbed b undo s s :=
    undisturbed_of_clears h.regular.closed (hpaths ▸ hclears) fun p hp =>
      (carries_of_mem_paths h hs (hpaths ▸ hp)).steady (hpasses p) (hsteady p (hpaths ▸ hp))
  exact hnow.of_view hlooks fun p hp => ((carries_of_mem_paths h hs hp).view hc (hsteady p hp)
    (hpasses p) ⟨_, List.mem_singleton_self _, rfl⟩).symm

theorem reached_applyTo (undo : Bool) :
    site.Reached (done ++ patch.deeds b site.tree) (patch.applyTo b ⟨false, undo⟩ s).site ∧
      (patch.applyTo b ⟨false, undo⟩ s).report.Unrefused := by
  have htasks : patch.tasks b site.tree = patch.tasks b s.tree :=
    (tasks_of_view fun p hp => (view_of_mem_looks hc h hs hf hp).symm).1
  -- what is recorded about the patch as a whole refuses nothing
  obtain ⟨new, hopening, hnew⟩ := opening_eq (b := b) patch s
  have hunrefused : ((⟨s, .empty⟩ : Progress).extend new).report.Unrefused :=
    Report.Unrefused.extend (by simp [Report.Unrefused, Report.empty]) fun e he => (hnew e he).2.2
  have hstart : site.Reached done ((⟨s, .empty⟩ : Progress).extend new).site := h
  have hsub := paths_tasks b site.tree patch
  have hsubs : (done ++ ((patch.tasks b site.tree).filterMap Task.path?).flatMap
      (Save.deeds b site.tree)).Sublist (done ++ patch.deeds b site.tree) :=
    (List.Sublist.refl _).append ((hsub.flatMap _).trans (List.sublist_cons_self ..))
  obtain ⟨hreached, hlast⟩ := reached_foldl_perform (b := b) undo (fun _ => id) hstart
    (hs.sublist hsubs) (fun p hp => hf.files p (hsub.subset hp)) hunrefused
  rw [applyTo_eq_foldl, ← htasks, hopening]
  exact ⟨hreached.mono fun d hd => hsubs.subset hd, hlast⟩

end

end Patch

end

end Patchboard
