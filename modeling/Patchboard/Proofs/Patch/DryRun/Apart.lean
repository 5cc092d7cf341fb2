import Patchboard.Proofs.Patch.DryRun.Dialect

set_option autoImplicit false

namespace Patchboard
open Tree

/-- Files that lie apart: no two paths name one place, the backup of a file is none of the others,
and no path steps up out of a directory that is not there. -/
structure Apart (b : Board) (t : Tree) (paths : List Path) : Prop where
  distinct : (paths.map t.lexicalPlace).Nodup
  backups : ∀ p ∈ paths, ∀ q ∈ paths,
    t.lexicalPlace (Backup.ofFile p b.settings) = t.lexicalPlace q →
      t.lexicalPlace p = t.lexicalPlace q
  steady : ∀ p ∈ paths, t.Steady p

def Clears (b : Board) (t : Tree) (p q : Path) : Prop :=
  t.lexicalPlace q ∉ Save.footprint b t p

instance (b : Board) (t : Tree) (p q : Path) : Decidable (Clears b t p q) :=
  inferInstanceAs (Decidable (t.lexicalPlace q ∉ Save.footprint b t p))

theorem Apart.pairwise {b : Board} {t : Tree} {paths : List Path} (h : Apart b t paths) :
    paths.Pairwise (Clears b t) := by
  have hd := List.pairwise_map.1 h.distinct
  refine hd.imp_of_mem fun {p q} hp hq hne hmem => ?_
  rcases List.mem_cons.1 hmem with he | hmem
  · exact hne (h.backups p hp q hq he.symm)
  · exact hne (List.mem_singleton.1 hmem).symm

theorem footprint_of_grown {t t' : Tree} {written : List Place} (h : Grown t t' written)
    (b : Board) (p : Path) : Save.footprint b t' p = Save.footprint b t p := by
  unfold Save.footprint
  rw [lexicalPlace_of_grown h, lexicalPlace_of_grown h]

namespace Modification

theorem footprint_job_of_grown {t t' : Tree} {written : List Place} (h : Grown t t' written)
    (b : Board) (job : Job) : job.footprint b t' = job.footprint b t := by
  unfold Job.footprint
  congr 1
  funext path
  exact footprint_of_grown h b path

theorem undisturbed_of_pairwise {b : Board} {undo : Bool} {site : Site} {jobs : List Job}
    {p : Progress} {written : List Place} (hc : site.tree.Closed)
    (hg : Grown site.tree p.site.tree written)
    (hw : ∀ path ∈ jobs.filterMap Job.path?, site.tree.lexicalPlace path ∉ written)
    (hpair : (jobs.filterMap Job.path?).Pairwise (Clears b site.tree))
    (hs : ∀ path ∈ jobs.filterMap Job.path?, site.tree.Steady path) :
    Undisturbed b undo site jobs p := by
  induction jobs generalizing p written with
  | nil => trivial
  | cons job jobs ih =>
    have hstep := grown_runJob b ⟨false, undo⟩ p job
    rw [footprint_job_of_grown hg] at hstep
    cases hp : job.path? with
    | none =>
      rw [List.filterMap_cons_none hp] at hw hpair hs
      refine ⟨by simp [hp], ih (hg.trans hstep) ?_ hpair hs⟩
      simpa [Job.footprint, hp] using hw
    | some path =>
      rw [List.filterMap_cons_some hp] at hw hpair hs
      obtain ⟨hhead, hpair⟩ := List.pairwise_cons.1 hpair
      refine ⟨fun other ho => ?_, ih (hg.trans hstep) (fun other ho hm => ?_) hpair
        fun other ho => hs other (List.mem_cons_of_mem _ ho)⟩
      · rw [hp] at ho
        cases ho
        exact file?_of_grown hg hc (hs path (List.mem_cons_self ..))
          (hw path (List.mem_cons_self ..))
      · rcases List.mem_append.1 hm with hm | hm
        · exact hw other (List.mem_cons_of_mem _ ho) hm
        · have hpath : job.footprint b site.tree = Save.footprint b site.tree path := by
            simp [Job.footprint, hp]
          rw [hpath] at hm
          exact hhead other ho hm

end Modification

namespace Boardmod

theorem site_advance_file {b : Board} {o : PatchOptions} {s : State} {t : Token} {path : Path}
    (h : fileOf? t = some path) :
    (advance b o s t).progress.site = (s.close b o).progress.site := by
  rw [advance_file h, State.site_openFile]

theorem fileOf?_eq_none {t : Token} (hp : t.kind = .file → t.path.isSome)
    (h : fileOf? t = none) : t.kind ≠ .file := by
  intro hk
  obtain ⟨path, hpath⟩ := fileOf?_of_kind hk (hp hk)
  rw [h] at hpath
  simp at hpath

theorem site_advance_other {b : Board} {o : PatchOptions} {s : State} {t : Token}
    (h : t.kind ≠ .file) : (advance b o s t).progress.site = s.progress.site := by
  obtain ⟨new, hgo⟩ := goesOn_advance (b := b) (o := o) h s
  exact hgo.site

theorem grown_close_of_open {b : Board} {o : PatchOptions} {t : Tree} {s : State}
    {written : List Place} (hg : Grown t s.progress.site.tree written)
    (hopen : ∀ path ∈ s.path?, ∀ place ∈ Save.footprint b t path, place ∈ written) :
    Grown t (s.close b o).progress.site.tree written := by
  refine hg.then ((s.grown_close b o).mono fun place hp => ?_)
  obtain ⟨path, hpath, hp⟩ := List.mem_flatMap.1 hp
  rw [footprint_of_grown hg] at hp
  exact hopen path (by simpa using hpath) place hp

theorem undisturbed_of_pairwise {b : Board} {undo : Bool} {site : Site} {tokens : List Token}
    {s : State} {written : List Place} (hc : site.tree.Closed)
    (hp : ∀ t ∈ tokens, t.kind = .file → t.path.isSome)
    (hg : Grown site.tree s.progress.site.tree written)
    (hopen : ∀ path ∈ s.path?, ∀ place ∈ Save.footprint b site.tree path, place ∈ written)
    (hw : ∀ path ∈ tokens.filterMap fileOf?, site.tree.lexicalPlace path ∉ written)
    (hpair : (tokens.filterMap fileOf?).Pairwise (Clears b site.tree))
    (hs : ∀ path ∈ tokens.filterMap fileOf?, site.tree.Steady path) :
    Undisturbed b undo site tokens s := by
  induction tokens generalizing s written with
  | nil => trivial
  | cons t tokens ih =>
    have hpt := hp t (List.mem_cons_self ..)
    have hrest : ∀ t ∈ tokens, t.kind = .file → t.path.isSome :=
      fun other ho => hp other (List.mem_cons_of_mem _ ho)
    have hclose := grown_close_of_open (o := ⟨false, undo⟩) hg hopen
    cases hf : fileOf? t with
    | none =>
      rw [List.filterMap_cons_none hf] at hw hpair hs
      have hk := fileOf?_eq_none hpt hf
      refine ⟨by simp [hf], ih hrest ?_ ?_ hw hpair hs⟩
      · rw [site_advance_other hk]
        exact hg
      · intro path hpath
        rcases path?_advance hpt path hpath with h | h
        · simp [hf] at h
        · exact hopen path h
    | some path =>
      rw [List.filterMap_cons_some hf] at hw hpair hs
      obtain ⟨hhead, hpair⟩ := List.pairwise_cons.1 hpair
      have hnext : Grown site.tree (advance b ⟨false, undo⟩ s t).progress.site.tree
          (written ++ Save.footprint b site.tree path) := by
        rw [site_advance_file hf]
        exact hclose.mono fun place hm => List.mem_append_left _ hm
      refine ⟨fun other ho => ?_, ih hrest hnext ?_ (fun other ho hm => ?_) hpair
        fun other ho => hs other (List.mem_cons_of_mem _ ho)⟩
      · rw [hf] at ho
        cases ho
        exact file?_of_grown hclose hc (hs path (List.mem_cons_self ..))
          (hw path (List.mem_cons_self ..))
      · intro other ho place hm
        rw [advance_file hf] at ho
        rw [State.path?_openFile _ _ _ other ho] at hm
        exact List.mem_append_right _ hm
      · rcases List.mem_append.1 hm with hm | hm
        · exact hw other (List.mem_cons_of_mem _ ho) hm
        · exact hhead other ho hm

end Boardmod

end Patchboard
