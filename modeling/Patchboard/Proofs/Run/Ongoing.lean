import Patchboard.Proofs.State.Reserve

set_option autoImplicit false

namespace Patchboard.Run
open Path Tree StateLayout

attribute [local irreducible] fileStem

variable {l : StateLayout} {base base' t t' u u' : Tree} {m : RunMetadata} {run name : String}
  {entries : List JournalEntry} {place : Place}

theorem isName_of_mem_runNames (h : '/' ∉ run.toList) (hm : name ∈ runNames run) : IsName name := by
  simp only [runNames, List.mem_cons, List.not_mem_nil, or_false] at hm
  rcases hm with rfl | rfl | rfl
  · exact isName_active
  · exact isName_runFile h (by decide) (by decide)
  · exact isName_runFile h (by decide) (by decide)

theorem marker_mem_runNames (run : String) : "active" ∈ runNames run := List.mem_cons_self ..

theorem metadata_mem_runNames (run : String) : run ++ ".json" ∈ runNames run := by simp [runNames]

theorem journal_mem_runNames (run : String) : run ++ ".journal" ∈ runNames run := by
  simp [runNames]

/-- The metadata and the journal of a run, in a tree where its directory is still there. -/
structure Records (l : StateLayout) (base : Tree) (m : RunMetadata) (entries : List JournalEntry)
    (u : Tree) : Prop where
  working : u.working = base.working
  stands : (l.reserve base).Stands u
  metadata : ∃ mode, u.at? (fileAt l u (m.run ++ ".json")) =
    some (.file (.text m.json.renderIndented) mode)
  journal : Journals l m.run entries u

theorem Records.change (h : Records l base m entries u) (hw : u'.working = u.working)
    (hs : (l.reserve base).Stands u')
    (ha : ∀ name ∈ [m.run ++ ".json", m.run ++ ".journal"],
      u'.at? (fileAt l u' name) = u.at? (fileAt l u name)) : Records l base m entries u' := by
  refine ⟨hw.trans h.working, hs, ?_, ?_⟩
  · rw [ha _ (by simp)]
    exact h.metadata
  · unfold Journals
    rw [ha _ (by simp)]
    exact h.journal

/-- The state directory is there, no run holds its marker, the id is a new one, and the files of a
run of this id can be named. -/
structure Vacant (l : StateLayout) (run : String) (t : Tree) : Prop where
  closed : t.Closed
  named : t.Named
  working : Spelled t.working
  based : Based l t
  fits : ∀ name ∈ runNames run, Fits l.runs name
  marker : t.pathExists l.activeMarker = false
  metadata : t.pathExists (l.metadata run) = false
  journal : t.pathExists (l.journal run) = false

structure Ready (l : StateLayout) (run : String) (t : Tree) : Prop extends Vacant l run t where
  id : '/' ∉ run.toList

section
variable (h : Ready l run base)
include h

theorem Ready.absent (hm : name ∈ runNames run) : base.at? (fileAt l base name) = none := by
  have hp : base.pathExists (l.runs.join ⟨name⟩) = false := by
    simp only [runNames, List.mem_cons, List.not_mem_nil, or_false] at hm
    rcases hm with rfl | rfl | rfl
    · exact h.marker
    · exact h.metadata
    · exact h.journal
  rw [Bool.eq_false_iff, ne_eq, pathExists_join_iff (isName_of_mem_runNames h.id hm)] at hp
  by_contra hs
  exact hp ⟨h.fits name hm, enters_of_isDirectory h.based.runs, Option.isSome_iff_ne_none.2 hs⟩

theorem Ready.fresh : Fresh l run base := by
  intro place hp
  obtain ⟨name, hm, rfl⟩ := List.mem_map.1 hp
  exact h.absent hm

theorem Ready.guarded : Guarded (l.reserve base) base base := guarded_of_based h.based h.named

theorem Ready.not_prefix (hm : name ∈ runNames run)
    (hp : place ∈ (l.reserve base).closed ∨ place ∈ (l.reserve base).kept) :
    ¬fileAt l base name <+: place := by
  intro habove
  obtain ⟨mode, hd⟩ := h.guarded.stands place hp
  have hthere := h.closed.isSome_of_prefix (by rw [hd]; rfl) habove
  rw [h.absent hm] at hthere
  cases hthere

theorem Ready.write (hp : Parted (l.reserve base) base base' (runFiles l run base) t u)
    (hm : name ∈ runNames run) (entry : Entry) :
    Parted (l.reserve base) base (u.put (fileAt l u name) entry) (runFiles l run base) t
      (u.put (fileAt l u name) entry) := by
  have hfile : fileAt l base name ∈ runFiles l run base := List.mem_map_of_mem hm
  rw [fileAt_congr hp.working]
  refine hp.write hfile (fun part hpart => ?_)
    (fun hstands => h.not_prefix hm hstands List.prefix_rfl) _
  rcases List.mem_append.1 hpart with hpart | hpart
  · exact spelled_lexicalPlace h.working l.runs part hpart
  · exact List.mem_singleton.1 hpart ▸ isName_of_mem_runNames h.id hm

end

/-- Apart from the files of the run, which hold the marker, its metadata and some entries of its
journal, the tree `u` is the tree `t`. -/
structure UnderWay (l : StateLayout) (base : Tree) (m : RunMetadata) (entries : List JournalEntry)
    (t u : Tree) : Prop extends Records l base m entries u where
  parted : Parted (l.reserve base) base u (runFiles l m.run base) t u
  marker : ∃ mode, u.at? (fileAt l u "active") = some (.file (.text (m.run ++ "\n")) mode)

section
variable (hr : Ready l m.run base)
include hr

theorem Records.runs (h : Records l base m entries u) : u.isDirectory l.runs = true :=
  isDirectory_runs hr.based h.stands h.working

theorem Records.read (h : Records l base m entries u) (hs : m.Sized)
    (he : ∀ e ∈ entries, e.seq < UInt64.size) :
    (readMetadata l m.run).run.run u = (.ok (some m), u) ∧
      (readJournal l m.run).run.run u = (.ok entries, u) := by
  obtain ⟨mode, hm⟩ := h.metadata
  exact ⟨run_readMetadata (h.runs hr) (isName_of_mem_runNames hr.id (metadata_mem_runNames _))
      (hr.fits _ (metadata_mem_runNames _)) hs hm,
    run_readJournal (h.runs hr) (isName_of_mem_runNames hr.id (journal_mem_runNames _))
      (hr.fits _ (journal_mem_runNames _)) h.journal he⟩

theorem Ready.begins : ∃ v u, (claim l m.run).run.run base = (.ok l.activeMarker, v) ∧
    (writeMetadata l m).run.run v = (.ok (l.metadata m.run), u) ∧
      UnderWay l base m [] base u := by
  have hstart : Parted (l.reserve base) base base (runFiles l m.run base) base base :=
    ⟨hr.guarded, hr.guarded, rfl⟩
  obtain ⟨mode, hclaim⟩ := run_claim hr.based.runs (hr.fits _ (marker_mem_runNames _))
    (hr.absent (marker_mem_runNames _)) m.run
  have hclaimed := hr.write hstart (marker_mem_runNames _) (.file (.text (m.run ++ "\n")) mode)
  obtain ⟨v, hv⟩ : ∃ v, v = base.put (fileAt l base "active")
    (.file (.text (m.run ++ "\n")) mode) := ⟨_, rfl⟩
  have hmarker : v.at? (fileAt l v "active") = some (.file (.text (m.run ++ "\n")) mode) := by
    rw [hv]
    exact at?_put_self _
  have hmetadata : v.at? (fileAt l v (m.run ++ ".json")) = none := by
    rw [hv, at?_put_other (marker_ne_metadata _).symm, hr.absent (metadata_mem_runNames _)]
  have hjournal : v.at? (fileAt l v (m.run ++ ".journal")) = none := by
    rw [hv, at?_put_other (marker_ne_journal _).symm, hr.absent (journal_mem_runNames _)]
  rw [← hv] at hclaim hclaimed
  obtain ⟨mode', hwrite⟩ :=
    run_writeMetadata (isDirectory_runs hr.based hclaimed.second.stands hclaimed.working)
      (isName_of_mem_runNames hr.id (metadata_mem_runNames _)) (hr.fits _ (metadata_mem_runNames _))
      rfl (by simp [hmetadata])
  have hwritten := hr.write hclaimed (metadata_mem_runNames _)
    (.file (.text m.json.renderIndented) mode')
  refine ⟨v, _, hclaim, hwrite, ⟨hwritten.working, hwritten.second.stands,
    ⟨mode', at?_put_self _⟩, .inl ⟨?_, rfl⟩⟩, hwritten, ⟨mode, ?_⟩⟩
  · rw [at?_put_other (metadata_ne_journal _ _).symm, hjournal]
  · rw [at?_put_other (marker_ne_metadata _), hmarker]

variable (h : UnderWay l base m entries t u)
include h

omit hr in
theorem UnderWay.carry (hp : Parted (l.reserve base) base u (runFiles l m.run base) t' u') :
    UnderWay l base m entries t' u' := by
  have hw : u'.working = u.working := hp.working.trans h.working.symm
  have hsame {name : String} (hm : name ∈ runNames m.run) :
      u'.at? (fileAt l u' name) = u.at? (fileAt l u name) := by
    have hfile : fileAt l u name ∈ runFiles l m.run base := by
      rw [fileAt_congr h.working]
      exact List.mem_map_of_mem hm
    rw [fileAt_congr hw]
    exact hp.second.below _ (not_off_of_mem_runFiles hfile)
  refine ⟨h.toRecords.change hw hp.second.stands fun name hn => hsame ?_, hp.self, ?_⟩
  · exact List.mem_cons_of_mem _ hn
  · rw [hsame (marker_mem_runNames _)]
    exact h.marker

theorem UnderWay.append (e : JournalEntry) : ∃ u', (appendJournal l m.run e).run.run u =
    (.ok (l.journal m.run), u') ∧ UnderWay l base m (entries ++ [e]) t u' := by
  obtain ⟨mode, hrun⟩ := run_appendJournal (h.runs hr)
    (isName_of_mem_runNames hr.id (journal_mem_runNames _)) (hr.fits _ (journal_mem_runNames _))
    h.journal e
  have hp := hr.write h.parted (journal_mem_runNames _)
    (.file (.text (journalText (entries ++ [e]))) mode)
  refine ⟨_, hrun, ⟨hp.working, hp.second.stands, ?_, .inr ⟨mode, at?_put_self _⟩⟩, hp, ?_⟩
  · rw [at?_put_other (metadata_ne_journal _ _)]
    exact h.metadata
  · rw [at?_put_other (marker_ne_journal _)]
    exact h.marker

theorem UnderWay.update (hs : m.Sized) (status : String) :
    ∃ u', (updateStatus l m.run status).run.run u = (.ok (), u') ∧
      UnderWay l base { m with status } entries t u' := by
  obtain ⟨mode, hm⟩ := h.metadata
  obtain ⟨mode', hrun⟩ := run_updateStatus (h.runs hr)
    (isName_of_mem_runNames hr.id (metadata_mem_runNames _)) (hr.fits _ (metadata_mem_runNames _))
    rfl hs hm status
  have hp := hr.write h.parted (metadata_mem_runNames _)
    (.file (.text { m with status }.json.renderIndented) mode')
  refine ⟨_, hrun, ⟨hp.working, hp.second.stands, ⟨mode', at?_put_self _⟩, ?_⟩, hp, ?_⟩
  · unfold Journals
    rw [at?_put_other (metadata_ne_journal _ _).symm]
    exact h.journal
  · rw [at?_put_other (marker_ne_metadata _)]
    exact h.marker

end

theorem Records.ends (hr : Ready l m.run base) (h : Records l base m entries u)
    {contents : Contents} {mode : Nat}
    (hm : u.at? (fileAt l u "active") = some (.file contents mode)) :
    ∃ u', (clear l).run.run u = (.ok (), u') ∧ u'.pathExists l.activeMarker = false ∧
      Records l base m entries u' ∧
        ∀ place, ¬fileAt l base "active" <+: place → u'.at? place = u.at? place := by
  have hat (place : Place) : (u.removeBelow (fileAt l u "active")).at? place =
      if fileAt l u "active" <+: place then none else u.at? place :=
    at?_removeBelow u (fileAt_ne_nil l u _) place
  have hplace : fileAt l u "active" = fileAt l base "active" := fileAt_congr h.working _
  refine ⟨_, run_clear (h.runs hr) (hr.fits _ (marker_mem_runNames _)) hm, ?_, ?_, ?_⟩
  · rw [Bool.eq_false_iff, ne_eq, activeMarker_eq, pathExists_join_iff isName_active]
    rintro ⟨-, -, hs⟩
    have hgone := (hat (fileAt l u "active")).trans (if_pos List.prefix_rfl)
    exact Option.isSome_iff_ne_none.1 hs hgone
  · refine h.change rfl (fun place hp => ?_) fun name hn => ?_
    · rw [hat, if_neg (hplace ▸ hr.not_prefix (marker_mem_runNames _) hp)]
      exact h.stands place hp
    · refine (hat _).trans (if_neg fun hp => ?_)
      have hname := name_eq_of_fileAt hp
      rcases List.mem_pair.1 hn with rfl | rfl
      · exact marker_ne_metadata _ hname
      · exact marker_ne_journal _ hname
  · intro place hp
    rw [hat, if_neg (hplace ▸ hp)]

end Patchboard.Run
