import Patchboard.Proofs.Tree.Regularity
import Patchboard.Proofs.Tree.Repeating
import Patchboard.Proofs.Tree.Sparing

set_option autoImplicit false

namespace Patchboard.Tree
open Path

def copied (t : Tree) (origin goal : Place) : List (Place × Entry) :=
  (t.entries.filter fun e => within e.1 origin).map fun e => (rebase origin goal e.1, e.2)

/-- A directory can be copied to a place that is neither inside it nor above it. -/
structure Copyable (t : Tree) (source target : Path) : Prop where
  named : target.text.isEmpty = false
  asunder : Asunder (t.lexicalPlace source) (t.lexicalPlace target)
  steady : t.Steady target

instance (t : Tree) (source target : Path) : Decidable (t.Copyable source target) :=
  decidable_of_iff (target.text.isEmpty = false ∧
      (¬t.lexicalPlace source <+: t.lexicalPlace target ∧
        ¬t.lexicalPlace target <+: t.lexicalPlace source) ∧ t.Steady target)
    ⟨fun h => ⟨h.1, h.2.1, h.2.2⟩, fun h => ⟨h.named, h.asunder, h.steady⟩⟩

namespace Deed

def copying (t : Tree) (source target : Path) : Deed :=
  ⟨t.way source ++ t.way target, [t.spot target], [t.spot target], t.missing target⟩

/-- Files are put where the source has files, and directories are made where it has something. -/
def copyingAll (t : Tree) (source target : Path) : Deed :=
  let copies := t.copied (t.lexicalPlace source) (t.lexicalPlace target)
  let files : List Region := (copies.filter (·.2.isFile)).map fun e => ⟨e.1, false⟩
  ⟨t.way source ++ t.way target ++ copies.map (·.1), t.whole source :: files, files,
    t.missing target ++ copies.map (·.1)⟩

def moving (t : Tree) (source target : Path) : Deed :=
  ⟨t.way source ++ t.way target, [t.whole target], [t.whole source, t.whole target],
    t.missing target⟩

def removing (t : Tree) (p : Path) : Deed := ⟨t.way p, [], [t.whole p], []⟩

/-- A job that succeeds at the start succeeds on a tree that carries what it looks at, and does
nothing there but what it may do. -/
def Describes (d : Deed) (base : Tree) (job : Job Unit) : Prop :=
  ∀ t' u, job.run.run base = (.ok (), t') → Carries base d.Seen d.Firm base u → u.Regular → u.Keyed →
    ∃ u', job.run.run u = (.ok (), u') ∧ d.Allows base u u' ∧ u'.Regular

variable {base u : Tree} {d : Deed} {p source target : Path} {place : Place}

theorem describes_of_repeats {way : List Place} {job : Job Unit}
    (h : Repeats (Carries base d.Seen d.Firm) job) (hc : Confines base d.Alters way job)
    (hw : ∀ place ∈ way, base.at? place = none → place ∈ d.makes ∨ d.Alters place)
    (hr : Regulates job) : d.Describes base job := by
  intro t' u hrun hcarries hregular hkeyed
  obtain ⟨u', hrun', -⟩ := h base t' u () hcarries hrun
  have hconfined := hc u hcarries.second
  have hregular' := hr u hregular
  rw [hrun'] at hconfined hregular'
  exact ⟨u', hrun', ⟨way, hconfined, hw⟩, hregular'⟩

theorem describes_makeDirectories (base : Tree) (p : Path) :
    (making base p).Describes base (Job.ofAction (makeDirectories p)) := by
  have hpasses : Passes base (making base p).Seen p := fun place hm => .inl hm
  exact describes_of_repeats ((repeats_makeDirectories hpasses).adapt _)
    (follows_ofAction (confines_makeDirectories p))
    (fun place hm hn => .inl (mem_missing hm hn)) (follows_ofAction (regular_makeDirectories p))

theorem describes_write (base : Tree) (p : Path) (s : String) :
    (writing base p).Describes base (FileTree.write p s) := by
  have hpasses : Passes base (writing base p).Seen p := fun place hm => .inl hm
  have hspot : (writing base p).Firm (base.lexicalPlace p) := ⟨_, List.mem_singleton_self _, rfl⟩
  refine describes_of_repeats ((repeats_ensureParent hpasses).bind fun _ =>
      repeats_on (repeats_writeContents hpasses hspot _) _ _)
    (confines_write hspot s) (fun place hm hn => .inl (mem_missing hm hn)) ?_
  exact .bind lasting_regular (regular_ensureParent p) fun _ =>
    follows_on (regular_writeContents p _) _ _

theorem describes_copyFile (base : Tree) (source target : Path) :
    (copying base source target).Describes base (FileTree.copyFile source target) := by
  have hsource : Passes base (copying base source target).Seen source :=
    fun place hm => .inl (List.mem_append_left _ hm)
  have htarget : Passes base (copying base source target).Seen target :=
    fun place hm => .inl (List.mem_append_right _ hm)
  have hspot : (copying base source target).Firm (base.lexicalPlace target) :=
    ⟨_, List.mem_singleton_self _, rfl⟩
  refine describes_of_repeats (repeats_fileTree_copyFile hsource htarget hspot)
    ((confines_parents target).bind fun _ =>
      follows_doing (follows_ofAction (confines_copyFile hspot source)) _)
    (fun place hm hn => .inl (mem_missing hm hn)) ?_
  exact .bind lasting_regular (regular_ensureParent target) fun _ =>
    follows_doing (follows_ofAction (regular_copyFile source target)) _

theorem describes_move (base : Tree) (source target : Path) :
    (moving base source target).Describes base (FileTree.move source target) := by
  have hsource : Passes base (moving base source target).Seen source :=
    fun place hm => .inl (List.mem_append_left _ hm)
  have htarget : Passes base (moving base source target).Seen target :=
    fun place hm => .inl (List.mem_append_right _ hm)
  intro t' u hrun hcarries hregular hkeyed
  have hgoal (rel : Place) : (moving base source target).Firm (base.lexicalPlace target ++ rel) :=
    ⟨_, List.mem_singleton_self _, List.prefix_append ..⟩
  obtain ⟨u', hrun'⟩ := hcarries.move hsource htarget (fun rel => ⟨.inr (hgoal rel), hgoal rel⟩) hrun
  have hconfined : Confined (moving base source target).Alters (base.way target) u
      ((FileTree.move source target).run.run u).2 :=
    confines_move (fun place hp => ⟨_, List.mem_cons_self, hp⟩)
      (fun place hp => ⟨_, List.mem_cons_of_mem _ (List.mem_singleton_self _), hp⟩) u hcarries.second
  have hregular' : ((FileTree.move source target).run.run u).2.Regular :=
    Follows.bind lasting_regular (regular_ensureParent target) (fun _ =>
      follows_doing (follows_ofAction (regular_rename source target)) _) u hregular
  rw [hrun'] at hconfined hregular'
  exact ⟨u', hrun', ⟨_, hconfined, fun place hm hn => .inl (mem_missing hm hn)⟩, hregular'⟩

theorem describes_remove (hx : base.pathExists p = true) :
    (removing base p).Describes base (FileTree.remove p) := by
  intro t' u hrun hcarries hregular hkeyed
  obtain ⟨u', hrun'⟩ := hcarries.remove (fun place hm => .inl hm) hx hrun
  have hconfined : Confined (removing base p).Alters [] u ((FileTree.remove p).run.run u).2 :=
    confines_remove (fun place hp => ⟨_, List.mem_singleton_self _, hp⟩) u hcarries.second
  have hregular' := regular_remove p u hregular
  rw [hrun'] at hconfined hregular'
  exact ⟨u', hrun', ⟨_, hconfined, by simp⟩, hregular'⟩

end Deed

theorem mem_copied {t : Tree} {origin goal rel : Place} {entry : Entry} (ho : origin ≠ [])
    (h : t.at? (origin ++ rel) = some entry) : (goal ++ rel, entry) ∈ t.copied origin goal := by
  unfold at? at h
  rw [if_neg (by simp [ho]), Option.map_eq_some_iff] at h
  obtain ⟨e, hfind, rfl⟩ := h
  have hplace : e.1 = origin ++ rel := by simpa using List.find?_some hfind
  refine List.mem_map.2 ⟨e, List.mem_filter.2 ⟨List.mem_of_find?_eq_some hfind, ?_⟩, ?_⟩
  · exact within_iff.2 (hplace ▸ List.prefix_append origin rel)
  · rw [rebase, hplace, List.drop_left]

namespace Deed
variable {base u : Tree} {source target : Path}

theorem copies_copyingAll (h : base.Copyable source target) :
    Copies base (copyingAll base source target).Seen (copyingAll base source target).Firm
      (base.lexicalPlace source) (base.lexicalPlace target) := by
  have hroot : base.lexicalPlace source ≠ [] := fun he => h.asunder.1 (he ▸ List.nil_prefix)
  have hwhole (rel : Place) :
      (copyingAll base source target).Firm (base.lexicalPlace source ++ rel) :=
    ⟨_, List.mem_cons_self, List.prefix_append ..⟩
  refine ⟨h.asunder, fun rel => ⟨.inr (hwhole rel), hwhole rel⟩, fun rel hs => .inl ?_,
    fun rel contents hf => ?_⟩
  · obtain ⟨entry, hentry⟩ := Option.isSome_iff_exists.1 hs
    exact List.mem_append_right _ (List.mem_map.2 ⟨_, mem_copied hroot hentry, rfl⟩)
  · obtain ⟨mode, hentry⟩ := at?_of_look_file hf
    refine ⟨⟨_, false⟩, List.mem_cons_of_mem _ (List.mem_map.2 ⟨_, List.mem_filter.2
      ⟨mem_copied hroot hentry, rfl⟩, rfl⟩), rfl⟩

section
variable (h : base.Copyable source target)
include h

theorem isSome_of_mem_way (hc : base.Closed) {place : Place} (hm : place ∈ base.way target)
    (hp : base.lexicalPlace source <+: place) : (base.at? place).isSome := by
  rw [← Option.ne_none_iff_isSome]
  exact fun hn => h.asunder.1 (hp.trans (prefix_of_missing hc h.steady hm hn))

theorem confined_copyingAll {u' : Tree} (hr : base.Regular) (hregular : u.Regular)
    (hcarries : Carries base (copyingAll base source target).Seen
      (copyingAll base source target).Firm base u)
    (hrun : (FileTree.copyDirectory source target).run.run u = (.ok (), u')) :
    Confined (copyingAll base source target).Alters (base.way target ++
      (base.copied (base.lexicalPlace source) (base.lexicalPlace target)).map (·.1)) u u' := by
  have hcopies := copies_copyingAll h
  have hroot : base.lexicalPlace source ≠ [] := fun he => h.asunder.1 (he ▸ List.nil_prefix)
  obtain ⟨-, hs⟩ := hcarries.lexicalPlace source
  obtain ⟨-, ht⟩ := hcarries.lexicalPlace target
  -- the source is in `u` what it is at the start
  have hlook (rel : Place) : u.look (base.lexicalPlace source ++ rel) =
      base.look (base.lexicalPlace source ++ rel) :=
    hcarries.of_firm (hcopies.source rel).1 (hcopies.source rel).2
  have hsame : u.way target = base.way target := by
    rw [Tree.way, Tree.way, (hcarries.origin target).2]
  refine confined_copyDirectory hregular ?_ (fun he => ?_) ?_ ?_ ?_ ?_ hrun
  · rw [hs, ht]
    exact h.asunder
  · rw [h.named] at he
    cases he
  · rw [hsame, hs]
    intro place hm hp
    have hthere := isSome_of_mem_way h hr.closed hm hp
    have hseen : (copyingAll base source target).Seen place :=
      .inl (List.mem_append_left _ (List.mem_append_right _ hm))
    rw [← isSome_look, hcarries.of_some hseen hthere, isSome_look]
    exact hthere
  · rw [hs, ht]
    intro rel contents mode hentry
    obtain ⟨mode', hentry'⟩ := at?_of_look_file ((hlook rel).symm.trans (look_file hentry))
    exact ⟨⟨_, false⟩, List.mem_map.2 ⟨_, List.mem_filter.2
      ⟨mem_copied hroot hentry', rfl⟩, rfl⟩, rfl⟩
  · rw [hs, ht]
    intro rel hthere
    rw [← isSome_look, hlook, isSome_look] at hthere
    obtain ⟨entry, hentry⟩ := Option.isSome_iff_exists.1 hthere
    exact List.mem_append_right _ (List.mem_map.2 ⟨_, mem_copied hroot hentry, rfl⟩)
  · rw [hsame]
    exact fun place hm => List.mem_append_left _ hm

theorem describes_copyDirectory (hr : base.Regular) (hk : base.Keyed)
    (hd : base.isDirectory source = true) :
    (copyingAll base source target).Describes base (FileTree.copyDirectory source target) := by
  have hsource : Passes base (copyingAll base source target).Seen source :=
    fun place hm => .inl (List.mem_append_left _ (List.mem_append_left _ hm))
  have htarget : Passes base (copyingAll base source target).Seen target :=
    fun place hm => .inl (List.mem_append_left _ (List.mem_append_right _ hm))
  intro t' u hrun hcarries hregular hkeyed
  obtain ⟨u', hrun'⟩ := hcarries.copyDirectory (copies_copyingAll h) hr hk hkeyed
    ⟨List.append_nil _ ▸ rfl, List.append_nil _ ▸ rfl, hsource, htarget,
      fun _ => isSome_of_mem_way h hr.closed⟩ hd hrun
  have hregular' : ((FileTree.copyDirectory source target).run.run u).2.Regular :=
    (frames_copyDirectoryFrom _ source target u (Eq.refl u.working) hregular).2
  rw [hrun'] at hregular'
  refine ⟨u', hrun', ⟨_, confined_copyingAll h hr hregular hcarries hrun',
    fun place hm hn => .inl ?_⟩, hregular'⟩
  rcases List.mem_append.1 hm with hm | hm
  · exact List.mem_append_left _ (mem_missing hm hn)
  · exact List.mem_append_right _ hm

end

end Deed

end Patchboard.Tree
