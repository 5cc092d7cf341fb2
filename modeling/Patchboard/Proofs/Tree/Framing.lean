import Patchboard.Proofs.Tree.Hiding
import Patchboard.Proofs.Tree.Overlaying
import Patchboard.Proofs.Tree.Writing
import Patchboard.Tree.Changes

set_option autoImplicit false

namespace Patchboard.Tree
open Path

variable {t t' base : Tree} {inside : Place → Prop} {way : List Place} {p source target : Path}
  {place origin goal : Place}

theorem moved_fst (origin goal : Place) (e : Place × Entry) :
    (moved origin goal e).1 = if within e.1 origin then rebase origin goal e.1 else e.1 := by
  unfold moved
  split <;> rfl

theorem Keyed.relocate (h : t.Keyed) (origin : Place) (hg : ∀ e ∈ t.entries, ¬goal <+: e.1) :
    (t.relocate origin goal).Keyed := by
  have hkeys : (t.relocate origin goal).entries.map (·.1) =
      (t.entries.map (·.1)).map
        fun place => if within place origin then rebase origin goal place else place := by
    rw [relocate_eq, List.map_map, List.map_map]
    exact List.map_congr_left fun e _ => moved_fst origin goal e
  unfold Keyed at h ⊢
  rw [hkeys]
  refine h.map_on fun a ha b hb hab => ?_
  obtain ⟨ea, hea, rfl⟩ := List.mem_map.1 ha
  obtain ⟨eb, heb, rfl⟩ := List.mem_map.1 hb
  have hkept (e : Place × Entry) (he : e ∈ t.entries) (rel : Place) : e.1 ≠ goal ++ rel := by
    intro hplace
    exact hg e he (hplace ▸ List.prefix_append goal rel)
  unfold rebase at hab
  split at hab
  · rename_i hwa
    obtain ⟨rel, hrel⟩ := within_iff.1 hwa
    split at hab
    · rename_i hwb
      obtain ⟨rel', hrel'⟩ := within_iff.1 hwb
      rw [← hrel, ← hrel', List.drop_left, List.drop_left, List.append_cancel_left_eq] at hab
      rw [← hrel, ← hrel', hab]
    · exact absurd hab.symm (hkept eb heb _)
  · split at hab
    · exact absurd hab (hkept ea hea _)
    · exact hab

theorem confined_relocate (ho : ∀ place, origin <+: place → inside place)
    (hg : ∀ place, goal <+: place → inside place) :
    Confined inside way t ((t.removeBelow goal).relocate origin goal) := by
  have hfree : ∀ e ∈ (t.removeBelow goal).entries, ¬goal <+: e.1 := by
    intro e he hp
    have hnot := (List.mem_filter.1 he).2
    rw [within_iff.2 hp] at hnot
    cases hnot
  refine ⟨rfl, fun hk => (hk.removeBelow goal).relocate origin hfree, fun place hp => .inl ?_⟩
  have hgoal : ¬goal <+: place := fun h => hp (hg place h)
  rw [at?_relocate _ (fun h => hp (ho place h)) hgoal,
    at?_removeBelow t (by rintro rfl; exact hgoal List.nil_prefix), if_neg hgoal]

theorem confines_rename (hs : ∀ place, base.lexicalPlace source <+: place → inside place)
    (ht : ∀ place, base.lexicalPlace target <+: place → inside place) :
    Confines base inside way (rename source target) := by
  intro t hw
  unfold rename
  rw [run_bind, run_ask]
  cases hstart : t.locate source with
  | error e => exact .refl t
  | ok start =>
    dsimp only
    rw [run_bind, run_ask]
    cases hgoal : t.locate target with
    | error e => exact .refl t
    | ok goal =>
      obtain rfl : start = base.lexicalPlace source :=
        (locate_ok hstart).trans (lexicalPlace_congr hw source)
      obtain rfl : goal = base.lexicalPlace target :=
        (locate_ok hgoal).trans (lexicalPlace_congr hw target)
      dsimp only
      split
      · exact .refl t
      · rw [run_bind, run_get]
        dsimp only
        split
        · exact .refl t
        · split
          · exact .refl t
          · split
            · exact .refl t
            · rw [run_bind, run_ask]
              split
              · rename_i u t' h
                obtain ⟨-, rfl⟩ := Prod.mk.inj h
                exact confined_relocate hs ht
              · rename_i e t' h
                obtain ⟨-, rfl⟩ := Prod.mk.inj h
                exact .refl t

theorem confined_removeAt (hi : ∀ place, origin <+: place → inside place) :
    Confined inside way t (t.removeBelow origin) := by
  by_cases hroot : origin = []
  · subst hroot
    exact ⟨rfl, fun hk => hk.removeBelow [], fun place hp => absurd (hi place List.nil_prefix) hp⟩
  · exact confined_removeBelow hroot hi

theorem confines_removeFile (hp : ∀ place, base.lexicalPlace p <+: place → inside place) :
    Confines base inside way (removeFile p) := by
  intro t hw
  unfold removeFile
  rw [run_bind, run_ask]
  cases hf : t.find p with
  | error e => exact .refl t
  | ok found =>
    obtain ⟨place, entry⟩ := found
    obtain rfl : place = base.lexicalPlace p :=
      (locate_ok (find_ok hf).1).trans (lexicalPlace_congr hw p)
    dsimp only
    split
    · exact .refl t
    · exact confined_removeAt hp

theorem confines_removeDirectory (hp : ∀ place, base.lexicalPlace p <+: place → inside place) :
    Confines base inside way (removeDirectory p) := by
  intro t hw
  rcases removeDirectory_cases p t with ⟨e, hrun⟩ | ⟨mode, hf⟩
  · rw [hrun]
    exact .refl t
  have hplace : t.lexicalPlace p = base.lexicalPlace p := lexicalPlace_congr hw p
  rw [← hplace] at hp
  have hclear : Confined inside way t (t.emptied (t.lexicalPlace p) (.directory mode)) :=
    (confined_removeAt hp).trans (confined_put (hp _ List.prefix_rfl) _)
  rcases removeDirectory_of_find hf with ⟨-, hrun⟩ | ⟨-, hrun⟩ | ⟨-, e, hrun⟩ <;> rw [hrun]
  · exact hclear
  · exact hclear.trans (confined_removeAt hp)
  · exact hclear

theorem confines_remove (hp : ∀ place, base.lexicalPlace p <+: place → inside place) :
    Confines base inside way (FileTree.remove p) := by
  intro t hw
  unfold FileTree.remove
  rw [run_bind, run_get]
  dsimp only
  split
  · exact confines_on (confines_removeDirectory hp) _ _ t hw
  · refine confines_on ?_ _ _ t hw
    intro t hw
    unfold FileTree.removeFileIfThere
    rw [run_bind, run_get]
    dsimp only
    split
    · exact confines_removeFile hp t hw
    · exact .refl t

theorem confines_parents (p : Path) :
    Confines base inside (base.way p) (FileTree.ensureParent p) := by
  cases hparent : p.parent? with
  | none =>
    unfold FileTree.ensureParent
    rw [hparent]
    exact .of_reads fun _ => rfl
  | some parent =>
    exact (confines_ensureParent hparent).mono (fun _ => id)
      fun place hm => .inr (mem_way_of_parent hparent hm)

theorem confines_write (hp : inside (base.lexicalPlace p)) (s : String) :
    Confines base inside (base.way p) (FileTree.write p s) :=
  (confines_parents p).bind fun _ => confines_on (confines_writeContents hp (.text s)) _ _

theorem confines_move (hs : ∀ place, base.lexicalPlace source <+: place → inside place)
    (ht : ∀ place, base.lexicalPlace target <+: place → inside place) :
    Confines base inside (base.way target) (FileTree.move source target) :=
  (confines_parents target).bind fun _ =>
    follows_doing (follows_ofAction (confines_rename hs ht)) _

/-- A regular tree stays one, and is changed only inside some places. -/
def Frames (base : Tree) (inside : Place → Prop) (way : List Place) (t t' : Tree) : Prop :=
  t.working = base.working → t.Regular → Confined inside way t t' ∧ t'.Regular

theorem lasting_frames : Lasting (Frames base inside way) where
  refl t := fun _ h => ⟨.refl t, h⟩
  trans := fun h h' hw hr => by
    obtain ⟨hconfined, hregular⟩ := h hw hr
    obtain ⟨hconfined', hregular'⟩ := h' (hconfined.working.trans hw) hregular
    exact ⟨hconfined.trans hconfined', hregular'⟩

theorem Regular.put_file (h : t.Regular) (hd : ∀ mode, t.at? place ≠ some (.directory mode))
    (ha : t.at? place = none → ∃ above name mode, place = above ++ [name] ∧ IsName name ∧
      t.at? above = some (.directory mode)) (contents : Contents) (mode : Nat) :
    (t.put place (.file contents mode)).Regular := by
  -- what stands above the file, and its name
  have habove {above : Place} {name : String} (hplace : above ++ [name] = place) :
      IsName name ∧ ∃ mode, t.at? above = some (.directory mode) := by
    cases hold : t.at? place with
    | some entry =>
      have hthere : (t.at? (above ++ [name])).isSome := by rw [hplace, hold]; rfl
      exact ⟨h.named _ _ hthere, h.closed.parent _ _ hthere⟩
    | none =>
      obtain ⟨above', name', mode', rfl, hname, hdirectory⟩ := ha hold
      obtain ⟨rfl, hlast⟩ := List.append_inj' hplace rfl
      obtain rfl := List.singleton_inj.1 hlast
      exact ⟨hname, mode', hdirectory⟩
  have hat (other : Place) (hne : other ≠ place) :
      (t.put place (.file contents mode)).at? other = t.at? other :=
    at?_put_of_ne t hne _
  refine ⟨⟨fun above name hs => ?_⟩, fun above name hs => ?_⟩
  · have hparent : ∃ mode, t.at? above = some (.directory mode) := by
      by_cases hplace : above ++ [name] = place
      · exact (habove hplace).2
      · rw [hat _ hplace] at hs
        exact h.closed.parent above name hs
    obtain ⟨mode', hdirectory⟩ := hparent
    rw [hat above fun he => hd mode' (he ▸ hdirectory)]
    exact ⟨mode', hdirectory⟩
  · by_cases hplace : above ++ [name] = place
    · exact (habove hplace).1
    · rw [hat _ hplace] at hs
      exact h.named above name hs

theorem frames_copyEntry (hp : inside (base.lexicalPlace target)) (source : Path) :
    Follows (Frames base inside way) (FileTree.copyEntry source target) := by
  have hcopy : Follows (Frames base inside way) (copyFile source target) := by
    intro t hw hr
    refine ⟨confines_copyFile hp source t hw, ?_⟩
    rcases run_copyFile source target t with ⟨hsame, -⟩ |
      ⟨origin, contents, mode, goal, old, -, hwritable, hrun⟩
    · rw [hsame]
      exact hr
    · rw [hrun]
      refine hr.put_file (fun m hd => (writable?_ok hwritable).2 (look_directory hd)) ?_ _ _
      exact above_of_locate hr (locate_of_writable? hwritable)
  exact follows_doing (follows_ofAction hcopy) _

theorem frames_ensureDirectory (hw : ∀ place ∈ base.way p, place ∈ way) :
    Follows (Frames base inside way) (FileTree.ensureDirectory p) :=
  fun t ht hr =>
    ⟨(confines_fileTree_ensureDirectory p t ht).mono (fun _ => id) fun place hm => .inr (hw place hm),
      regular_ensureDirectory p t hr⟩

theorem frames_parents (p : Path) :
    Follows (Frames base inside (base.way p)) (FileTree.ensureParent p) := by
  unfold FileTree.ensureParent
  cases hparent : p.parent? with
  | none => exact .pure lasting_frames _
  | some parent => exact frames_ensureDirectory fun place => mem_way_of_parent hparent

theorem frames_copyFile (hp : inside (base.lexicalPlace target)) (source : Path) :
    Follows (Frames base inside (base.way target)) (FileTree.copyFile source target) :=
  .bind lasting_frames (frames_parents target) fun _ => frames_copyEntry hp source

theorem frames_copyDirectoryFrom (fuel : Nat) (source target : Path) :
    Follows (Frames base (base.lexicalPlace target <+: ·) (base.way target))
      (FileTree.copyDirectoryFrom fuel source target) := by
  induction fuel generalizing source target with
  | zero => exact .throw lasting_frames _
  | succ fuel ih =>
    rw [FileTree.copyDirectoryFrom]
    refine .bind lasting_frames (frames_ensureDirectory fun _ => id) fun _ => ?_
    have hname (name : String) (hn : IsName name) (job : Job Unit)
        (h : Follows (Frames base (base.lexicalPlace (target.join ⟨name⟩) <+: ·)
          (base.way (target.join ⟨name⟩))) job) :
        Follows (Frames base (base.lexicalPlace target <+: ·) (base.way target)) job := by
      intro t hw hr
      obtain ⟨hconfined, hregular⟩ := h t hw hr
      refine ⟨hconfined.mono (fun place hp => ?_) fun place hm => ?_, hregular⟩
      · rw [lexicalPlace_join hn] at hp
        exact (List.prefix_append _ _).trans hp
      · rcases (mem_way_join hn).1 hm with hm | rfl
        · exact .inr hm
        · exact .inl (List.prefix_append _ _)
    intro t hw hr
    rw [run_bind, run_on, listDirectory, run_ask]
    split
    · rename_i names u hlist
      obtain ⟨hnames, rfl⟩ := Prod.mk.inj hlist
      have hall : ∀ name ∈ names, IsName name := by
        dsimp only at hnames
        split at hnames
        · cases hnames
        · cases hnames
        · cases hnames
          exact fun name hm => hr.named _ name (mem_names.1 hm)
      refine Follows.forM lasting_frames (fun name hm => ?_) t hw hr
      refine .bind lasting_frames (.get lasting_frames) fun u => hname name (hall name hm) _ ?_
      split
      · exact ih _ _
      · exact frames_copyEntry List.prefix_rfl _
    · rename_i f u hlist
      obtain ⟨-, rfl⟩ := Prod.mk.inj hlist
      exact ⟨.refl t, hr⟩

/-- Everything that stood at or below one place has a counterpart at another one. -/
def Counterpart (origin goal : Place) (t t' : Tree) : Prop :=
  ∀ rel entry, t.at? (origin ++ rel) = some entry →
    ∃ entry', t'.at? (goal ++ rel) = some entry' ∧ sameContents entry' entry = true

theorem sameContents_self (entry : Entry) : sameContents entry entry = true := by
  cases entry <;> simp [sameContents]

theorem Counterpart.mono {u u' : Tree} (h : Counterpart origin goal t t')
    (hs : ∀ rel entry, u.at? (origin ++ rel) = some entry → t.at? (origin ++ rel) = some entry)
    (hg : ∀ rel entry, t'.at? (goal ++ rel) = some entry → u'.at? (goal ++ rel) = some entry) :
    Counterpart origin goal u u' := by
  intro rel entry hu
  obtain ⟨entry', ht', hsame⟩ := h rel entry (hs rel entry hu)
  exact ⟨entry', hg rel entry' ht', hsame⟩

theorem run_adapt_eq_ok {ε ε' α : Type} {f : ε → ε'} {job : ExceptT ε (StateM Tree) α} {a : α} :
    (ExceptT.adapt f job).run.run t = (.ok a, t') ↔ job.run.run t = (.ok a, t') := by
  rw [run_adapt]
  rcases job.run.run t with ⟨result, after⟩
  cases result with
  | error e => constructor <;> (intro h; cases h)
  | ok b => constructor <;> (intro h; cases h; rfl)

theorem counterpart_copyFile (h : t.Regular)
    (ha : Asunder (t.lexicalPlace source) (t.lexicalPlace target))
    (hrun : (FileTree.copyFile source target).run.run t = (.ok (), t')) :
    Counterpart (t.lexicalPlace source) (t.lexicalPlace target) t t' := by
  unfold FileTree.copyFile at hrun
  obtain ⟨⟨⟩, u, hparents, hcopy⟩ := run_bind_eq_ok.1 hrun
  have hu : Confined (fun _ => False) (t.way target) t u := by
    have hconfined : Confined (fun _ => False) (t.way target) t
        ((FileTree.ensureParent target).run.run t).2 := confines_parents target t rfl
    rwa [hparents] at hconfined
  have hcopied : (copyFile source target).run.run u = (.ok (), t') :=
    run_adapt_eq_ok.1 (run_adapt_eq_ok.1 hcopy)
  rcases run_copyFile source target u with ⟨-, hfail⟩ |
    ⟨origin, contents, mode, goal, old, hfind, hwritable, hput⟩
  · exact absurd (congrArg Prod.fst hcopied) (hfail ())
  · obtain ⟨hlocate, hat⟩ := find_ok hfind
    have horigin : origin = t.lexicalPlace source :=
      (locate_ok hlocate).trans (lexicalPlace_congr hu.working source)
    have hgoal : goal = t.lexicalPlace target :=
      (writable?_ok hwritable).1.trans (lexicalPlace_congr hu.working target)
    subst horigin hgoal
    have hne : t.lexicalPlace target ≠ t.lexicalPlace source := fun he => ha.1 (he ▸ List.prefix_rfl)
    have hroot : t.lexicalPlace target ≠ [] := fun he => ha.2 (he ▸ List.nil_prefix)
    rw [hput, if_neg hne] at hcopied
    obtain rfl := (Prod.mk.inj hcopied).2
    intro rel entry hentry
    have hkept := hu.kept id hentry
    by_cases hrel : rel = []
    · subst hrel
      rw [List.append_nil] at hkept ⊢
      rw [hat] at hkept
      obtain rfl := Option.some.inj hkept
      exact ⟨_, by rw [at?_put, if_pos ⟨rfl, hroot⟩], sameContents_self _⟩
    · -- nothing stands below a file
      have hfile : t.at? (t.lexicalPlace source) = some (.file contents mode) := by
        rcases hu.outside _ id with hsame | ⟨-, -, hnew⟩
        · rw [← hsame, hat]
        · rw [hat] at hnew
          cases hnew
      have hnone := (rooted_of_closed h.closed h.named (t.lexicalPlace source)).absent
        (by simp [hfile]) hrel
      rw [hentry] at hnone
      cases hnone

theorem counterpart_copyDirectory (h : t.Regular)
    (ha : Asunder (t.lexicalPlace source) (t.lexicalPlace target))
    (he : target.text.isEmpty = true → t.Enters target)
    (hrun : (FileTree.copyDirectory source target).run.run t = (.ok (), t')) :
    Counterpart (t.lexicalPlace source) (t.lexicalPlace target) t t' := by
  unfold FileTree.copyDirectory at hrun
  rw [← copyFrom_listed] at hrun
  obtain ⟨made, hcopied⟩ := copiedBy_of_run h ha he hrun
  intro rel entry hentry
  have htarget := hcopied.at?_target rel
  rw [hcopied.confined.kept id hentry] at htarget
  cases entry with
  | file contents mode => exact ⟨.file contents mode, htarget, sameContents_self _⟩
  | directory mode =>
    rw [htarget]
    rcases made.at? (t.lexicalPlace target ++ rel) with _ | _ | _ <;> exact ⟨_, rfl, rfl⟩

/-- A copied directory puts files where the source has files, and makes directories where it has
something, if the way to the target makes none in the source. -/
theorem confined_copyDirectory (h : t.Regular)
    (ha : Asunder (t.lexicalPlace source) (t.lexicalPlace target))
    (he : target.text.isEmpty = true → t.Enters target)
    (hs : ∀ place ∈ t.way target, t.lexicalPlace source <+: place → (t.at? place).isSome)
    (hi : ∀ rel contents mode, t.at? (t.lexicalPlace source ++ rel) = some (.file contents mode) →
      inside (t.lexicalPlace target ++ rel))
    (hw : ∀ rel, (t.at? (t.lexicalPlace source ++ rel)).isSome → t.lexicalPlace target ++ rel ∈ way)
    (hway : ∀ place ∈ t.way target, place ∈ way)
    (hrun : (FileTree.copyDirectory source target).run.run t = (.ok (), t')) :
    Confined inside way t t' := by
  unfold FileTree.copyDirectory at hrun
  rw [← copyFrom_listed] at hrun
  obtain ⟨made, hcopied⟩ := copiedBy_of_run h ha he hrun
  have hsource (rel : Place) : made.at? (t.lexicalPlace source ++ rel) =
      t.at? (t.lexicalPlace source ++ rel) := by
    refine (hcopied.at?_made _).resolve_right fun ⟨⟨hm, hn⟩, _⟩ => ?_
    have hthere := hs _ hm (List.prefix_append ..)
    rw [hn] at hthere
    cases hthere
  refine ⟨?_, fun hk => ?_, fun place hp => ?_⟩
  · exact hcopied.filled.confined.working.trans hcopied.confined.working
  · exact hcopied.filled.confined.keyed (hcopied.confined.keyed hk)
  have hmade : made.at? place = t.at? place ∨ place ∈ way ∧ t.at? place = none ∧
      made.at? place = some (.directory modeOfNewDirectory) :=
    (hcopied.at?_made place).imp_right fun ⟨⟨hm, hn⟩, hnew⟩ => ⟨hway place hm, hn, hnew⟩
  by_cases hbelow : t.lexicalPlace target <+: place
  · obtain ⟨rel, rfl⟩ := hbelow
    rcases hcopied.at?_target_cases rel with hkept | ⟨contents, mode, hfile⟩ |
      ⟨hthere, hnone, hnew⟩
    · rw [hkept]
      exact hmade
    · rw [hsource] at hfile
      exact absurd (hi rel contents mode hfile) hp
    · rw [hsource] at hthere
      rcases hmade with hsame | ⟨-, -, hnew'⟩
      · exact .inr ⟨hw rel hthere, hsame.symm.trans hnone, hnew⟩
      · rw [hnone] at hnew'
        cases hnew'
  · rw [hcopied.at?_elsewhere hbelow]
    exact hmade

end Patchboard.Tree
