import Patchboard.Proofs.Tree.Framing

set_option autoImplicit false

namespace Patchboard.Tree
open Path

variable {t t' u : Tree} {p source target : Path} {place goal : Place}

/-- What stands in the tree, and where, is not changed. -/
def Untouched (t t' : Tree) : Prop := Confined (fun _ => False) [] t t'

theorem Untouched.at? (h : Untouched t t') (place : Place) : t'.at? place = t.at? place :=
  h.same id List.not_mem_nil

theorem Untouched.trans (h : Untouched t u) (h' : Untouched u t') : Untouched t t' :=
  Confined.trans h h'

theorem untouched_of_eq (h : t' = t) : Untouched t t' := h ▸ .refl t

theorem there_of_mem_way (hl : t.locate p = .ok goal) (hg : (t.at? goal).isSome)
    (hp : place ∈ t.way p) : (t.at? place).isSome := by
  obtain ⟨-, -, -, hwalk⟩ := locate_eq_ok.1 hl
  obtain ⟨steps, hs, rfl⟩ := mem_way.1 hp
  rw [← filter_route, List.prefix_filter_iff] at hs
  obtain ⟨before, ⟨rest, hrest⟩, rfl⟩ := hs
  rw [← foldl_stepInto]
  rw [← hrest] at hwalk
  by_cases hr : rest = []
  · rw [hr, List.append_nil] at hwalk
    rwa [← walk_ok hwalk]
  · obtain ⟨mode, hd⟩ := directory_of_walk hwalk hr
    rw [hd]
    rfl

theorem untouched_parents (hl : t.locate p = .ok goal) (hg : (t.at? goal).isSome) :
    Untouched t ((FileTree.ensureParent p).run.run t).2 := by
  refine (confines_parents p t rfl).narrow fun place hm hn => ?_
  have hthere := there_of_mem_way hl hg hm
  rw [hn] at hthere
  cases hthere

theorem untouched_after_parents {job : Job Unit} (hl : t.locate p = .ok goal)
    (hg : (t.at? goal).isSome) (h : ∀ u, Untouched t u → Untouched u (job.run.run u).2) :
    Untouched t ((FileTree.ensureParent p >>= fun _ => job).run.run t).2 := by
  have hparents := untouched_parents hl hg
  rw [run_bind]
  split
  · rename_i u hu
    rw [hu] at hparents
    exact hparents.trans (h u hparents)
  · rename_i e u hu
    rw [hu] at hparents
    exact hparents

theorem run_makeDirectories_of_file {contents : Contents} {mode : Nat}
    (hl : t.locate p = .ok goal) (hg : t.at? goal = some (.file contents mode)) :
    (makeDirectories p).run.run t = (.error .exists, t) := by
  have htext : p.text.isEmpty = false := (locate_eq_ok.1 hl).2.1
  have hmake : (makeDirectory p).run.run t = (.error .exists, t) := by
    rw [run_makeDirectory, hl]
    dsimp only
    rw [if_pos (by rw [hg]; rfl)]
  have hdirectory : ¬t.isDirectory p = true := by
    rw [isDirectory_iff]
    rintro ⟨other, mode', hl', hg'⟩
    rw [Except.ok.inj (hl.symm.trans hl'), hg'] at hg
    cases hg
  unfold makeDirectories
  rw [makeDirectoriesFrom, if_neg (by simp [htext]), run_bind, run_get]
  dsimp only
  rw [hmake]
  dsimp only
  rw [if_neg hdirectory]
  rfl

theorem untouched_copyDirectory {contents : Contents} {mode : Nat}
    (hl : t.locate target = .ok goal) (hg : t.at? goal = some (.file contents mode)) :
    Untouched t ((FileTree.copyDirectory source target).run.run t).2 := by
  unfold FileTree.copyDirectory
  rw [FileTree.copyDirectoryFrom, run_bind, FileTree.ensureDirectory, run_on,
    run_makeDirectories_of_file hl hg]
  exact .refl t

theorem not_writable?_of_directory {mode : Nat} {old : Option Nat}
    (hg : t.at? (t.lexicalPlace p) = some (.directory mode)) :
    t.writable? p ≠ .ok (place, old) := by
  intro h
  obtain ⟨rfl, hlook⟩ := writable?_ok h
  exact hlook (look_directory hg)

theorem Untouched.directory {mode : Nat} (h : Untouched t u) (hl : t.locate p = .ok goal)
    (hg : t.at? goal = some (.directory mode)) :
    u.at? (u.lexicalPlace p) = some (.directory mode) := by
  rw [lexicalPlace_congr h.working, ← locate_ok hl, h.at?, hg]

theorem untouched_write {mode : Nat} (hl : t.locate p = .ok goal)
    (hg : t.at? goal = some (.directory mode)) (s : String) :
    Untouched t ((FileTree.write p s).run.run t).2 := by
  refine untouched_after_parents hl (by rw [hg]; rfl) fun u hu => ?_
  rw [run_on, writeText, run_writeContents]
  split
  · exact .refl u
  · rename_i found old hw
    exact absurd hw (not_writable?_of_directory (hu.directory hl hg))

theorem untouched_copyFile {mode : Nat} (hl : t.locate target = .ok goal)
    (hg : t.at? goal = some (.directory mode)) :
    Untouched t ((FileTree.copyFile source target).run.run t).2 := by
  refine untouched_after_parents hl (by rw [hg]; rfl) fun u hu => ?_
  rcases run_copyFile source target u with ⟨hsame, -⟩ | ⟨-, -, -, place, old, -, hw, -⟩
  · exact untouched_of_eq hsame
  · exact absurd hw (not_writable?_of_directory (hu.directory hl hg))

theorem replaceable_of_other_kind {entry old : Entry} (hk : entry.isFile ≠ old.isFile) (t : Tree)
    (start goal : Place) : ∃ e, t.replaceable start goal entry (some old) = .error e := by
  unfold replaceable
  split
  · exact ⟨_, rfl⟩
  · split
    · exact ⟨_, rfl⟩
    · cases entry <;> cases old <;> first | exact absurd rfl hk | exact ⟨_, rfl⟩

theorem run_rename_of_other_kind {entry old : Entry}
    (hs : t.at? (t.lexicalPlace source) = some entry)
    (hg : t.at? (t.lexicalPlace target) = some old) (hk : entry.isFile ≠ old.isFile) :
    ((rename source target).run.run t).2 = t := by
  unfold rename
  rw [run_bind, run_ask]
  cases hstart : t.locate source with
  | error e => rfl
  | ok start =>
    dsimp only
    rw [run_bind, run_ask]
    cases hgoal : t.locate target with
    | error e => rfl
    | ok goal =>
      obtain rfl := locate_ok hstart
      obtain rfl := locate_ok hgoal
      dsimp only
      split
      · rfl
      · rw [run_bind, run_get]
        dsimp only
        rw [hs]
        dsimp only
        split
        · rfl
        · split
          · rfl
          · obtain ⟨e, he⟩ := replaceable_of_other_kind hk t (t.lexicalPlace source)
              (t.lexicalPlace target)
            rw [run_bind, run_ask, hg, he]

theorem untouched_move {entry old : Entry} (hs : t.at? (t.lexicalPlace source) = some entry)
    (hl : t.locate target = .ok goal) (hg : t.at? goal = some old)
    (hk : entry.isFile ≠ old.isFile) :
    Untouched t ((FileTree.move source target).run.run t).2 := by
  refine untouched_after_parents hl (by rw [hg]; rfl) fun u hu => ?_
  have hsource : u.at? (u.lexicalPlace source) = some entry := by
    rw [lexicalPlace_congr hu.working, hu.at?, hs]
  have htarget : u.at? (u.lexicalPlace target) = some old := by
    rw [lexicalPlace_congr hu.working, ← locate_ok hl, hu.at?, hg]
  exact untouched_of_eq (run_rename_of_other_kind hsource htarget hk)

/-- What was not there still is not. -/
structure Shrunk (t t' : Tree) : Prop where
  working : t'.working = t.working
  absent : ∀ place, t.at? place = none → t'.at? place = none

theorem lasting_shrunk : Lasting Shrunk where
  refl _ := ⟨rfl, fun _ => id⟩
  trans h h' := ⟨h'.working.trans h.working, fun place hn => h'.absent place (h.absent place hn)⟩

theorem shrunk_removeBelow (t : Tree) (place : Place) : Shrunk t (t.removeBelow place) := by
  refine ⟨rfl, fun other hn => ?_⟩
  by_cases hroot : place = []
  · subst hroot
    unfold Tree.at? at hn ⊢
    split at hn
    · cases hn
    · rename_i ho
      have hnone : (t.entries.find? fun e => e.1 = other) = none := Option.map_eq_none_iff.1 hn
      rw [if_neg ho, Option.map_eq_none_iff, List.find?_eq_none]
      exact fun e he => List.find?_eq_none.1 hnone e (List.mem_filter.1 he).1
  · rw [at?_removeBelow t hroot]
    split
    · rfl
    · exact hn

theorem shrunk_removeFile (p : Path) : Follows Shrunk (removeFile p) := by
  intro t
  unfold removeFile
  rw [run_bind, run_ask]
  cases hf : t.find p with
  | error e => exact lasting_shrunk.refl t
  | ok found =>
    obtain ⟨place, entry⟩ := found
    dsimp only
    split
    · exact lasting_shrunk.refl t
    · exact shrunk_removeBelow t place

theorem shrunk_removeDirectory (p : Path) : Follows Shrunk (removeDirectory p) := by
  intro t
  rcases removeDirectory_cases p t with ⟨e, hrun⟩ | ⟨mode, hf⟩
  · rw [hrun]
    exact lasting_shrunk.refl t
  have hclear : Shrunk t (t.emptied (t.lexicalPlace p) (.directory mode)) := by
    refine ⟨rfl, fun other hn => ?_⟩
    rcases at?_emptied (find_ok hf).2 other with hsame | ⟨hnone, -⟩
    · exact hsame.trans hn
    · exact hnone
  rcases removeDirectory_of_find hf with ⟨-, hrun⟩ | ⟨-, hrun⟩ | ⟨-, e, hrun⟩ <;> rw [hrun]
  · exact hclear
  · exact lasting_shrunk.trans hclear (shrunk_removeBelow _ _)
  · exact hclear

theorem shrunk_remove (p : Path) : Follows Shrunk (FileTree.remove p) := by
  have hthere : Follows Shrunk (FileTree.removeFileIfThere p) := by
    refine .bind lasting_shrunk (.get lasting_shrunk) fun t => ?_
    split
    · exact shrunk_removeFile p
    · exact .pure lasting_shrunk _
  refine .bind lasting_shrunk (.get lasting_shrunk) fun t => ?_
  split
  · exact follows_on (shrunk_removeDirectory p) _ _
  · exact follows_on hthere _ _

/-- Nothing stands at or below a place. -/
def Vacant (t : Tree) (place : Place) : Prop := ∀ rel, t.at? (place ++ rel) = none

theorem Vacant.of_shrunk (h : t.Vacant place) (hs : Shrunk t t') : t'.Vacant place :=
  fun rel => hs.absent _ (h rel)

theorem vacant_removeBelow (h : place ≠ []) (t : Tree) : (t.removeBelow place).Vacant place :=
  fun rel => by rw [at?_removeBelow t h, if_pos (List.prefix_append place rel)]

theorem lexicalPlace_ne_nil (h : endsInName p = true) : t.lexicalPlace p ≠ [] := by
  obtain ⟨s, hs, hdot, hdots⟩ := endsInName_iff.1 h
  have hlast : s ≠ [] := by
    rintro rfl
    unfold route at hs
    rw [List.getLast?_reverse] at hs
    have hhead := List.head?_dropWhile_not List.isEmpty p.segments.reverse
    rw [hs] at hhead
    simp at hhead
  have hsolid : isIdle s = false := by simp [isIdle, hlast, hdot]
  obtain ⟨before, hbefore⟩ := List.getLast?_eq_some_iff.1 hs
  unfold lexicalPlace
  rw [hbefore, List.foldl_append, List.foldl_cons, List.foldl_nil, stepInto, if_neg hdots, hsolid]
  simp

theorem vacant_removeFile (h : (removeFile p).run.run t = (.ok (), t')) :
    t'.Vacant (t.lexicalPlace p) := by
  unfold removeFile at h
  rw [run_bind, run_ask] at h
  cases hf : t.find p with
  | error e =>
    rw [hf] at h
    cases h
  | ok found =>
    obtain ⟨place, entry⟩ := found
    obtain ⟨hl, hat⟩ := find_ok hf
    obtain rfl := locate_ok hl
    rw [hf] at h
    dsimp only at h
    split at h
    · cases h
    · rename_i hfile
      obtain rfl := (Prod.mk.inj h).2
      refine vacant_removeBelow (fun hroot => hfile ?_) t
      rw [hroot] at hat
      cases hat
      rfl

/-- Nothing is left below a directory that was removed, and nothing of it unless the path led through
what it held. -/
theorem vacant_removeDirectory (h : (removeDirectory p).run.run t = (.ok (), t')) :
    (∀ name rel, t'.at? (t.lexicalPlace p ++ name :: rel) = none) ∧
      (¬t.DoublesBack p → t'.Vacant (t.lexicalPlace p)) := by
  rcases removeDirectory_cases p t with ⟨e, hrun⟩ | ⟨mode, hf⟩
  · cases h.symm.trans hrun
  rcases removeDirectory_of_find hf with ⟨hback, hrun⟩ | ⟨hends, hrun⟩ | ⟨-, e, hrun⟩
  · obtain ⟨-, rfl⟩ := Prod.mk.inj (h.symm.trans hrun)
    exact ⟨fun name rel => at?_emptied_below t _ _ name rel, fun hn => absurd hback hn⟩
  · obtain ⟨-, rfl⟩ := Prod.mk.inj (h.symm.trans hrun)
    have hvacant := vacant_removeBelow (lexicalPlace_ne_nil (t := t) hends)
      (t.emptied (t.lexicalPlace p) (.directory mode))
    exact ⟨fun name rel => hvacant (name :: rel), fun _ => hvacant⟩
  · cases h.symm.trans hrun

/-- Whether it is a file or a directory, nothing is left of what was removed; but a directory stays,
with nothing below it, when the path led through what it held. -/
theorem vacant_remove (hp : t.pathExists p = true)
    (h : (FileTree.remove p).run.run t = (.ok (), t')) :
    (∀ name rel, t'.at? (t.lexicalPlace p ++ name :: rel) = none) ∧
      (¬t.DoublesBack p → t'.Vacant (t.lexicalPlace p)) := by
  unfold FileTree.remove at h
  rw [run_bind, run_get] at h
  dsimp only at h
  split at h
  · exact vacant_removeDirectory (run_on_eq_ok.1 h)
  · have hfile := run_on_eq_ok.1 h
    unfold FileTree.removeFileIfThere at hfile
    rw [run_bind, run_get] at hfile
    dsimp only at hfile
    rw [if_pos hp] at hfile
    have hvacant := vacant_removeFile hfile
    exact ⟨fun name rel => hvacant (name :: rel), fun _ => hvacant⟩

theorem run_removeFile_of_not_directory (hp : t.pathExists p = true)
    (hd : ¬t.isDirectory p = true) : ((removeFile p).run.run t).1 = .ok () := by
  unfold pathExists find? at hp
  unfold isDirectory find? at hd
  unfold removeFile
  rw [run_bind, run_ask]
  cases hf : t.find p with
  | error e =>
    rw [hf] at hp
    cases hp
  | ok found =>
    obtain ⟨place, entry⟩ := found
    rw [hf] at hd
    have hfile : ¬entry.isDirectory = true := hd
    dsimp only
    rw [if_neg hfile]
    rfl

theorem run_removeDirectory_of_endsInName (hd : t.isDirectory p = true)
    (hn : endsInName p = true) : ((removeDirectory p).run.run t).1 = .ok () := by
  obtain ⟨mode, hf⟩ := find_of_isDirectory hd
  rcases removeDirectory_of_find hf with ⟨-, hrun⟩ | ⟨-, hrun⟩ | ⟨hnot, -⟩
  · rw [hrun]
  · rw [hrun]
  · rw [hn] at hnot
    cases hnot

theorem run_remove (hp : t.pathExists p = true) (hn : endsInName p = true) :
    ((FileTree.remove p).run.run t).1 = .ok () := by
  unfold FileTree.remove
  rw [run_bind, run_get]
  dsimp only
  split
  · rename_i hd
    rw [run_on, run_removeDirectory_of_endsInName hd hn]
    rfl
  · rename_i hd
    rw [run_on, FileTree.removeFileIfThere, run_bind, run_get]
    dsimp only
    rw [if_pos hp, run_removeFile_of_not_directory hp hd]
    rfl

end Patchboard.Tree
