import Patchboard.Proofs.Tree.Framing
import Patchboard.Proofs.Tree.Kinds

set_option autoImplicit false

namespace Patchboard.Tree
open Path

variable {t t' : Tree} {p source target : Path} {place origin goal : Place}

/-- Tree operations on a regular tree leave one. -/
def Regulates {ε α : Type} (job : ExceptT ε (StateM Tree) α) : Prop :=
  Follows (fun t t' => t.Regular → t'.Regular) job

theorem lasting_regular : Lasting fun t t' => t.Regular → t'.Regular :=
  ⟨fun _ h => h, fun h h' ht => h' (h ht)⟩

theorem not_prefix_above (above : Place) (name : String) : ¬(above ++ [name]) <+: above := by
  intro h
  have hlength := h.length_le
  rw [List.length_append, List.length_singleton] at hlength
  omega

theorem Regular.of_look (h : t.Regular) (hl : ∀ place, t'.look place = t.look place) :
    t'.Regular := by
  have hsome (place : Place) : (t'.at? place).isSome = (t.at? place).isSome := by
    have hsame := congrArg Option.isSome (hl place)
    unfold look at hsame
    rwa [Option.isSome_map, Option.isSome_map] at hsame
  refine ⟨⟨fun above name hs => ?_⟩, fun above name hs => h.named above name (hsome _ ▸ hs)⟩
  obtain ⟨old, hd⟩ := h.closed.parent above name (hsome _ ▸ hs)
  exact at?_of_look_directory ((hl above).trans (look_directory hd))

theorem Regular.removeBelow (h : t.Regular) (place : Place) : (t.removeBelow place).Regular := by
  refine ⟨⟨fun above name hs => ?_⟩, h.named.removeBelow place⟩
  by_cases hroot : place = []
  · subst hroot
    cases above with
    | nil => rw [List.nil_append, at?_removeBelow_root] at hs; cases hs
    | cons first rest => rw [List.cons_append, at?_removeBelow_root] at hs; cases hs
  · rw [at?_removeBelow t hroot] at hs ⊢
    split at hs
    · cases hs
    · rename_i hp
      rw [if_neg fun hc => hp (hc.trans (List.prefix_append ..))]
      exact h.closed.parent above name hs

theorem Regular.emptied {mode : Nat} (h : t.Regular)
    (ha : t.at? place = some (.directory mode)) : (t.emptied place (.directory mode)).Regular := by
  rcases List.eq_nil_or_concat place with rfl | ⟨above, name, rfl⟩
  · have hsame (other : Place) :
        (t.emptied [] (.directory mode)).at? other = (t.removeBelow []).at? other := by
      rw [Tree.emptied, at?_put, if_neg fun hc => hc.2 rfl]
    have hremoved := h.removeBelow []
    exact ⟨⟨fun above name hs => by
        rw [hsame] at hs ⊢
        exact hremoved.closed.parent above name hs⟩,
      fun above name hs => hremoved.named above name (hsame _ ▸ hs)⟩
  · rw [List.concat_eq_append] at ha ⊢
    have hthere : (t.at? (above ++ [name])).isSome := by rw [ha]; rfl
    obtain ⟨old, hd⟩ := h.closed.parent above name hthere
    have hkept : (t.removeBelow (above ++ [name])).at? above = some (.directory old) := by
      rw [at?_removeBelow t (by simp), if_neg (not_prefix_above above name), hd]
    exact (h.removeBelow _).put_directory (h.named above name hthere) hkept mode

theorem at?_relocate_goal (hfree : ∀ e ∈ t.entries, ¬goal <+: e.1) {rel : Place}
    (ho : origin ++ rel ≠ []) (hg : goal ++ rel ≠ []) :
    (t.relocate origin goal).at? (goal ++ rel) = t.at? (origin ++ rel) := by
  have hkey (e : Place × Entry) (he : e ∈ t.entries) :
      (moved origin goal e).1 = goal ++ rel ↔ e.1 = origin ++ rel := by
    rcases moved_cases origin goal e with ⟨rel', hplace, hmoved⟩ | hsame
    · rw [hplace, hmoved, List.append_cancel_left_eq, List.append_cancel_left_eq]
    · rw [hsame]
      refine ⟨fun hc => absurd (hc ▸ List.prefix_append goal rel) (hfree e he), fun hc => ?_⟩
      have hmoved := moved_fst origin goal e
      rw [hsame, if_pos (within_iff.2 (hc ▸ List.prefix_append ..))] at hmoved
      rw [hmoved, rebase, hc, List.drop_left]
  unfold at?
  rw [if_neg (by simpa using hg), if_neg (by simpa using ho), relocate_eq, List.find?_map]
  have hfind : t.entries.find? ((fun e => decide (e.1 = goal ++ rel)) ∘ moved origin goal) =
      t.entries.find? fun e => decide (e.1 = origin ++ rel) :=
    List.find?_congr fun e he => decide_eq_decide.2 (hkey e he)
  rw [hfind, Option.map_map]
  exact congrArg (fun f => Option.map f _) (funext fun e => moved_snd origin goal e)

theorem at?_relocate_origin (hp : origin <+: place) (hg : ¬goal <+: place) (hn : place ≠ []) :
    (t.relocate origin goal).at? place = none := by
  rw [← Option.not_isSome_iff_eq_none, at?_isSome hn, relocate_eq, List.map_map, List.mem_map]
  rintro ⟨e, -, hplace⟩
  rcases moved_cases origin goal e with ⟨rel, -, hmoved⟩ | hsame
  · refine hg ?_
    rw [← hplace, Function.comp_apply, hmoved]
    exact List.prefix_append goal rel
  · have hmoved := moved_fst origin goal e
    change (moved origin goal e).1 = place at hplace
    rw [hsame] at hmoved hplace
    rw [hplace, if_pos (within_iff.2 hp), rebase] at hmoved
    exact hg (hmoved ▸ List.prefix_append ..)

theorem Regular.relocate {above : Place} {name : String} {mode : Nat} (h : t.Regular)
    (hn : IsName name) (hd : t.at? above = some (.directory mode)) (ho : origin ≠ [])
    (ha : Asunder origin (above ++ [name])) :
    ((t.removeBelow (above ++ [name])).relocate origin (above ++ [name])).Regular := by
  have hremoved := h.removeBelow (above ++ [name])
  have hfree : ∀ e ∈ (t.removeBelow (above ++ [name])).entries, ¬(above ++ [name]) <+: e.1 := by
    intro e he hp
    have hnot := (List.mem_filter.1 he).2
    rw [within_iff.2 hp] at hnot
    cases hnot
  have habove := not_prefix_above above name
  have hkept : (t.removeBelow (above ++ [name])).at? above = some (.directory mode) := by
    rw [at?_removeBelow t (by simp), if_neg habove, hd]
  have hbelow (rel : Place) : origin ++ rel ≠ [] := fun hc => ho (List.append_eq_nil_iff.1 hc).1
  -- a place that stands in the tree after the move, with its last name
  have hcases (other : Place) (last : String)
      (hs : (((t.removeBelow (above ++ [name])).relocate origin (above ++ [name])).at?
        (other ++ [last])).isSome) :
      other = above ∧ last = name ∨
        (∃ rel, other = above ++ [name] ++ rel ∧
          ((t.removeBelow (above ++ [name])).at? (origin ++ rel ++ [last])).isSome) ∨
        ¬(above ++ [name]) <+: other ∧ ¬origin <+: other ∧
          ((t.removeBelow (above ++ [name])).at? (other ++ [last])).isSome := by
    by_cases hg : (above ++ [name]) <+: other ++ [last]
    · rcases List.prefix_concat_iff.1 hg with he | ⟨rel, rfl⟩
      · obtain ⟨rfl, hlast⟩ := List.append_inj' he rfl
        exact .inl ⟨rfl, (List.singleton_inj.1 hlast).symm⟩
      · rw [List.append_assoc, at?_relocate_goal hfree (hbelow _) (by simp),
          ← List.append_assoc] at hs
        exact .inr (.inl ⟨rel, rfl, hs⟩)
    · have hother : ¬(above ++ [name]) <+: other := fun hc => hg (hc.trans (List.prefix_append ..))
      by_cases hp : origin <+: other ++ [last]
      · rw [at?_relocate_origin hp hg (by simp)] at hs
        cases hs
      · rw [at?_relocate _ hp hg] at hs
        exact .inr (.inr ⟨hother, fun hc => hp (hc.trans (List.prefix_append ..)), hs⟩)
  refine ⟨⟨fun other last hs => ?_⟩, fun other last hs => ?_⟩
  · rcases hcases other last hs with ⟨rfl, -⟩ | ⟨rel, rfl, hthere⟩ | ⟨hg, hp, hthere⟩
    · refine ⟨mode, ?_⟩
      rw [at?_relocate _ (fun hc => ha.1 (hc.trans (List.prefix_append ..))) habove, hkept]
    · rw [at?_relocate_goal hfree (hbelow _) (by simp)]
      exact hremoved.closed.parent _ _ hthere
    · rw [at?_relocate _ hp hg]
      exact hremoved.closed.parent _ _ hthere
  · rcases hcases other last hs with ⟨-, rfl⟩ | ⟨rel, rfl, hthere⟩ | ⟨-, -, hthere⟩
    · exact hn
    · exact hremoved.named _ _ hthere
    · exact hremoved.named _ _ hthere

theorem run_rename_of_located {entry : Entry} (hs : t.locate source = .ok origin)
    (hg : t.locate target = .ok goal) (hn : endsInName source = true)
    (hn' : endsInName target = true) (ha : t.at? origin = some entry)
    (hslash : (entry.isFile && (endsInSeparator source || endsInSeparator target)) = false) :
    (rename source target).run.run t =
      if origin = goal then (.ok (), t)
      else
        match t.replaceable origin goal entry (t.at? goal) with
        | .ok _ => (.ok (), (t.removeBelow goal).relocate origin goal)
        | .error e => (.error e, t) := by
  unfold rename
  rw [run_bind, run_ask, hs]
  dsimp only
  rw [run_bind, run_ask, hg]
  dsimp only
  rw [if_neg (by simp [hn, hn']), run_bind, run_get]
  dsimp only
  rw [ha]
  dsimp only
  rw [if_neg (by simp [hslash])]
  split
  · rfl
  · rw [run_bind, run_ask]
    cases t.replaceable origin goal entry (t.at? goal) <;> rfl

/-- A renaming fails before it has looked at both places, or goes on from what stands at the
first. -/
theorem rename_cases (t : Tree) (source target : Path) :
    (∃ e, (rename source target).run.run t = (.error e, t)) ∨
      ∃ entry, t.locate source = .ok (t.lexicalPlace source) ∧
        t.locate target = .ok (t.lexicalPlace target) ∧
        endsInName source = true ∧ endsInName target = true ∧
        t.at? (t.lexicalPlace source) = some entry ∧
        (entry.isFile && (endsInSeparator source || endsInSeparator target)) = false := by
  unfold rename
  rw [run_bind, run_ask]
  cases hs : t.locate source with
  | error e => exact .inl ⟨e, rfl⟩
  | ok start =>
    obtain rfl := locate_ok hs
    dsimp only
    rw [run_bind, run_ask]
    cases hg : t.locate target with
    | error e => exact .inl ⟨e, rfl⟩
    | ok goal =>
      obtain rfl := locate_ok hg
      dsimp only
      split
      · exact .inl ⟨_, rfl⟩
      · rename_i hnames
        rw [Bool.not_eq_true, Bool.or_eq_false_iff, Bool.not_eq_false', Bool.not_eq_false'] at hnames
        rw [run_bind, run_get]
        dsimp only
        cases ha : t.at? (t.lexicalPlace source) with
        | none => exact .inl ⟨_, rfl⟩
        | some entry =>
          dsimp only
          split
          · exact .inl ⟨_, rfl⟩
          · rename_i hslash
            exact .inr ⟨entry, rfl, rfl, hnames.1, hnames.2, rfl, Bool.not_eq_true _ ▸ hslash⟩

theorem run_rename_eq_ok : (rename source target).run.run t = (.ok (), t') ↔
    ∃ entry, t.locate source = .ok (t.lexicalPlace source) ∧
      t.locate target = .ok (t.lexicalPlace target) ∧
      endsInName source = true ∧ endsInName target = true ∧
      t.at? (t.lexicalPlace source) = some entry ∧
      (entry.isFile && (endsInSeparator source || endsInSeparator target)) = false ∧
      (t.lexicalPlace source = t.lexicalPlace target ∧ t' = t ∨
        t.lexicalPlace source ≠ t.lexicalPlace target ∧
          t.replaceable (t.lexicalPlace source) (t.lexicalPlace target) entry
            (t.at? (t.lexicalPlace target)) = .ok () ∧
          t' = (t.removeBelow (t.lexicalPlace target)).relocate (t.lexicalPlace source)
            (t.lexicalPlace target)) := by
  constructor
  · intro h
    rcases rename_cases t source target with ⟨e, hfail⟩ | ⟨entry, hs, hg, hn, hn', ha, hslash⟩
    · rw [hfail] at h
      cases h
    · refine ⟨entry, hs, hg, hn, hn', ha, hslash, ?_⟩
      rw [run_rename_of_located hs hg hn hn' ha hslash] at h
      split at h
      · rename_i hsame
        exact .inl ⟨hsame, (Prod.mk.inj h).2.symm⟩
      · rename_i hne
        split at h
        · rename_i hr
          exact .inr ⟨hne, hr, (Prod.mk.inj h).2.symm⟩
        · cases h
  · rintro ⟨entry, hs, hg, hn, hn', ha, hslash, ⟨hsame, rfl⟩ | ⟨hne, hr, rfl⟩⟩
    · rw [run_rename_of_located hs hg hn hn' ha hslash, if_pos hsame]
    · rw [run_rename_of_located hs hg hn hn' ha hslash, if_neg hne, hr]

theorem run_rename_of_error {e : FileError}
    (h : (rename source target).run.run t = (.error e, t')) : t' = t := by
  rcases rename_cases t source target with ⟨e, hfail⟩ | ⟨entry, hs, hg, hn, hn', ha, hslash⟩
  · rw [hfail] at h
    exact (Prod.mk.inj h).2.symm
  · rw [run_rename_of_located hs hg hn hn' ha hslash] at h
    split at h
    · cases h
    · split at h
      · cases h
      · exact (Prod.mk.inj h).2.symm

theorem replaceable_eq_ok {entry : Entry} {old : Option Entry} :
    t.replaceable origin goal entry old = .ok () ↔ Asunder origin goal ∧ ∀ e ∈ old,
      e.isFile = entry.isFile ∧ (e.isFile = false → (t.names goal).isEmpty = true) := by
  unfold replaceable Asunder
  by_cases hbelow : within goal origin = true
  · rw [if_pos hbelow]
    exact ⟨nofun, fun h => absurd (within_iff.1 hbelow) h.1.1⟩
  by_cases habove : within origin goal = true
  · rw [if_neg hbelow, if_pos habove]
    exact ⟨nofun, fun h => absurd (within_iff.1 habove) h.1.2⟩
  rw [if_neg hbelow, if_neg habove]
  rw [within_iff] at hbelow habove
  cases old with
  | none => simp [hbelow, habove]
  | some old => cases entry <;> cases old <;> simp [hbelow, habove, Entry.isFile]

theorem regular_makeDirectories (p : Path) : Regulates (makeDirectories p) := by
  have hensure := regular_ensureDirectory p
  intro t h
  exact hensure t h

theorem regular_makeParents (p : Path) : Regulates (makeParents p) := by
  unfold makeParents
  split
  · exact regular_makeDirectories _
  · exact .pure lasting_regular _

theorem regular_ensureParent (p : Path) : Regulates (FileTree.ensureParent p) := by
  unfold FileTree.ensureParent
  split
  · exact regular_ensureDirectory _
  · exact .pure lasting_regular _

theorem Regular.put_writable (h : t.Regular) {old : Option Nat}
    (hw : t.writable? p = .ok (place, old)) (contents : Contents) (mode : Nat) :
    (t.put place (.file contents mode)).Regular :=
  h.put_file (fun _ hd => (writable?_ok hw).2 (look_directory hd))
    (above_of_locate h (locate_of_writable? hw)) contents mode

theorem regular_writeContents (p : Path) (contents : Contents) :
    Regulates (writeContents p contents) := by
  intro t h
  rw [run_writeContents]
  split
  · exact h
  · rename_i place old hw
    exact h.put_writable hw contents _

theorem regular_copyFile (source target : Path) : Regulates (copyFile source target) := by
  intro t h
  rcases run_copyFile source target t with ⟨hsame, -⟩ |
    ⟨origin, contents, mode, goal, old, -, hw, hrun⟩
  · rw [hsame]
    exact h
  · rw [hrun]
    exact h.put_writable hw _ mode

theorem regular_removeFile (p : Path) : Regulates (removeFile p) := by
  intro t h
  unfold removeFile
  rw [run_bind, run_ask]
  cases t.find p with
  | error e => exact h
  | ok found =>
    dsimp only
    split
    · exact h
    · exact h.removeBelow _

theorem regular_removeDirectory (p : Path) : Regulates (removeDirectory p) := by
  intro t h
  rcases removeDirectory_cases p t with ⟨e, hrun⟩ | ⟨mode, hf⟩
  · rw [hrun]
    exact h
  have hemptied := h.emptied (find_ok hf).2
  rcases removeDirectory_of_find hf with ⟨-, hrun⟩ | ⟨-, hrun⟩ | ⟨-, e, hrun⟩ <;> rw [hrun]
  · exact hemptied
  · exact hemptied.removeBelow _
  · exact hemptied

theorem regular_remove (p : Path) : Regulates (FileTree.remove p) := by
  refine .bind lasting_regular (.get lasting_regular) fun u => ?_
  split
  · exact follows_on (regular_removeDirectory p) _ _
  · refine follows_on (.bind lasting_regular (.get lasting_regular) fun u => ?_) _ _
    split
    · exact regular_removeFile p
    · exact .pure lasting_regular _

theorem regular_rename (source target : Path) : Regulates (rename source target) := by
  intro t h
  rcases hrun : (rename source target).run.run t with ⟨_ | ⟨⟩, t'⟩
  · rw [run_rename_of_error hrun]
    exact h
  · obtain ⟨entry, hs, hl, hname, -, hat, -, ⟨-, rfl⟩ | ⟨hne, hr, rfl⟩⟩ := run_rename_eq_ok.1 hrun
    · exact h
    · have hasunder := (replaceable_eq_ok.1 hr).1
      have hroot : t.lexicalPlace source ≠ [] := lexicalPlace_ne_nil hname
      obtain ⟨above, name, mode, hplace, hn, hd⟩ : ∃ above name mode,
          t.lexicalPlace target = above ++ [name] ∧ IsName name ∧
            t.at? above = some (.directory mode) := by
        cases hold : t.at? (t.lexicalPlace target) with
        | none => exact above_of_locate h hl hold
        | some old =>
          rcases List.eq_nil_or_concat (t.lexicalPlace target) with hnil | ⟨above, name, hplace⟩
          · exact absurd List.nil_prefix (hnil ▸ hasunder.2)
          · rw [List.concat_eq_append] at hplace
            have hthere : (t.at? (above ++ [name])).isSome := by rw [← hplace, hold]; rfl
            obtain ⟨mode, hd⟩ := h.closed.parent above name hthere
            exact ⟨above, name, mode, hplace, h.named above name hthere, hd⟩
      rw [hplace] at hasunder ⊢
      exact h.relocate hn hd hroot hasunder

end Patchboard.Tree
