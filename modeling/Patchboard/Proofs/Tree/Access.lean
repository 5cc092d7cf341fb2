import Patchboard.Proofs.Tree.Preparing

set_option autoImplicit false

namespace Patchboard.Tree

variable {t t' : Tree} {p : Path} {written : List Place}

theorem isDirectory_iff : t.isDirectory p = true ↔
    ∃ place mode, t.locate p = .ok place ∧ t.at? place = some (.directory mode) := by
  unfold isDirectory find?
  constructor
  · intro h
    obtain ⟨entry, he, hd⟩ := (Option.any_eq_true _ _).1 h
    obtain ⟨found, hf, rfl⟩ := Option.map_eq_some_iff.1 he
    cases hfind : t.find p with
    | error e => simp [hfind, Except.toOption] at hf
    | ok other =>
      simp only [hfind, Except.toOption, Option.some.injEq] at hf
      obtain ⟨hl, ha⟩ := find_ok (hf ▸ hfind)
      cases hentry : found.2 with
      | file contents mode => simp [hentry, Entry.isDirectory, Entry.isFile] at hd
      | directory mode => exact ⟨found.1, mode, hl, hentry ▸ ha⟩
  · rintro ⟨place, mode, hl, ha⟩
    simp [find, hl, ha, Entry.isFile, Entry.isDirectory, Except.toOption]

theorem find_of_isDirectory (h : t.isDirectory p = true) :
    ∃ mode, t.find p = .ok (t.lexicalPlace p, .directory mode) := by
  obtain ⟨place, mode, hl, ha⟩ := isDirectory_iff.1 h
  refine ⟨mode, ?_⟩
  rw [← locate_ok hl]
  simp [find, hl, ha, Entry.isFile]

theorem isDirectory_of_grown (h : Grown t t' written) (hd : t.isDirectory p = true) :
    t'.isDirectory p = true := by
  obtain ⟨place, mode, hl, ha⟩ := isDirectory_iff.1 hd
  obtain ⟨mode', ha'⟩ := at?_of_look_directory (h.directory place (look_directory ha))
  exact isDirectory_iff.2 ⟨place, mode', locate_of_grown h hl, ha'⟩

theorem isDirectory_of_makeDirectory (h : (makeDirectory p).run.run t = (.ok (), t')) :
    t'.isDirectory p = true := by
  have hg := (prepared_makeDirectory p t).grown
  unfold after at hg
  rw [h] at hg
  rw [run_makeDirectory] at h
  split at h
  · cases h
  · rename_i place hl
    split at h
    · cases h
    · rename_i hn
      cases h
      have hroot : place ≠ [] := by
        rintro rfl
        simp [at?_root] at hn
      refine isDirectory_iff.2 ⟨place, modeOfNewDirectory, locate_of_grown hg hl, ?_⟩
      rw [at?_put, if_pos ⟨rfl, hroot⟩]

theorem isDirectory_of_ensureDirectory (h : (ensureDirectory p).run.run t = (.ok (), t')) :
    t'.isDirectory p = true := by
  unfold ensureDirectory at h
  rw [run_bind, run_get] at h
  dsimp only at h
  split at h
  · rename_i made hm
    cases h
    exact isDirectory_of_makeDirectory hm
  · split at h
    · rename_i hd
      cases h
      exact hd
    · cases h

theorem isDirectory_of_makeDirectoriesFrom {fuel : Nat} (hp : p.text.isEmpty = false)
    (h : (makeDirectoriesFrom fuel p).run.run t = (.ok (), t')) : t'.isDirectory p = true := by
  cases fuel with
  | zero => cases h
  | succ fuel =>
    rw [makeDirectoriesFrom, if_neg (by simp [hp]), run_bind, run_get] at h
    dsimp only at h
    split at h
    · rename_i made hm
      cases h
      exact isDirectory_of_makeDirectory hm
    · split at h
      · cases h
      · rw [run_bind] at h
        split at h
        · exact isDirectory_of_ensureDirectory h
        · cases h
    · split at h
      · rename_i hd
        cases h
        exact hd
      · cases h

theorem run_makeDirectoriesFrom (fuel : Nat) (hd : t.isDirectory p = true) :
    (makeDirectoriesFrom (fuel + 1) p).run.run t = (.ok (), t) := by
  obtain ⟨place, mode, hl, ha⟩ := isDirectory_iff.1 hd
  have hmade : (makeDirectory p).run.run t = (.error .exists, t) := by
    rw [run_makeDirectory, hl]
    dsimp only
    rw [if_pos (by rw [ha]; rfl)]
  rw [makeDirectoriesFrom]
  split
  · rfl
  · rw [run_bind, run_get]
    dsimp only
    rw [hmade]
    dsimp only
    rw [if_pos hd]
    rfl

theorem run_makeDirectories (hd : t.isDirectory p = true) :
    (makeDirectories p).run.run t = (.ok (), t) :=
  run_makeDirectoriesFrom p.chars.length hd

/-- The directory that a path stands in is there. -/
def Sheltered (t : Tree) (p : Path) : Prop :=
  ∀ parent ∈ p.parent?, parent.text.isEmpty = true ∨ t.isDirectory parent = true

instance (t : Tree) (p : Path) : Decidable (t.Sheltered p) :=
  inferInstanceAs (Decidable (∀ parent ∈ p.parent?,
    parent.text.isEmpty = true ∨ t.isDirectory parent = true))

theorem Sheltered.of_grown (h : t.Sheltered p) (hg : Grown t t' written) : t'.Sheltered p :=
  fun parent hp => (h parent hp).imp_right (isDirectory_of_grown hg)

theorem sheltered_of_makeParents (h : (makeParents p).run.run t = (.ok (), t')) :
    t'.Sheltered p := by
  intro parent hp
  unfold makeParents at h
  rw [Option.mem_def.1 hp] at h
  cases he : parent.text.isEmpty with
  | true => exact .inl rfl
  | false => exact .inr (isDirectory_of_makeDirectoriesFrom he h)

theorem run_makeParents (h : t.Sheltered p) : (makeParents p).run.run t = (.ok (), t) := by
  unfold makeParents
  cases hp : p.parent? with
  | none => rfl
  | some parent =>
    rcases h parent hp with he | hd
    · unfold makeDirectories
      dsimp only
      rw [makeDirectoriesFrom, if_pos he]
      rfl
    · exact run_makeDirectories hd

/-- The file that a path leads to, if there is one, may be written. -/
def Unlocked (t : Tree) (p : Path) : Prop :=
  ∀ place contents mode, t.locate p = .ok place → t.at? place = some (.file contents mode) →
    AllowsWriting mode

theorem Unlocked.of_grown (h : t.Unlocked p) (hf : (t.file? p).isSome) (hg : Grown t t' written)
    (hk : KeepsWritable t t') : t'.Unlocked p := by
  obtain ⟨contents, hf⟩ := Option.isSome_iff_exists.1 hf
  obtain ⟨-, place, mode, hl, ha⟩ := file?_eq_some.1 hf
  obtain ⟨contents', mode', ha', hm'⟩ := hk place contents mode ha (h place contents mode hl ha)
  intro other contents'' mode'' hl'' ha''
  obtain rfl := Except.ok.inj ((locate_of_grown hg hl).symm.trans hl'')
  rw [ha'] at ha''
  cases ha''
  exact hm'

theorem unlocked_of_missing (he : endsInSeparator p = false) (hf : t.file? p = none) :
    t.Unlocked p := by
  intro place contents mode hl ha
  rw [file?_eq_some.2 ⟨he, place, mode, hl, ha⟩] at hf
  simp at hf

theorem probe?_of_file (hf : (t.file? p).isSome) : t.probe? p = some p := by
  have hfile : t.isFile p = true := by rw [isFile_eq_file?, hf]
  have hexists : t.pathExists p = true := by
    obtain ⟨entry, he, -⟩ := (Option.any_eq_true _ _).1 hfile
    rw [pathExists, he]
    rfl
  rw [probe?, if_pos hexists]

theorem isWritable_iff (hf : (t.file? p).isSome) : t.isWritable p = true ↔ t.Unlocked p := by
  have hprobe := probe?_of_file hf
  obtain ⟨contents, hf⟩ := Option.isSome_iff_exists.1 hf
  obtain ⟨he, place, mode, hl, ha⟩ := file?_eq_some.1 hf
  have hmode : t.mode? p = some mode := by
    simp [mode?, find?, find, hl, ha, he, Except.toOption, Entry.mode]
  rw [isWritable, hprobe, Option.any_some, hasWriteBit, hmode, Option.any_some]
  constructor
  · intro hm other contents' mode' hl' ha'
    obtain rfl := Except.ok.inj (hl.symm.trans hl')
    rw [ha] at ha'
    cases ha'
    exact of_decide_eq_true hm
  · intro h
    exact decide_eq_true (h place contents mode hl ha)

theorem isWritable_of_tryModes {modes : List Nat} (h : (tryModes p modes t).1 = true) :
    (tryModes p modes t).2.isWritable p = true := by
  induction modes generalizing t with
  | nil => simp [tryModes] at h
  | cons mode modes ih =>
    unfold tryModes at h ⊢
    split at h
    · simp at h
    · split at h
      · rename_i hw
        rw [if_pos hw]
        exact hw
      · rename_i hw
        rw [if_neg hw]
        exact ih h

theorem unlocked_of_makeWritable (hf : (t.file? p).isSome) (h : (t.makeWritable p).1 = true) :
    (t.makeWritable p).2.Unlocked p := by
  have hfile := isSome_file?_of_grown (prepared_makeWritable t p).grown hf
  rw [← isWritable_iff hfile]
  unfold makeWritable at h ⊢
  rw [probe?_of_file hf] at h ⊢
  exact isWritable_of_tryModes h

end Patchboard.Tree
