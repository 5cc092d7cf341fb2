import Patchboard.Permissions
import Patchboard.Proofs.Tree.Growth

set_option autoImplicit false

namespace Patchboard.Tree

def AllowsWriting (mode : Nat) : Prop := mode &&& writeBits ≠ 0

instance (mode : Nat) : Decidable (AllowsWriting mode) :=
  inferInstanceAs (Decidable (mode &&& writeBits ≠ 0))

/-- Directories were made where nothing stood, and modes were set that allow writing. -/
inductive Prepared (t : Tree) : Tree → Prop
  | refl : Prepared t t
  | directory {t' : Tree} {place : Place} (h : Prepared t t') (ha : t'.at? place = none) :
    Prepared t (t'.put place (.directory modeOfNewDirectory))
  | mode {t' : Tree} {place : Place} {entry : Entry} {mode : Nat} (h : Prepared t t')
    (ha : t'.at? place = some entry) (hm : AllowsWriting mode) :
    Prepared t (t'.put place (entry.withMode mode))

/-- A file that may be written stays one that may be written. -/
def KeepsWritable (t t' : Tree) : Prop :=
  ∀ place contents mode, t.at? place = some (.file contents mode) → AllowsWriting mode →
    ∃ contents' mode', t'.at? place = some (.file contents' mode') ∧ AllowsWriting mode'

variable {t t' t'' : Tree}

theorem Prepared.trans (h : Prepared t t') (h' : Prepared t' t'') : Prepared t t'' := by
  induction h' with
  | refl => exact h
  | directory h' ha ih => exact ih.directory ha
  | mode h' ha hm ih => exact ih.mode ha hm

theorem Prepared.grown (h : Prepared t t') : Grown t t' [] := by
  induction h with
  | refl => exact Grown.refl ..
  | directory h ha ih => exact ih.then (grown_put_directory ha _)
  | mode h ha hm ih => exact ih.then (grown_put_mode ha _)

theorem KeepsWritable.refl (t : Tree) : KeepsWritable t t :=
  fun _ contents mode ha hm => ⟨contents, mode, ha, hm⟩

theorem KeepsWritable.trans (h : KeepsWritable t t') (h' : KeepsWritable t' t'') :
    KeepsWritable t t'' := by
  intro place contents mode ha hm
  obtain ⟨contents', mode', ha', hm'⟩ := h place contents mode ha hm
  exact h' place contents' mode' ha' hm'

theorem KeepsWritable.put {place : Place} {entry : Entry}
    (h : ∀ contents mode, t.at? place = some (.file contents mode) → AllowsWriting mode →
      ∃ contents' mode', entry = .file contents' mode' ∧ AllowsWriting mode') :
    KeepsWritable t (t.put place entry) := by
  intro other contents mode ha hm
  rw [at?_put]
  split
  · rename_i hc
    obtain ⟨rfl, -⟩ := hc
    obtain ⟨contents', mode', rfl, hm'⟩ := h contents mode ha hm
    exact ⟨contents', mode', rfl, hm'⟩
  · exact ⟨contents, mode, ha, hm⟩

theorem Prepared.keepsWritable (h : Prepared t t') : KeepsWritable t t' := by
  induction h with
  | refl => exact .refl t
  | directory h ha ih =>
    refine ih.trans (.put fun contents mode hf => ?_)
    rw [ha] at hf
    simp at hf
  | mode h ha hm ih =>
    refine ih.trans (.put fun contents mode hf _ => ?_)
    rw [ha] at hf
    obtain rfl := Option.some_inj.1 hf
    exact ⟨contents, _, rfl, hm⟩

theorem prepared_setMode {mode : Nat} (hm : AllowsWriting mode) (p : Path) (t : Tree) :
    Prepared t (after (setMode p mode) t) := by
  unfold after setMode
  rw [run_bind, run_ask]
  cases h : t.find p with
  | error e => exact .refl
  | ok found => exact Prepared.refl.mode (find_ok h).2 hm

theorem prepared_tryModes {modes : List Nat} (hm : ∀ mode ∈ modes, AllowsWriting mode) (p : Path)
    (t : Tree) : Prepared t (tryModes p modes t).2 := by
  induction modes generalizing t with
  | nil => exact .refl
  | cons mode modes ih =>
    have hset := prepared_setMode (hm mode (List.mem_cons_self ..)) p t
    have hrest := ih fun other ho => hm other (List.mem_cons_of_mem _ ho)
    unfold after at hset
    unfold tryModes
    split
    · rename_i t' h
      rw [h] at hset
      exact hset
    · rename_i t' h
      rw [h] at hset
      split
      · exact hset
      · exact hset.trans (hrest t')

theorem prepared_makeWritable (t : Tree) (p : Path) : Prepared t (t.makeWritable p).2 := by
  unfold makeWritable
  split
  · exact .refl
  · refine prepared_tryModes (fun mode hmode => ?_) _ t
    unfold escalation at hmode
    revert mode
    split <;> decide

theorem look_setMode (p : Path) (mode : Nat) (t : Tree) (place : Place) :
    (after (setMode p mode) t).look place = t.look place := by
  unfold after setMode
  rw [run_bind, run_ask]
  cases h : t.find p with
  | error e => rfl
  | ok found => exact look_put_mode (find_ok h).2 mode place

theorem look_tryModes (p : Path) (modes : List Nat) (t : Tree) (place : Place) :
    (tryModes p modes t).2.look place = t.look place := by
  induction modes generalizing t with
  | nil => rfl
  | cons mode modes ih =>
    have hset := look_setMode p mode t place
    unfold after at hset
    unfold tryModes
    split
    · rename_i t' h
      rw [h] at hset
      exact hset
    · rename_i t' h
      rw [h] at hset
      split
      · exact hset
      · exact (ih t').trans hset

theorem look_makeWritable (t : Tree) (p : Path) (place : Place) :
    (t.makeWritable p).2.look place = t.look place := by
  unfold makeWritable
  split
  · rfl
  · exact look_tryModes ..

theorem run_makeDirectory (p : Path) (t : Tree) :
    (makeDirectory p).run.run t =
      match t.locate p with
      | .error e => (.error e, t)
      | .ok place =>
        if (t.at? place).isSome then (.error .exists, t)
        else (.ok (), t.put place (.directory modeOfNewDirectory)) := by
  unfold makeDirectory
  rw [run_bind, run_ask]
  cases t.locate p with
  | error e => rfl
  | ok place =>
    dsimp only
    rw [run_bind, run_get]
    dsimp only
    split <;> rfl

theorem prepared_makeDirectory (p : Path) (t : Tree) :
    Prepared t (after (makeDirectory p) t) := by
  unfold after
  rw [run_makeDirectory]
  split
  · exact .refl
  · split
    · exact .refl
    · rename_i place _ hn
      exact Prepared.refl.directory (by simpa using hn)

theorem prepared_ensureDirectory (p : Path) (t : Tree) :
    Prepared t (after (ensureDirectory p) t) := by
  have hm := prepared_makeDirectory p t
  unfold after at hm
  unfold after ensureDirectory
  rw [run_bind, run_get]
  dsimp only
  split
  · rename_i t' h
    rw [h] at hm
    exact hm
  · split
    · exact .refl
    · exact .refl

theorem prepared_makeDirectoriesFrom (fuel : Nat) (p : Path) (t : Tree) :
    Prepared t (after (makeDirectoriesFrom fuel p) t) := by
  induction fuel generalizing p t with
  | zero => exact .refl
  | succ fuel ih =>
    have hm := prepared_makeDirectory p t
    unfold after at hm
    unfold after
    rw [makeDirectoriesFrom]
    split
    · exact .refl
    · rw [run_bind, run_get]
      dsimp only
      split
      · rename_i t' h
        rw [h] at hm
        exact hm
      · split
        · exact .refl
        · rename_i parent _
          have hp := ih parent t
          unfold after at hp
          rw [run_bind]
          split
          · rename_i t' h
            rw [h] at hp
            exact hp.trans (prepared_ensureDirectory p t')
          · rename_i t' h
            rw [h] at hp
            exact hp
      · split
        · exact .refl
        · exact .refl

theorem prepared_makeParents (p : Path) (t : Tree) :
    Prepared t (after (makeParents p) t) := by
  unfold makeParents
  split
  · exact prepared_makeDirectoriesFrom ..
  · exact .refl

end Patchboard.Tree
