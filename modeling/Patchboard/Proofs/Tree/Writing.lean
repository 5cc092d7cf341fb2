import Patchboard.Proofs.Tree.Access

set_option autoImplicit false

namespace Patchboard.Tree

/-- The contents of the file at a place. -/
def contentsAt? (t : Tree) (place : Place) : Option Contents :=
  match t.look place with
  | some (.file contents _) => some contents
  | _ => none

variable {t t' t'' : Tree} {written : List Place} {p : Path} {place : Place}

theorem contentsAt?_of_grown (h : Grown t t' written) (hp : place ∉ written) :
    t'.contentsAt? place = t.contentsAt? place := by
  unfold contentsAt?
  rcases h.keeps place hp with hk | ⟨hn, hd⟩
  · rw [hk]
  · rw [hn, hd]

theorem locate_of_writable? {mode : Option Nat} (h : t.writable? p = .ok (place, mode)) :
    t.locate p = .ok place := by
  unfold writable? at h
  split at h
  · simp at h
  · rename_i located hl
    split at h
    · simp at h
    · split at h
      · simp at h
      · cases h
        exact hl
      · cases h
        exact hl

theorem file?_of_locate (hl : t.locate p = .ok place) (he : endsInSeparator p = false) :
    t.file? p = t.contentsAt? place := by
  unfold file? find contentsAt? look
  rw [hl]
  dsimp only
  rw [he]
  cases t.at? place with
  | none => rfl
  | some entry => cases entry <;> rfl

/-- A tree has grown, and other contents stand at most at the place that a path leads to. -/
structure WrittenAt (p : Path) (t t' : Tree) : Prop where
  grown : ∃ written, Grown t t' written
  changed : ∀ place, t'.contentsAt? place ≠ t.contentsAt? place → t'.locate p = .ok place

theorem WrittenAt.of_grown (h : Grown t t' []) : WrittenAt p t t' := by
  refine ⟨⟨[], h⟩, fun place hne => ?_⟩
  exact absurd (contentsAt?_of_grown h (by simp)) hne

theorem WrittenAt.after_grown (h : Grown t t' []) (h' : WrittenAt p t' t'') :
    WrittenAt p t t'' := by
  obtain ⟨written, hg⟩ := h'.grown
  refine ⟨⟨_, h.trans hg⟩, fun place hne => h'.changed place ?_⟩
  rw [contentsAt?_of_grown h (by simp)]
  exact hne

theorem WrittenAt.put {mode : Option Nat} (h : t.writable? p = .ok (place, mode))
    (contents : Contents) (m : Nat) : WrittenAt p t (t.put place (.file contents m)) := by
  have hg := grown_put_file (writable?_ok h).2 contents m
  refine ⟨⟨[place], hg⟩, fun other hne => ?_⟩
  by_cases he : other = place
  · rw [he]
    exact locate_of_grown hg (locate_of_writable? h)
  · exact absurd (contentsAt?_of_grown hg (by simpa using he)) hne

theorem writtenAt_writeContents (p : Path) (contents : Contents) (t : Tree) :
    WrittenAt p t (after (writeContents p contents) t) := by
  unfold after
  rw [run_writeContents]
  split
  · exact .of_grown (Grown.refl ..)
  · rename_i place mode h
    exact .put h ..

theorem writtenAt_copyFile (source target : Path) (t : Tree) :
    WrittenAt target t (after (copyFile source target) t) := by
  unfold after copyFile
  rw [run_bind, run_ask]
  cases t.find source with
  | error e => exact .of_grown (Grown.refl ..)
  | ok found =>
    obtain ⟨origin, entry⟩ := found
    cases entry with
    | directory mode => exact .of_grown (Grown.refl ..)
    | file contents mode =>
      dsimp only
      rw [run_bind, run_ask]
      cases h : t.writable? target with
      | error e => exact .of_grown (Grown.refl ..)
      | ok found => exact .put h ..

theorem writtenAt_inside {action : Action Unit} (h : ∀ t, WrittenAt p t (after action t))
    (t : Tree) : WrittenAt p t (after (makeParents p >>= fun _ => action) t) := by
  have hp := (prepared_makeParents p t).grown
  unfold after at hp h ⊢
  rw [run_bind]
  split
  · rename_i t' hrun
    rw [hrun] at hp
    exact (h t').after_grown hp
  · rename_i t' hrun
    rw [hrun] at hp
    exact .of_grown hp

theorem ends_of_writable? {mode : Option Nat} (h : t.writable? p = .ok (place, mode)) :
    endsInSeparator p = false ∧ endsInName p = true := by
  unfold writable? at h
  split at h
  · simp at h
  · split at h
    · simp at h
    · rename_i hends
      simpa using hends

theorem writable?_of_file {contents : Contents} (hf : t.file? p = some contents)
    (hn : endsInName p = true) : ∃ place mode, t.writable? p = .ok (place, some mode) := by
  obtain ⟨he, place, mode, hl, ha⟩ := file?_eq_some.1 hf
  exact ⟨place, mode, by simp [writable?, hl, he, hn, ha]⟩

theorem writable?_of_grown {mode : Option Nat} (h : Grown t t' written)
    (hw : t.writable? p = .ok (place, mode)) (hd : t'.look place ≠ some (.directory 0)) :
    ∃ mode', t'.writable? p = .ok (place, mode') := by
  have hl := locate_of_grown h (locate_of_writable? hw)
  obtain ⟨he, hn⟩ := ends_of_writable? hw
  unfold writable?
  rw [hl]
  dsimp only
  rw [he, hn]
  cases ha : t'.at? place with
  | none => exact ⟨none, rfl⟩
  | some entry =>
    cases entry with
    | directory mode' => exact absurd (look_directory ha) hd
    | file contents mode' => exact ⟨some mode', rfl⟩

theorem mode_of_writable? {mode : Nat} (h : t.writable? p = .ok (place, some mode)) :
    ∃ contents, t.at? place = some (.file contents mode) := by
  unfold writable? at h
  split at h
  · simp at h
  · split at h
    · simp at h
    · split at h
      · simp at h
      · rename_i contents m ha
        cases h
        exact ⟨contents, ha⟩
      · simp at h

theorem absent_of_writable? (h : t.writable? p = .ok (place, none)) : t.at? place = none := by
  unfold writable? at h
  split at h
  · simp at h
  · split at h
    · simp at h
    · split at h
      · simp at h
      · simp at h
      · rename_i ha
        cases h
        exact ha

theorem createNew_cases (p : Path) (t : Tree) :
    (∃ e, (createNew p).run.run t = (.error e, t)) ∨
      ∃ place, t.locate p = .ok place ∧ t.at? place = none ∧
        (createNew p).run.run t = (.ok place, t.put place (.file (.text "") modeOfNewFile)) := by
  unfold createNew
  rw [run_bind, run_ask]
  cases hl : t.locate p with
  | error e => exact .inl ⟨e, rfl⟩
  | ok place =>
    dsimp only
    rw [run_bind, run_get]
    dsimp only
    split
    · exact .inl ⟨_, rfl⟩
    · rename_i ha
      rw [Option.not_isSome_iff_eq_none] at ha
      rw [run_bind, writeText, run_writeContents]
      cases hw : t.writable? p with
      | error e => exact .inl ⟨e, rfl⟩
      | ok target =>
        obtain ⟨goal, mode⟩ := target
        obtain rfl : goal = place := Except.ok.inj ((locate_of_writable? hw).symm.trans hl)
        cases mode with
        | none => exact .inr ⟨goal, rfl, ha, rfl⟩
        | some mode =>
          obtain ⟨contents, hold⟩ := mode_of_writable? hw
          rw [ha] at hold
          cases hold

theorem put_put (t : Tree) (place : Place) (first second : Entry) :
    (t.put place first).put place second = t.put place second := by
  have hinsert (entries : List (Place × Entry)) :
      insertAt place second (insertAt place first entries) = insertAt place second entries := by
    induction entries with
    | nil => simp [insertAt]
    | cons e entries ih =>
      by_cases he : e.1 = place
      · simp [insertAt, he]
      · simp [insertAt, he, ih]
  simp only [put, hinsert]

theorem run_writeOpened {contents : Contents} {mode : Nat}
    (ha : t.at? place = some (.file contents mode)) (s : String) (fault : Option Fault) :
    (writeOpened place s fault).run.run t =
      ((match fault with
        | none => .ok ()
        | some fault => .error fault.error), t.put place (.file (taken s fault) mode)) := by
  unfold writeOpened
  rw [run_bind, run_modify]
  dsimp only
  rw [ha]
  cases fault <;> rfl

section
variable {mode : Option Nat} (h : t.writable? p = .ok (place, mode)) (contents : Contents)
include h

theorem locate_put (m : Nat) :
    (t.put place (.file contents m)).locate p = .ok place ∧
      (t.put place (.file contents m)).at? place = some (.file contents m) := by
  have hd := (writable?_ok h).2
  have hroot : place ≠ [] := fun hr => hd (by rw [hr]; rfl)
  refine ⟨locate_of_grown (grown_put_file hd contents m) (locate_of_writable? h), ?_⟩
  rw [at?_put, if_pos ⟨rfl, hroot⟩]

theorem file?_put (m : Nat) : (t.put place (.file contents m)).file? p = some contents := by
  obtain ⟨hl, ha⟩ := locate_put h contents m
  exact file?_eq_some.2 ⟨(ends_of_writable? h).1, place, m, hl, ha⟩

theorem unlocked_put (hu : t.Unlocked p) :
    (t.put place (.file contents (mode.getD modeOfNewFile))).Unlocked p := by
  obtain ⟨hl, ha⟩ := locate_put h contents (mode.getD modeOfNewFile)
  intro other contents' mode' hl' ha'
  obtain rfl := Except.ok.inj (hl.symm.trans hl')
  rw [ha] at ha'
  cases ha'
  cases mode with
  | none => decide
  | some m =>
    obtain ⟨old, hold⟩ := mode_of_writable? h
    exact hu place old m (locate_of_writable? h) hold

theorem keepsWritable_put :
    KeepsWritable t (t.put place (.file contents (mode.getD modeOfNewFile))) := by
  refine .put fun old m hold hm => ⟨contents, _, rfl, ?_⟩
  cases mode with
  | none =>
    rw [absent_of_writable? h] at hold
    simp at hold
  | some m' =>
    obtain ⟨_, ha⟩ := mode_of_writable? h
    rw [hold] at ha
    cases ha
    exact hm

end

theorem keepsWritable_copyFile {source : Path} (hu : t.Unlocked source) (target : Path) :
    KeepsWritable t (after (copyFile source target) t) := by
  unfold after copyFile
  rw [run_bind, run_ask]
  cases hs : t.find source with
  | error e => exact .refl t
  | ok found =>
    obtain ⟨origin, entry⟩ := found
    cases entry with
    | directory mode => exact .refl t
    | file contents mode =>
      obtain ⟨hl, ha⟩ := find_ok hs
      have hm := hu origin contents mode hl ha
      dsimp only
      rw [run_bind, run_ask]
      cases t.writable? target with
      | error e => exact .refl t
      | ok found => exact .put fun _ _ _ _ => ⟨_, mode, rfl, hm⟩

end Patchboard.Tree
