import Patchboard.Cursor

set_option autoImplicit false

namespace Patchboard.Cursor

variable {c : RunContext} {a : Action} {s s' : Cursor}

/-- An action keeps the position, the failures so far and the results of the themes. -/
structure Keeps (s s' : Cursor) : Prop where
  position : s'.position = s.position
  failed : s'.failed = s.failed
  themeResults : s'.themeResults = s.themeResults

structure KeepsFiles (s s' : Cursor) : Prop extends Keeps s s' where
  files : s'.files = s.files

theorem KeepsFiles.refl (s : Cursor) : KeepsFiles s s := ⟨⟨rfl, rfl, rfl⟩, rfl⟩

theorem KeepsFiles.trans {s'' : Cursor} (h : KeepsFiles s s') (h' : KeepsFiles s' s'') :
    KeepsFiles s s'' :=
  ⟨⟨h'.position.trans h.position, h'.failed.trans h.failed, h'.themeResults.trans h.themeResults⟩,
    h'.files.trans h.files⟩

theorem keepsFiles_runAt (destination : Path) (theme : Nat) :
    KeepsFiles s (runAt c a destination theme s).2 := by
  unfold runAt
  dsimp only
  split
  · exact .refl s
  · split
    · exact .refl s
    · split <;> exact ⟨⟨rfl, rfl, rfl⟩, rfl⟩

theorem keepsFiles_runAll (places : List ThemeCopy) :
    KeepsFiles s (runAll c a places s).2 := by
  induction places generalizing s with
  | nil => exact .refl s
  | cons place places ih => exact (keepsFiles_runAt place.path place.theme).trans ih

theorem keepsFiles_runTree : KeepsFiles s (runTree c a s).2 := by
  unfold runTree
  split
  · exact .refl s
  · exact (keepsFiles_runAt _ _).trans (keepsFiles_runAll _)

theorem keepsFiles_runChmod : KeepsFiles s (runChmod c a s).2 := by
  unfold runChmod
  split
  · exact .refl s
  · dsimp only
    split
    · exact ⟨⟨rfl, rfl, rfl⟩, rfl⟩
    · split <;> exact ⟨⟨rfl, rfl, rfl⟩, rfl⟩

theorem keepsFiles_runDocument (actions : List Action) (index : Nat) :
    KeepsFiles s (runDocument c actions index a s).2 := by
  unfold runDocument
  split
  · split
    · split <;> exact .refl s
    · exact .refl s
  · exact ⟨⟨rfl, rfl, rfl⟩, rfl⟩

theorem keepsFiles_runDeferred : KeepsFiles s (runDeferred c a s).2 := by
  unfold runDeferred
  split
  · exact .refl s
  · exact ⟨⟨rfl, rfl, rfl⟩, rfl⟩

theorem keepsFiles_runAction (hk : a.kind ≠ .modification) (actions : List Action) (index : Nat) :
    KeepsFiles s (runAction c actions index a s).2 := by
  unfold runAction
  split
  · exact keepsFiles_runChmod
  · exact absurd ‹_› hk
  · exact .refl s
  · exact keepsFiles_runDocument actions index
  · exact keepsFiles_runDocument actions index
  · exact .refl s
  · exact keepsFiles_runDeferred
  · exact keepsFiles_runDeferred
  · exact keepsFiles_runDeferred
  · exact keepsFiles_runDeferred
  · exact keepsFiles_runDeferred
  · exact keepsFiles_runTree

theorem runAction_modification (hk : a.kind = .modification) (actions : List Action)
    (index : Nat) : runAction c actions index a s = runModification c a s := by
  unfold runAction
  rw [hk]

theorem keeps_runModification : Keeps s (runModification c a s).2 := by
  unfold runModification foldReport
  dsimp only
  split
  · exact ⟨rfl, rfl, rfl⟩
  · split
    · exact ⟨rfl, rfl, rfl⟩
    · split <;> exact ⟨rfl, rfl, rfl⟩

theorem keeps_runAction (actions : List Action) (index : Nat) :
    Keeps s (runAction c actions index a s).2 := by
  by_cases hk : a.kind = .modification
  · rw [runAction_modification hk]
    exact keeps_runModification
  · exact (keepsFiles_runAction hk actions index).toKeeps

theorem site_runDocument (actions : List Action) (index : Nat) :
    (runDocument c actions index a s).2.site = s.site := by
  unfold runDocument
  split
  · split
    · split <;> rfl
    · rfl
  · rfl

theorem site_runDeferred : (runDeferred c a s).2.site = s.site := by
  unfold runDeferred
  split <;> rfl

theorem next_none {actions : List Action} (h : actions[s.position]? = none) :
    next c actions s = (none, s) := by
  unfold next
  rw [h]

theorem next_some (actions : List Action) (h : actions[s.position]? = some a) :
    next c actions s =
      let carried := runAction c actions s.position a { s with position := s.position + 1 }
      (some ⟨s.position, a.kind, displayTarget c a, a.description, carried.1⟩,
        record carried.1 carried.2) := by
  unfold next
  rw [h]

theorem walk_succ {actions : List Action} {step : ActionStep}
    (h : next c actions s = (some step, s')) (n : Nat) :
    walk c actions (n + 1) s =
      (step :: (walk c actions n s').1, (walk c actions n s').2) := by
  rw [walk, h]

theorem walk_of_done {actions : List Action} (n : Nat) (h : actions[s.position]? = none) :
    walk c actions n s = ([], s) := by
  cases n with
  | zero => rfl
  | succ n => rw [walk, next_none h]

theorem position_next {actions : List Action} (h : actions[s.position]? = some a) :
    (next c actions s).2.position = s.position + 1 := by
  have hkeeps := keeps_runAction (c := c) (a := a) (s := { s with position := s.position + 1 })
    actions s.position
  rw [next_some actions h]
  exact hkeeps.position

theorem isDone_walk {actions : List Action} {n : Nat} (hn : actions.length ≤ s.position + n) :
    isDone actions (walk c actions n s).2 = true := by
  induction n generalizing s with
  | zero => exact decide_eq_true hn
  | succ n ih =>
    cases h : actions[s.position]? with
    | none =>
      rw [walk_of_done (n + 1) h]
      simpa [isDone] using h
    | some a =>
      have hposition := position_next (c := c) h
      have hnext := next_some (c := c) actions h
      rw [hnext] at hposition
      rw [walk_succ hnext]
      apply ih
      rw [hposition]
      omega

end Patchboard.Cursor
