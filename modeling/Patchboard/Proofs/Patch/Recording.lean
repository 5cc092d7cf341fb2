import Patchboard.Patch.Save

set_option autoImplicit false

namespace Patchboard

/-- A search that counts as a failure, a file that is not there, or an error. -/
def EventKind.isFailure : EventKind → Bool
  | .failure _ => true
  | .missing => true
  | .error _ => true
  | _ => false

/-- A search is recorded as what it counts as. -/
def EventKind.Honest : EventKind → Prop
  | .replace outcome => outcome.countsAsFailure = false
  | .failure outcome => outcome.countsAsFailure = true
  | _ => True

/-- What keeps a file from being saved at all: a search that counts as a failure, a file that is not
there, or a patch that is wrong. -/
def EventKind.spoils : EventKind → Bool
  | .replace outcome => outcome.countsAsFailure
  | .failure outcome => outcome.countsAsFailure
  | .missing => true
  | .error (.malformedPatch _) => true
  | _ => false

theorem EventKind.spoils_eq_false {kind : EventKind} (hk : kind.isFailure = false)
    (hh : kind.Honest) : kind.spoils = false := by
  cases kind with
  | replace outcome => exact hh
  | opened | saved | skipped | chmodNeeded => rfl
  | failure outcome | missing | error problem => simp [isFailure] at hk

namespace Report

structure Records (r : Report) (new : List Event) (r' : Report) : Prop where
  events : r'.events = r.events ++ new
  found : r'.everythingFound = (r.everythingFound && !new.any (·.kind.isFailure))
  honest : ∀ e ∈ new, e.kind.Honest

/-- Not everything was found exactly when a failure was recorded. -/
def Sound (r : Report) : Prop :=
  r.everythingFound = false ↔ ∃ e ∈ r.events, e.kind.isFailure = true

variable {r r' r'' : Report} {new new' : List Event}

theorem Records.refl (r : Report) : Records r [] r :=
  ⟨by simp, by simp, by simp⟩

theorem Records.trans (h : Records r new r') (h' : Records r' new' r'') :
    Records r (new ++ new') r'' := by
  refine ⟨?_, ?_, fun e he => ?_⟩
  · rw [h'.events, h.events, List.append_assoc]
  · rw [h'.found, h.found, List.any_append, Bool.not_or, Bool.and_assoc]
  · rcases List.mem_append.1 he with he | he
    · exact h.honest e he
    · exact h'.honest e he

theorem Records.note (h : Records r new r') (path : Path) (theme : Nat) (kind : EventKind)
    (hk : kind.isFailure = false) (hh : kind.Honest) :
    Records r (new ++ [⟨some path, theme, kind⟩]) (r'.note path theme kind) := by
  refine h.trans ⟨rfl, ?_, ?_⟩
  · simp [Report.note, hk]
  · simpa using hh

theorem Records.fail (h : Records r new r') (path : Option Path) (theme : Nat) (kind : EventKind)
    (hk : kind.isFailure = true) (hh : kind.Honest) :
    Records r (new ++ [⟨path, theme, kind⟩]) (r'.fail path theme kind) := by
  refine h.trans ⟨rfl, ?_, ?_⟩
  · simp [Report.fail, hk]
  · simpa using hh

theorem Records.prefix_events (h : Records r new r') : r.events <+: r'.events := by
  rw [h.events]
  exact List.prefix_append ..

theorem Records.drop_events (h : Records r new r') : r'.events.drop r.events.length = new := by
  rw [h.events, List.drop_left]

theorem sound_empty : Report.empty.Sound := by simp [Sound, empty]

theorem Records.sound (h : Records r new r') (hr : r.Sound) : r'.Sound := by
  have hfound := h.found
  unfold Sound at hr ⊢
  rw [h.events]
  cases hf : r.everythingFound with
  | false =>
    obtain ⟨e, he, hk⟩ := hr.1 hf
    rw [hf, Bool.false_and] at hfound
    exact ⟨fun _ => ⟨e, List.mem_append_left _ he, hk⟩, fun _ => hfound⟩
  | true =>
    have hnone : ∀ e ∈ r.events, ¬ e.kind.isFailure = true := fun e he hk => by
      simp [hr.2 ⟨e, he, hk⟩] at hf
    rw [hf, Bool.true_and] at hfound
    rw [hfound, Bool.not_eq_false', List.any_eq_true]
    constructor
    · rintro ⟨e, he, hk⟩
      exact ⟨e, List.mem_append_right _ he, hk⟩
    · rintro ⟨e, he, hk⟩
      rcases List.mem_append.1 he with he | he
      · exact absurd hk (hnone e he)
      · exact ⟨e, he, hk⟩

end Report

end Patchboard
