import Patchboard.Proofs.Cursor.Twins
import Patchboard.Proofs.Cursor.Walk
import Patchboard.Proofs.Patch.Backups

set_option autoImplicit false

namespace Patchboard.Cursor
open Patch Backup

def turn? (a : Action) (t : Tree) : Option Turn :=
  (patchOf? a t).map fun patch => ⟨patch, a.reverse⟩

/-- The patches of some actions, each read when its turn comes. -/
def turns (b : Board) : List Action → Site → List Turn
  | [], _ => []
  | a :: actions, s =>
    let turn := (turn? a s.tree).toList
    turn ++ turns b actions (applyAll b turn s)

variable {c : RunContext} {a : Action} {s : Cursor} {actions : List Action}

theorem site_runModification (ht : c.options.testing = false) (hk : a.kind = .modification) :
    (runModification c a s).2.site = applyAll c.board (turn? a s.site.tree).toList s.site := by
  unfold turn? patchOf?
  rw [if_pos hk]
  cases hr : s.site.tree.text? (patchFile a) with
  | error e =>
    rw [runModification_unread fun raw => by simp [hr]]
    rfl
  | ok raw =>
    cases hp : patch? a raw with
    | error problem =>
      rw [runModification_malformed hr hp]
      simp [Except.toOption, hp, applyAll]
    | ok patch =>
      rw [(runModification_ok hr hp).2.1, ht]
      simp [Except.toOption, hp, applyAll, Turn.apply]

theorem site_next (h : actions[s.position]? = some a) (hk : a.kind = .modification)
    (ht : c.options.testing = false) :
    (next c actions s).2.site = applyAll c.board (turn? a s.site.tree).toList s.site := by
  rw [next_some actions h]
  rw [runAction_modification hk]
  exact site_runModification (s := { s with position := s.position + 1 }) ht hk

theorem site_walk (hk : ∀ a ∈ actions, a.kind = .modification)
    (ht : c.options.testing = false) (n : Nat) :
    (walk c actions n s).2.site =
      applyAll c.board (turns c.board ((actions.drop s.position).take n) s.site) s.site := by
  induction n generalizing s with
  | zero => rfl
  | succ n ih =>
    cases h : actions[s.position]? with
    | none =>
      rw [walk_of_done _ h, List.drop_eq_nil_of_le (List.getElem?_eq_none_iff.1 h)]
      rfl
    | some a =>
      obtain ⟨hlt, ha⟩ := List.getElem?_eq_some_iff.1 h
      have hnext := next_some (c := c) actions h
      have hrest := ih (s := (next c actions s).2)
      rw [position_next h, site_next h (hk a (List.mem_of_getElem? h)) ht] at hrest
      rw [hnext] at hrest
      rw [walk_succ hnext, hrest, List.drop_eq_getElem_cons hlt, List.take_succ_cons, ha]
      exact (List.foldl_append ..).symm

theorem site_runAllActions (hk : ∀ a ∈ actions, a.kind = .modification)
    (ht : c.options.testing = false) (s : Site) :
    (runAllActions c actions s).2.site = applyAll c.board (turns c.board actions s) s := by
  have hwalk := site_walk (s := start s) hk ht actions.length
  rw [start, List.drop_zero, List.take_length] at hwalk
  exact hwalk

/-- When a plan of modifications has changed a file, its backup holds what the file held before the
run stored it for the last time. -/
theorem backup_of_runAllActions (hk : ∀ a ∈ actions, a.kind = .modification)
    (ht : c.options.testing = false) (hb : c.board.makeBackups = true) {s : Site} {p : Path}
    (hp : Possible c.board s.tree p)
    (hs : ∀ saving ∈ savings c.board (turns c.board actions s) s,
      Backup.Spares c.board s.tree p saving.path)
    (hc : (runAllActions c actions s).2.site.tree.file? p ≠ s.tree.file? p) :
    ∃ save ∈ (savingsAt s.tree p (savings c.board (turns c.board actions s) s)).getLast?,
      (runAllActions c actions s).2.site.tree.file? (ofFile p c.board.settings) =
          save.before.file? p ∧
        (savingsAt s.tree p (savings c.board (turns c.board actions s) s) = [save] →
          save.before.file? p = s.tree.file? p) := by
  have hstart : Backed c.board s.tree p (savingsAt s.tree p []) s.tree := .start hp
  rw [site_runAllActions hk ht] at hc ⊢
  exact (hstart.applyAll hb hp hs).of_changed hc

end Patchboard.Cursor
