import Patchboard.Proofs.Cursor.DryRun.Independent
import Patchboard.Proofs.State.Reserve

set_option autoImplicit false

/-!
A test of a whole plan and the real run. The test looks at the tree before the first action
throughout, while in the real run every action finds what the earlier ones left. The two fail
alike when no action meddles with what a later one looks at or works on.
-/

namespace Patchboard.Cursor
open Tree

def Undisturbed (c : RunContext) (site : Site) (actions : List Action) : Nat → Cursor → Prop
  | 0, _ => True
  | n + 1, s =>
    ∀ a ∈ actions[s.position]?,
      ActionUndisturbed c site a { s with position := s.position + 1 } ∧
        Undisturbed c site actions n (next c actions s).2

section
variable {c : RunContext} {site : Site} {s s' : Cursor}

theorem failed_walk {actions : List Action} {n : Nat}
    (hu : Undisturbed (c.withTesting false) site actions n s) (hs : s'.site = site)
    (hp : s'.position = s.position) (hf : s'.failed = s.failed) :
    (walk (c.withTesting true) actions n s').2.failed =
      (walk (c.withTesting false) actions n s).2.failed := by
  induction n generalizing s s' with
  | zero => exact hf
  | succ n ih =>
    cases ha : actions[s.position]? with
    | none =>
      have ha' : actions[s'.position]? = none := by rw [hp, ha]
      rw [walk, walk, next, next, ha, ha']
      exact hf
    | some a =>
      obtain ⟨hact, hu⟩ := hu a ha
      have ha' : actions[s'.position]? = some a := by rw [hp, ha]
      have hnext := next_some (c := c.withTesting false) actions ha
      have hnext' := next_some (c := c.withTesting true) actions ha'
      have hsame : { s' with position := s.position + 1 }.site = site := hs
      obtain ⟨hfail, hsite⟩ := anyFailure_runAction (c := c) actions s.position hact hsame
      have hk := keeps_runAction (c := c.withTesting false) (a := a)
        (s := { s with position := s.position + 1 }) actions s.position
      have hk' := keeps_runAction (c := c.withTesting true) (a := a)
        (s := { s' with position := s.position + 1 }) actions s.position
      rw [hp] at hnext'
      rw [hnext] at hu
      rw [walk_succ hnext, walk_succ hnext']
      refine ih hu ?_ ?_ ?_
      · exact hsite
      · exact hk'.position.trans hk.position.symm
      · have hfailed := hk.failed
        have hfailed' := hk'.failed
        dsimp only at hfailed hfailed'
        unfold anyFailure at hfail
        dsimp only [record]
        rw [hfailed, hfailed', hfail, hf]

end

theorem failed_of_undisturbed {c : RunContext} {site : Site} {actions : List Action}
    (hu : Undisturbed (c.withTesting false) site actions actions.length (start site)) :
    (runAllActions (c.withTesting true) actions site).1.failed =
      (runAllActions (c.withTesting false) actions site).1.failed := by
  have hsite : (start site).site = site := rfl
  exact failed_walk hu hsite rfl rfl

/-- Each action of a plan can be carried out on the site as it is, none has to do with a place that
an earlier one alters, and no entry of the history that is asked for depends on such places. -/
structure Independent (c : RunContext) (site : Site) (actions : List Action) : Prop where
  regular : site.tree.Regular
  keyed : site.tree.Keyed
  apart : (actions.flatMap (deeds c site.tree)).Pairwise Deed.Spares
  feasible : ∀ a ∈ actions, Feasible c site a
  history : ∀ a ∈ actions, a.kind = .requires → ∀ id ∈ requiredPackage? a,
    ∀ t, Left site.tree (actions.flatMap (deeds c site.tree)) t →
      c.history t id = c.history site.tree id

section
variable {c : RunContext} {site : Site}

theorem undisturbed_of_reached {before later : List Action} {s : Cursor}
    (h : Independent c site (before ++ later)) (hp : s.position = before.length)
    (hs : site.Reached (before.flatMap (deeds c site.tree)) s.site) :
    Undisturbed (c.withTesting false) site (before ++ later) later.length s := by
  induction later generalizing before s with
  | nil => trivial
  | cons a later ih =>
    have ha : (before ++ a :: later)[s.position]? = some a := by simp [hp]
    have hmem : a ∈ before ++ a :: later := by simp
    have hdone : (before ++ [a]).flatMap (deeds c site.tree) =
        before.flatMap (deeds c site.tree) ++ deeds c site.tree a := by simp
    have hall : (before ++ a :: later).flatMap (deeds c site.tree) =
        (before ++ [a]).flatMap (deeds c site.tree) ++ later.flatMap (deeds c site.tree) := by simp
    have happart := h.apart
    rw [hall, List.pairwise_append, hdone] at happart
    obtain ⟨hact, hreached⟩ := reached_runAction (s := { s with position := s.position + 1 })
      h.regular hs (h.feasible a hmem) h.keyed (before ++ a :: later) s.position happart.1
      fun hkind id hid => h.history a hmem hkind id hid s.site.tree
        (hs.left.mono fun d hd => by rw [hall, hdone]; simp [hd])
    intro other hother
    obtain rfl := Option.some.inj (ha.symm.trans hother)
    refine ⟨hact, ?_⟩
    rw [← List.singleton_append, ← List.append_assoc] at h ⊢
    refine ih h ?_ ?_
    · rw [List.append_assoc, List.singleton_append, position_next ha, hp, List.length_append]
      rfl
    · rw [List.append_assoc, List.singleton_append, next_some _ ha, hdone]
      exact hreached

end

/-- A plan of independent actions fails in the test exactly when it fails in the real run. -/
theorem failed_runAllActions {c : RunContext} {site : Site} {actions : List Action}
    (h : Independent c site actions) :
    (runAllActions (c.withTesting true) actions site).1.failed =
      (runAllActions (c.withTesting false) actions site).1.failed :=
  failed_of_undisturbed
    (@undisturbed_of_reached c site [] actions _ h rfl (.start h.regular h.keyed))

section
attribute [local irreducible] StateLayout.fileStem

theorem history_of_left {l : StateLayout} {base t : Tree} {done : List Deed} {package : String}
    (hd : base.isDirectory l.receipts = true) (ht : Left base done t)
    (hs : ∀ d ∈ done, d.Spares (.looking base [l.receipt package])) :
    History.view l t package = History.view l base package := by
  have hcarries := ht.carries hs
  have hseen {place : Place} (hp : place ∈ base.way (l.receipt package)) :
      (Deed.looking base [l.receipt package]).Seen place :=
    .inl (List.mem_flatMap.2 ⟨_, List.mem_singleton_self _, hp⟩)
  refine StateLayout.history_congr (text?_of_way ⟨rfl, hcarries.second⟩ fun place hp => ?_)
  have hway := hp
  rw [StateLayout.receipt_eq, mem_way_join (StateLayout.isName_receiptFile package)] at hway
  rcases hway with hway | hlast
  · obtain ⟨mode, hmode⟩ := directory_of_mem_way (enters_of_isDirectory hd) hway
    exact hcarries.of_some (hseen hp) (by rw [hmode]; rfl)
  · have hplace : place = base.lexicalPlace (l.receipt package) := by
      rw [StateLayout.receipt_eq, lexicalPlace_join (StateLayout.isName_receiptFile package)]
      exact hlast
    exact hcarries.of_firm (hseen hp)
      ⟨base.spot (l.receipt package), List.mem_singleton_self _, hplace⟩

end

def actionAt (kind : ActionKind) (p : Path) : Action :=
  { Action.make kind p.text with destination := some p }

def planLayout : StateLayout := ⟨⟨"/s"⟩⟩

def planContext : RunContext :=
  ⟨⟨.empty, [⟨1, "default", ⟨"/t/d"⟩⟩, ⟨2, "other", ⟨"/t/o"⟩⟩], none, true⟩,
    History.view planLayout, ⟨.install, false, "english"⟩⟩

def planSite : Site :=
  ⟨⟨[(["t"], .directory 0o755), (["t", "d"], .directory 0o755), (["t", "o"], .directory 0o755),
    (["t", "d", "x"], .file (.text "a") 0o644), (["t", "o", "x"], .file (.text "b") 0o644),
    (["f"], .file (.text "a") 0o644), (["s"], .directory 0o755),
    (["s", "installed"], .directory 0o755),
    (["s", "installed", "q.receipt"],
      .file (.text "package_id=q\nversion=1\ninstalled_at_unix=1\n") 0o644),
    (["p"], .file (.text "<file>\n/f\n</file>\n<search>\na\n</search>\n<replace>\nb\n</replace>\n")
      0o644)], []⟩, .byMode⟩

/-- A new directory, a patch, the removal of a file that has a copy in another theme, and a package
that is asked for in between. -/
def steadyPlan : List Action :=
  [actionAt .createDir ⟨"/n"⟩, { Action.make .modification "/p" with isBoardmod := true },
    { Action.make .requires "" with detail := .requires "q" none },
    { actionAt .removeFile ⟨"/t/d/x"⟩ with detail := .tree .yes }]

theorem failed_runAllActions_steady : Independent planContext planSite steadyPlan ∧
    (runAllActions (planContext.withTesting true) steadyPlan planSite).1.failed =
      (runAllActions (planContext.withTesting false) steadyPlan planSite).1.failed ∧
    (runAllActions (planContext.withTesting false) steadyPlan planSite).1.failed = false := by
  have hregular : planSite.tree.Regular :=
    ⟨closed_of_entries (by decide), named_of_entries (by decide)⟩
  have h : Independent planContext planSite steadyPlan := by
    refine ⟨hregular, by decide +kernel, by decide +kernel, by decide +kernel, ?_⟩
    have hspares : ∀ a ∈ steadyPlan, a.kind = .requires → ∀ id ∈ requiredPackage? a,
        ∀ d ∈ steadyPlan.flatMap (deeds planContext planSite.tree),
          d.Spares (.looking planSite.tree [planLayout.receipt id]) := by
      decide +kernel
    have hreceipts : planSite.tree.isDirectory planLayout.receipts = true := by
      decide +kernel
    intro a ha hkind id hid t ht
    have hhistory : planContext.history = History.view planLayout := by rw [planContext]
    rw [hhistory]
    exact history_of_left hreceipts ht (hspares a ha hkind id hid)
  exact ⟨h, failed_runAllActions h, by decide +kernel⟩

def removalTwice : List Action := [actionAt .removeFile ⟨"/f"⟩, actionAt .removeFile ⟨"/f"⟩]

def removalOfNew : List Action := [actionAt .createFile ⟨"/t/n"⟩, actionAt .removeFile ⟨"/t/n"⟩]

def directoryOverFile : List Action := [actionAt .createDir ⟨"/f"⟩]

theorem failed_runAllActions_dependent :
    planSite.isWritable ⟨"/f"⟩ = true ∧ planSite.isWritable ⟨"/t/n"⟩ = true ∧
      (runAllActions (planContext.withTesting true) removalTwice planSite).1.failed = false ∧
      (runAllActions (planContext.withTesting false) removalTwice planSite).1.failed = true ∧
      (runAllActions (planContext.withTesting true) removalOfNew planSite).1.failed = true ∧
      (runAllActions (planContext.withTesting false) removalOfNew planSite).1.failed = false ∧
      (runAllActions (planContext.withTesting true) directoryOverFile planSite).1.failed = false ∧
      (runAllActions (planContext.withTesting false) directoryOverFile planSite).1.failed =
        true := by
  decide +kernel

end Patchboard.Cursor
