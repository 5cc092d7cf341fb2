import Patchboard.Proofs.Cursor.DryRun.Action
import Patchboard.Proofs.Cursor.Kinds
import Patchboard.Proofs.Cursor.Walk
import Patchboard.Proofs.Patch.DryRun.Spared
import Patchboard.Proofs.Tree.Deeds

set_option autoImplicit false

namespace Patchboard.Cursor
open Tree

def deedAt (t : Tree) (a : Action) (p : Path) : Deed :=
  let source := a.source.getD p
  match a.kind with
  | .createFile => if t.pathExists p then .making t p else .writing t p
  | .createDir => .making t p
  | .requireFile => .copying t source p
  | .requireDir => .copyingAll t source p
  | .moveFile | .moveDir => .moving t source p
  | _ => .removing t p

def deedsAt (t : Tree) (a : Action) (p : Path) : List Deed :=
  .looking t (lookups a p) :: if (absent? a p t).isSome then [] else [deedAt t a p]

structure FeasibleAt (a : Action) (site : Site) (p : Path) : Prop where
  steady : ∀ q ∈ lookups a p, site.tree.Steady q
  succeeds : absent? a p site.tree = none → (site.run (execute a p)).1 = .ok ()
  copyable : a.kind = .requireDir → ∀ source ∈ a.source, site.tree.Copyable source p

section
variable {c : RunContext} {site : Site} {a : Action} {s : Cursor} {done : List Deed} {p : Path}
  {base u : Tree}

instance (a : Action) (site : Site) (p : Path) : Decidable (FeasibleAt a site p) :=
  decidable_of_iff ((∀ q ∈ lookups a p, site.tree.Steady q) ∧
      (absent? a p site.tree = none → (site.run (execute a p)).1 = .ok ()) ∧
      (a.kind = .requireDir → ∀ source ∈ a.source, site.tree.Copyable source p))
    ⟨fun h => ⟨h.1, h.2.1, h.2.2⟩, fun h => ⟨h.steady, h.succeeds, h.copyable⟩⟩

theorem describes_createFile (base : Tree) (p : Path) :
    (if base.pathExists p then Deed.making base p else .writing base p).Describes base
      (createFile p) := by
  have hthere (u : Tree) (hx : u.pathExists p = true) :
      (createFile p).run.run u = (.ok (), u) := by
    unfold createFile
    rw [run_bind, run_get]
    dsimp only
    rw [if_pos hx]
    rfl
  have hnot (u : Tree) (hx : ¬u.pathExists p = true) :
      (createFile p).run.run u = (FileTree.write p "").run.run u := by
    unfold createFile
    rw [run_bind, run_get]
    dsimp only
    rw [if_neg hx]
  have hallows (d : Deed) (u : Tree) : d.Allows base u u := ⟨[], .refl u, by simp⟩
  intro t' u hrun hcarries hregular hkeyed
  by_cases hx : u.pathExists p = true
  · exact ⟨u, hthere u hx, hallows _ u, hregular⟩
  · split at hcarries
    · rename_i hbase
      exact absurd (hcarries.pathExists (fun place hm => .inl hm) hbase) hx
    · rename_i hbase
      rw [hnot base hbase] at hrun
      rw [if_neg hbase, hnot u hx]
      exact Deed.describes_write base p "" t' u hrun hcarries hregular hkeyed

theorem describes_execute (hr : base.Regular) (hk : base.Keyed) (hkind : a.kind.isFileTree = true)
    (habsent : absent? a p base = none)
    (hcopy : a.kind = .requireDir → ∀ source ∈ a.source, base.Copyable source p) :
    (deedAt base a p).Describes base (execute a p) := by
  unfold deedAt execute
  cases ha : a.kind with
  | createFile => exact describes_createFile base p
  | createDir => exact Deed.describes_makeDirectories base p
  | requireFile => exact Deed.describes_copyFile base _ p
  | requireDir =>
    have hpresent := sourcePresent_of_present (by rw [ha]; rfl) habsent
    unfold sourcePresent at hpresent
    cases hsource : a.source with
    | none => rw [hsource] at hpresent; cases hpresent
    | some source =>
      rw [hsource, Option.any_some, ha] at hpresent
      exact Deed.describes_copyDirectory (hcopy ha source hsource) hr hk hpresent
  | moveFile | moveDir => exact Deed.describes_move base _ p
  | removeFile | removeDir =>
    exact Deed.describes_remove (pathExists_of_present (by rw [ha]; rfl) habsent)
  | modification | code | database | hook | credits | requires | readme | license | redirect
  | error | chmod =>
    rw [ha] at hkind
    cases hkind

theorem site_runAt (theme : Nat) : (runAt (c.withTesting false) a p theme s).2.site =
    if (absent? a p s.site.tree).isSome then s.site else (s.site.run (execute a p)).2 := by
  unfold runAt
  dsimp only
  cases absent? a p s.site.tree with
  | some q => rfl
  | none =>
    have htesting : (c.withTesting false).options.testing = false := rfl
    dsimp only
    rw [htesting, if_neg Bool.false_ne_true, Option.isSome_none, if_neg Bool.false_ne_true]
    split <;> rfl

section
variable (hr : site.tree.Regular) (hk : site.tree.Keyed)
include hr hk

theorem reached_runAt (hkind : a.kind.isFileTree = true) (h : site.Reached done s.site)
    (hs : (done ++ deedsAt site.tree a p).Pairwise Deed.Spares) (hf : FeasibleAt a site p)
    (theme : Nat) : CarriedOut a p site s.site ∧
      site.Reached (done ++ deedsAt site.tree a p)
        (runAt (c.withTesting false) a p theme s).2.site := by
  obtain ⟨-, -, hspares⟩ := List.pairwise_append.1 hs
  have hlooks (q : Path) (hq : q ∈ lookups a p) : s.site.tree.view q = site.tree.view q :=
    view_of_looking h.left (fun d hd => hspares d hd _ List.mem_cons_self) hr.closed hq
      (hf.steady q hq)
  have hsame : absent? a p s.site.tree = absent? a p site.tree := absent?_of_view hlooks
  rw [site_runAt, hsame]
  cases habsent : absent? a p site.tree with
  | some q =>
    refine ⟨⟨hlooks, fun hnone => ?_⟩, h.mono fun d hd => List.mem_append_left _ hd⟩
    rw [hsame, habsent] at hnone
    cases hnone
  | none =>
    have hdeeds : deedsAt site.tree a p =
        [.looking site.tree (lookups a p), deedAt site.tree a p] := by
      rw [deedsAt, habsent]
      rfl
    rw [hdeeds] at hspares ⊢
    have hrun : (execute a p).run.run site.tree = (.ok (), ((execute a p).run.run site.tree).2) :=
      Prod.ext (hf.succeeds habsent) rfl
    have hcarries := h.left.carries fun d hd =>
      hspares d hd _ (List.mem_cons_of_mem _ (List.mem_singleton_self _))
    obtain ⟨u', hrun', hallows, hregular⟩ := describes_execute hr hk hkind habsent hf.copyable _ _
      hrun hcarries h.regular h.keyed
    refine ⟨⟨hlooks, fun _ => congrArg Prod.fst hrun'⟩, ?_⟩
    have hreached : site.Reached (done ++ [deedAt site.tree a p]) (s.site.run (execute a p)).2 := by
      refine h.run ?_ ?_
      · rw [hrun']
        exact hallows
      · rw [hrun']
        exact hregular
    rw [if_neg (by simp)]
    refine hreached.mono fun d hd => ?_
    simp only [List.mem_append, List.mem_cons, List.not_mem_nil, or_false] at hd ⊢
    exact hd.imp_right .inr

theorem reached_runAll (hkind : a.kind.isFileTree = true) {places : List ThemeCopy}
    (h : site.Reached done s.site)
    (hs : (done ++ places.flatMap fun copy => deedsAt site.tree a copy.path).Pairwise Deed.Spares)
    (hf : ∀ copy ∈ places, FeasibleAt a site copy.path) :
    AllCarriedOut (c.withTesting false) a site places s ∧
      site.Reached (done ++ places.flatMap fun copy => deedsAt site.tree a copy.path)
        (runAll (c.withTesting false) a places s).2.site := by
  induction places generalizing done s with
  | nil =>
    rw [List.flatMap_nil, List.append_nil]
    exact ⟨trivial, h⟩
  | cons place places ih =>
    rw [List.flatMap_cons, ← List.append_assoc] at hs ⊢
    obtain ⟨hfirst, hnext⟩ := reached_runAt (c := c) hr hk hkind h
      (hs.sublist (List.sublist_append_left ..)) (hf place List.mem_cons_self) place.theme
    obtain ⟨hrest, hlast⟩ := ih hnext hs fun copy hc => hf copy (List.mem_cons_of_mem _ hc)
    exact ⟨⟨hfirst, hrest⟩, hlast⟩

end

end

def treeDeeds (c : RunContext) (t : Tree) (a : Action) : List Deed :=
  match a.destination with
  | none => []
  | some destination =>
    deedsAt t a destination ++
      .looking t (ThemeCopy.lookups c.board.themes a destination) ::
        (ThemeCopy.ofAction c.board.themes t a).flatMap fun copy => deedsAt t a copy.path

def patchIn? (t : Tree) (a : Action) : Option Patch :=
  (t.text? (patchFile a)).toOption.bind fun raw => (patch? a raw).toOption

def deeds (c : RunContext) (t : Tree) (a : Action) : List Deed :=
  if a.kind.isFileTree then treeDeeds c t a
  else
    match a.kind with
    | .modification =>
      .looking t [patchFile a] :: ((patchIn? t a).map (Patch.deeds c.board t)).getD []
    | .readme | .license => [.looking t a.source.toList]
    | _ => []

structure Feasible (c : RunContext) (site : Site) (a : Action) : Prop where
  tree : a.kind.isFileTree = true → ∀ destination ∈ a.destination,
    (∀ p ∈ ThemeCopy.lookups c.board.themes a destination, site.tree.Steady p) ∧
      FeasibleAt a site destination ∧
      ∀ copy ∈ ThemeCopy.ofAction c.board.themes site.tree a, FeasibleAt a site copy.path
  patch : a.kind = .modification → site.tree.Steady (patchFile a) ∧
    ∀ patch ∈ patchIn? site.tree a, patch.Feasible c.board site
  document : a.kind = .readme ∨ a.kind = .license → ∀ source ∈ a.source, site.tree.Steady source

section
variable {c : RunContext} {site : Site} {a : Action} {s : Cursor} {done : List Deed}

instance (c : RunContext) (site : Site) (a : Action) : Decidable (Feasible c site a) :=
  decidable_of_iff
    ((a.kind.isFileTree = true → ∀ destination ∈ a.destination,
        (∀ p ∈ ThemeCopy.lookups c.board.themes a destination, site.tree.Steady p) ∧
          FeasibleAt a site destination ∧
          ∀ copy ∈ ThemeCopy.ofAction c.board.themes site.tree a, FeasibleAt a site copy.path) ∧
      (a.kind = .modification → site.tree.Steady (patchFile a) ∧
        ∀ patch ∈ patchIn? site.tree a, patch.Feasible c.board site) ∧
      (a.kind = .readme ∨ a.kind = .license →
        ∀ source ∈ a.source, site.tree.Steady source))
    ⟨fun h => ⟨h.1, h.2.1, h.2.2⟩, fun h => ⟨h.tree, h.patch, h.document⟩⟩

theorem reached_runChmod (h : site.Reached done s.site) :
    site.Reached done (runChmod (c.withTesting false) a s).2.site := by
  unfold runChmod
  cases a.destination with
  | none => exact h
  | some p =>
    have htesting : (c.withTesting false).options.testing = false := rfl
    dsimp only
    rw [htesting, if_neg Bool.false_ne_true]
    split <;> exact h.makeWritable p

section
variable (hr : site.tree.Regular) (hk : site.tree.Keyed) (h : site.Reached done s.site)
  (hf : Feasible c site a)
include hr h hf

theorem reached_runTree (hk : site.tree.Keyed) (hkind : a.kind.isFileTree = true)
    (hs : (done ++ treeDeeds c site.tree a).Pairwise Deed.Spares) :
    TreeUndisturbed (c.withTesting false) site a s ∧
      site.Reached (done ++ treeDeeds c site.tree a)
        (runTree (c.withTesting false) a s).2.site := by
  unfold treeDeeds at hs ⊢
  unfold TreeUndisturbed runTree
  cases hd : a.destination with
  | none =>
    rw [List.append_nil]
    exact ⟨nofun, h⟩
  | some destination =>
    rw [hd] at hs
    dsimp only at hs ⊢
    obtain ⟨hsteady, hplace, hcopies⟩ := hf.tree hkind destination hd
    rw [← List.append_assoc] at hs ⊢
    obtain ⟨hfirst, hafter⟩ := reached_runAt (c := c) hr hk hkind h
      (hs.sublist (List.sublist_append_left ..)) hplace Theme.noCustom
    have hlooks (p : Path) (hp : p ∈ ThemeCopy.lookups c.board.themes a destination) :
        (runAt (c.withTesting false) a destination Theme.noCustom s).2.site.tree.view p =
          site.tree.view p :=
      view_of_looking hafter.left (fun d hd =>
        (List.pairwise_append.1 hs).2.2 d hd _ List.mem_cons_self) hr.closed hp (hsteady p hp)
    have hsame : ThemeCopy.ofAction c.board.themes
        (runAt (c.withTesting false) a destination Theme.noCustom s).2.site.tree a =
          ThemeCopy.ofAction c.board.themes site.tree a :=
      ThemeCopy.ofAction_of_view hd hlooks
    rw [← List.singleton_append, ← List.append_assoc] at hs ⊢
    obtain ⟨hrest, hlast⟩ := reached_runAll (c := c) hr hk hkind
      (hafter.mono fun d hd => List.mem_append_left _ hd) hs hcopies
    refine ⟨fun other ho => ?_, ?_⟩
    · obtain rfl := Option.some.inj ho
      exact ⟨hfirst, hlooks, hrest⟩
    · have hboard : (c.withTesting false).board = c.board := rfl
      rw [hboard, hsame]
      exact hlast

omit hr h hf in
theorem deeds_modification (hkind : a.kind = .modification) (t : Tree) :
    deeds c t a = .looking t [patchFile a] ::
      ((patchIn? t a).map (Patch.deeds c.board t)).getD [] := by
  unfold deeds
  rw [hkind]
  rfl

theorem view_patchFile (hkind : a.kind = .modification)
    (hs : (done ++ deeds c site.tree a).Pairwise Deed.Spares) :
    s.site.tree.view (patchFile a) = site.tree.view (patchFile a) := by
  rw [deeds_modification hkind] at hs
  exact view_of_looking h.left
    (fun d hd => (List.pairwise_append.1 hs).2.2 d hd _ List.mem_cons_self) hr.closed
    (List.mem_singleton_self _) (hf.patch hkind).1

theorem reached_runModification (hkind : a.kind = .modification)
    (hs : (done ++ deeds c site.tree a).Pairwise Deed.Spares) :
    PatchUndisturbed (c.withTesting false) site a s.site ∧
      site.Reached (done ++ deeds c site.tree a)
        (runModification (c.withTesting false) a s).2.site := by
  have hview := view_patchFile hr h hf hkind hs
  have hkept : site.Reached (done ++ deeds c site.tree a) s.site :=
    h.mono fun d hd => List.mem_append_left _ hd
  have htext := text?_ok_of_view hview
  cases ht : site.tree.text? (patchFile a) with
  | error e =>
    refine ⟨⟨hview, by simp [ht, Except.toOption]⟩, ?_⟩
    rw [runModification_unread fun raw hraw => by
      rw [htext, ht] at hraw
      cases hraw]
    exact hkept
  | ok raw =>
    have ht' := (htext raw).2 ht
    cases hp : patch? a raw with
    | error problem =>
      refine ⟨⟨hview, by simp [ht, hp, Except.toOption]⟩, ?_⟩
      rw [runModification_malformed ht' hp]
      exact hkept
    | ok patch =>
      have hin : patchIn? site.tree a = some patch := by
        simp [patchIn?, ht, hp, Except.toOption]
      rw [deeds_modification hkind, hin, Option.map_some, Option.getD_some,
        ← List.singleton_append, ← List.append_assoc] at hs ⊢
      have hfeasible := (hf.patch hkind).2 patch hin
      have hlooking : site.Reached (done ++ [.looking site.tree [patchFile a]]) s.site :=
        h.mono fun d hd => List.mem_append_left _ hd
      obtain ⟨hreached, hunrefused⟩ :=
        Patch.reached_applyTo hr.closed hlooking hs hfeasible a.reverse
      refine ⟨⟨hview, fun other ho patch' hp' => ?_⟩, ?_⟩
      · rw [ht] at ho
        obtain rfl := Option.some.inj ho
        rw [hp] at hp'
        obtain rfl := Option.some.inj hp'
        exact ⟨fun p => Patch.view_of_mem_looks hr.closed hlooking hs hfeasible,
          Patch.undisturbed_of_spared hr.closed hlooking hs hfeasible a.reverse,
          fun p hm => (hfeasible.files p hm).1, hunrefused⟩
      · obtain ⟨-, hsite, -⟩ := runModification_ok (c := c.withTesting false) ht' hp
        rw [hsite]
        exact hreached

theorem reached_runAction (hk : site.tree.Keyed) (actions : List Action) (index : Nat)
    (hs : (done ++ deeds c site.tree a).Pairwise Deed.Spares)
    (hh : a.kind = .requires →
      ∀ id ∈ requiredPackage? a, c.history s.site.tree id = c.history site.tree id) :
    ActionUndisturbed (c.withTesting false) site a s ∧
      site.Reached (done ++ deeds c site.tree a)
        (runAction (c.withTesting false) actions index a s).2.site := by
  have hkept {s' : Cursor} (hs' : s'.site = s.site) :
      site.Reached (done ++ deeds c site.tree a) s'.site :=
    hs' ▸ h.mono fun d hd => List.mem_append_left _ hd
  have htree (hkind : a.kind.isFileTree = true) : TreeUndisturbed (c.withTesting false) site a s ∧
      site.Reached (done ++ deeds c site.tree a) (runTree (c.withTesting false) a s).2.site := by
    unfold deeds at hs ⊢
    rw [if_pos hkind] at hs ⊢
    exact reached_runTree hr h hf hk hkind hs
  have hdocument (hkind : a.kind = .readme ∨ a.kind = .license) (source : Path)
      (hsource : source ∈ a.source) : s.site.tree.view source = site.tree.view source := by
    have hdeeds : deeds c site.tree a = [.looking site.tree a.source.toList] := by
      unfold deeds
      rcases hkind with hkind | hkind <;> (rw [hkind]; rfl)
    rw [hdeeds] at hs
    exact view_of_looking h.left (fun d hd =>
      (List.pairwise_append.1 hs).2.2 d hd _ List.mem_cons_self) hr.closed
      (Option.mem_toList.2 hsource) (hf.document hkind source hsource)
  refine ⟨⟨fun hkind => (htree ?_).1, fun hkind => (reached_runModification hr h hf hkind hs).1, hh,
    hdocument⟩, ?_⟩
  · revert hkind
    cases a.kind <;> simp [ActionKind.addsContent, ActionKind.isRemoval, ActionKind.isFileTree]
  · unfold runAction
    cases hkind : a.kind with
    | chmod => exact reached_runChmod (h.mono fun d hd => List.mem_append_left _ hd)
    | modification => exact (reached_runModification hr h hf hkind hs).2
    | requires | error => exact hkept rfl
    | readme | license => exact hkept (site_runDocument actions index)
    | code | database | hook | credits | redirect => exact hkept site_runDeferred
    | createFile | createDir | requireFile | requireDir | removeFile | removeDir | moveFile
      | moveDir => exact (htree (by rw [hkind]; rfl)).2

end

end

end Patchboard.Cursor
