import Patchboard.Proofs.Cursor.DryRun.Action
import Patchboard.Proofs.Cursor.Walk
import Patchboard.Proofs.Patch.Twins

set_option autoImplicit false

namespace Patchboard
open Tree

variable {r : Reserve} {base : Tree} {Q : Tree → Tree → Prop}

namespace ThemeCopy

/-- The places that an action is carried over to when they are there. -/
def considered (themes : List Theme) (a : Action) : List ThemeCopy :=
  if !(a.kind.isRequire || a.kind.isRemoval) then []
  else
    match a.destination, Theme.default? themes with
    | some destination, some main =>
      if (destination.stripPrefix? main.directory).isSome && carriesOver main a destination then
        candidates themes destination
      else []
    | _, _ => []

theorem ofAction_eq (themes : List Theme) (t : Tree) (a : Action) :
    ofAction themes t a = (considered themes a).filter (isTarget a t) := by
  unfold ofAction considered
  split
  · rfl
  · cases a.destination with
    | none => rfl
    | some destination =>
      cases Theme.default? themes with
      | none => rfl
      | some main =>
        dsimp only
        split <;> rfl

theorem ofAction_of_seen (h : Blind r base Q) {t u : Tree} (hq : Q t u) {themes : List Theme}
    {a : Action} (hp : ∀ copy ∈ considered themes a, Seen r base copy.path) :
    ofAction themes u a = ofAction themes t a := by
  rw [ofAction_eq, ofAction_eq]
  refine List.filter_congr fun copy hc => ?_
  unfold isTarget
  split
  · cases hparent : copy.path.parent? with
    | none => rfl
    | some parent => exact h.isDirectory hq (seen_of_parent (hp copy hc) hparent)
  · exact h.pathExists hq (hp copy hc)

end ThemeCopy

namespace Cursor

def patchOf? (a : Action) (t : Tree) : Option Patch :=
  if a.kind = .modification then
    (t.text? (patchFile a)).toOption.bind fun raw => (patch? a raw).toOption
  else none

/-- What an action only looks for: the file of its patch, and the files that the patch may name. -/
def looks (c : RunContext) (a : Action) (t : Tree) : List Path :=
  if a.kind = .modification then
    patchFile a :: (patchOf? a t).toList.flatMap (Patch.looks c.board t)
  else []

/-- What an action works on: its source and destination, the copies of the destination in custom
themes, and the files of its patch. -/
def works (c : RunContext) (a : Action) (t : Tree) : List Path :=
  a.source.toList ++ a.destination.toList ++
    (ThemeCopy.considered c.board.themes a).map ThemeCopy.path ++
    (patchOf? a t).toList.flatMap (Patch.paths c.board t)

/-- An action looks for nothing that is hidden and works on nothing that is reserved. -/
structure Spares (r : Reserve) (base : Tree) (c : RunContext) (a : Action) (t : Tree) :
    Prop where
  looks : ∀ p ∈ looks c a t, Seen r base p
  works : ∀ p ∈ works c a t, Clear r base p

/-- Every one of the next actions does so when it is carried out. -/
def AllSpare (r : Reserve) (base : Tree) (c : RunContext) (actions : List Action) :
    Nat → Cursor → Prop
  | 0, _ => True
  | n + 1, s =>
    ∀ a ∈ actions[s.position]?,
      Spares r base c a s.site.tree ∧ AllSpare r base c actions n (next c actions s).2

instance (r : Reserve) (base : Tree) (c : RunContext) (a : Action) (t : Tree) :
    Decidable (Spares r base c a t) :=
  decidable_of_iff
    ((∀ p ∈ Cursor.looks c a t, Seen r base p) ∧ ∀ p ∈ Cursor.works c a t, Clear r base p)
    ⟨fun h => ⟨h.1, h.2⟩, fun h => ⟨h.looks, h.works⟩⟩

instance decidableAllSpare (r : Reserve) (base : Tree) (c : RunContext) (actions : List Action) :
    (n : Nat) → (s : Cursor) → Decidable (AllSpare r base c actions n s)
  | 0, _ => .isTrue trivial
  | n + 1, s =>
    have := decidableAllSpare r base c actions n (next c actions s).2
    inferInstanceAs (Decidable (∀ a ∈ actions[s.position]?,
      Spares r base c a s.site.tree ∧ AllSpare r base c actions n (next c actions s).2))

def on (s : Cursor) (site : Site) : Cursor := { s with site }

def Twin (Q : Tree → Tree → Prop) (s s' : Cursor) : Prop :=
  ∃ site, s.site.Twin Q site ∧ s' = s.on site

variable (h : Blind r base Q) {c : RunContext} {a : Action} {s s' : Cursor}

theorem Twin.site (ht : s.Twin Q s') : s.site.Twin Q s'.site := by
  obtain ⟨site, hs, rfl⟩ := ht
  exact hs

theorem Twin.position (ht : s.Twin Q s') : s'.position = s.position := by
  obtain ⟨site, -, rfl⟩ := ht
  rfl

section
variable {destination : Path}
include h

theorem alike_execute (hs : ∀ source ∈ a.source, Clear r base source)
    (hd : Clear r base destination) : Alike Q (execute a destination) := by
  have hsource : Clear r base (a.source.getD destination) := by
    cases hsource : a.source with
    | none => exact hd
    | some source => exact hs source hsource
  have hcreate : Alike Q (createFile destination) := by
    refine .get_bind fun t u hq => ?_
    rw [h.pathExists hq hd.seen]
    split
    · exact ⟨rfl, hq⟩
    · exact alike_write h hd.seen "" t u hq
  unfold execute
  dsimp only
  split
  · exact hcreate
  · exact alike_ofAction (alike_makeDirectories h hd.seen)
  · exact alike_fileTree_copyFile h hsource.seen hd.seen
  · exact alike_copyDirectory h hsource hd
  · exact alike_move h hsource hd
  · exact alike_move h hsource hd
  · exact alike_remove h hd
  · exact alike_remove h hd
  · exact alike_fail _

theorem twin_runAt (hs : ∀ source ∈ a.source, Clear r base source)
    (hd : Clear r base destination) (theme : Nat) (ht : s.Twin Q s') :
    (runAt c a destination theme s').1 = (runAt c a destination theme s).1 ∧
      (runAt c a destination theme s).2.Twin Q (runAt c a destination theme s').2 := by
  obtain ⟨site, hsite, rfl⟩ := ht
  have habsent : absent? a destination site.tree = absent? a destination s.site.tree := by
    refine (absent?_of_view fun p hp => (h.view hsite.tree ?_).symm).symm
    rcases List.mem_append.1 hp with hp | hp
    · split at hp
      · exact (hs p (by simpa using hp)).seen
      · cases hp
    · split at hp
      · exact List.mem_singleton.1 hp ▸ hd.seen
      · cases hp
  obtain ⟨hresult, hrun⟩ := hsite.run (alike_execute h hs hd)
  have hon : (s.on site).site = site := rfl
  unfold runAt
  rw [hon, habsent]
  dsimp only
  split
  · exact ⟨rfl, site, hsite, rfl⟩
  · split
    · exact ⟨rfl, site, hsite, rfl⟩
    · rw [hresult]
      split
      · exact ⟨rfl, _, hrun, rfl⟩
      · exact ⟨rfl, _, hrun, rfl⟩

theorem twin_runAll (hs : ∀ source ∈ a.source, Clear r base source) {places : List ThemeCopy}
    (hp : ∀ place ∈ places, Clear r base place.path) (ht : s.Twin Q s') :
    (runAll c a places s').1 = (runAll c a places s).1 ∧
      (runAll c a places s).2.Twin Q (runAll c a places s').2 := by
  induction places generalizing s s' with
  | nil => exact ⟨rfl, ht⟩
  | cons place places ih =>
    obtain ⟨hresult, hfirst⟩ :=
      twin_runAt h (c := c) hs (hp place (List.mem_cons_self ..)) place.theme ht
    obtain ⟨hresults, hrest⟩ :=
      ih (fun other ho => hp other (List.mem_cons_of_mem _ ho)) hfirst
    unfold runAll
    dsimp only
    rw [hresult, hresults]
    exact ⟨rfl, hrest⟩

theorem twin_runTree {t : Tree} (hp : ∀ p ∈ works c a t, Clear r base p) (ht : s.Twin Q s') :
    (runTree c a s').1 = (runTree c a s).1 ∧ (runTree c a s).2.Twin Q (runTree c a s').2 := by
  have hsource : ∀ source ∈ a.source, Clear r base source := fun source hs =>
    hp source (by simp [works, Option.mem_def.1 hs])
  have hcopy : ∀ copy ∈ ThemeCopy.considered c.board.themes a, Clear r base copy.path :=
    fun copy hc => hp copy.path (by
      unfold works
      exact List.mem_append_left _ (List.mem_append_right _ (List.mem_map_of_mem hc)))
  unfold runTree
  cases hd : a.destination with
  | none => exact ⟨rfl, ht⟩
  | some destination =>
    have hdestination : Clear r base destination := hp destination (by simp [works, hd])
    obtain ⟨hresult, hfirst⟩ := twin_runAt h (c := c) hsource hdestination Theme.noCustom ht
    dsimp only
    rw [hresult, ThemeCopy.ofAction_of_seen h hfirst.site.tree fun copy hc => (hcopy copy hc).seen]
    have hplaces : ∀ copy ∈ ThemeCopy.ofAction c.board.themes
        (runAt c a destination Theme.noCustom s).2.site.tree a, Clear r base copy.path := by
      intro copy hc
      rw [ThemeCopy.ofAction_eq] at hc
      exact hcopy copy (List.mem_filter.1 hc).1
    obtain ⟨hresults, hrest⟩ := twin_runAll h (c := c) hsource hplaces hfirst
    rw [hresults]
    exact ⟨rfl, hrest⟩

theorem twin_runChmod (hp : ∀ p ∈ a.destination, Seen r base p) (ht : s.Twin Q s') :
    (runChmod c a s').1 = (runChmod c a s).1 ∧ (runChmod c a s).2.Twin Q (runChmod c a s').2 := by
  obtain ⟨site, hsite, rfl⟩ := ht
  unfold runChmod
  cases hd : a.destination with
  | none => exact ⟨rfl, site, hsite, rfl⟩
  | some p =>
    obtain ⟨hok, hmade⟩ := hsite.makeWritable h (hp p hd)
    have hon : (s.on site).site = site := rfl
    dsimp only
    rw [hon, hok]
    split
    · exact ⟨rfl, site, hsite, rfl⟩
    · split
      · exact ⟨rfl, _, hmade, rfl⟩
      · exact ⟨rfl, _, hmade, rfl⟩

theorem twin_runModification (hk : a.kind = .modification)
    (hs : Spares r base c a s.site.tree) (ht : s.Twin Q s') :
    (runModification c a s').1 = (runModification c a s).1 ∧
      (runModification c a s).2.Twin Q (runModification c a s').2 := by
  obtain ⟨site, hsite, rfl⟩ := ht
  have htext : site.tree.text? (patchFile a) = s.site.tree.text? (patchFile a) :=
    h.text? hsite.tree (hs.looks _ (by simp [looks, hk]))
  have hpatch (raw : String) (hr : s.site.tree.text? (patchFile a) = .ok raw) (patch : Patch)
      (hpatch : patch? a raw = .ok patch) :
      (patch.applyTo c.board ⟨c.options.testing, a.reverse⟩ s.site).Twin Q
        (patch.applyTo c.board ⟨c.options.testing, a.reverse⟩ site) := by
    have hof : patchOf? a s.site.tree = some patch := by
      rw [patchOf?, if_pos hk, hr]
      dsimp only [Except.toOption, Option.bind_some]
      rw [hpatch]
    refine Patch.twin_applyTo h (fun p hp => hs.looks p ?_) (fun p hp => hs.works p ?_) _ hsite
    · rw [looks, if_pos hk, hof]
      exact List.mem_cons_of_mem _ (by simpa using hp)
    · rw [works, hof]
      exact List.mem_append_right _ (by simpa using hp)
  have hon : (s.on site).site = site := rfl
  unfold patchFile at htext hpatch
  unfold runModification
  dsimp only
  rw [hon, htext]
  cases hr : s.site.tree.text? (a.source.getD ⟨a.filename⟩) with
  | error e => exact ⟨rfl, site, hsite, rfl⟩
  | ok raw =>
    dsimp only
    rw [runPatch_eq, runPatch_eq]
    cases hp : patch? a raw with
    | error problem => exact ⟨rfl, site, hsite, rfl⟩
    | ok patch =>
      obtain ⟨hprogress, hreport⟩ := hpatch raw hr patch hp
      dsimp only [Except.map]
      rw [hon, hreport]
      unfold foldReport
      dsimp only
      split
      · exact ⟨rfl, _, hprogress, rfl⟩
      · exact ⟨rfl, _, hprogress, rfl⟩

theorem twin_runDocument (actions : List Action) (index : Nat)
    (hp : ∀ source ∈ a.source, Seen r base source) (ht : s.Twin Q s') :
    (runDocument c actions index a s').1 = (runDocument c actions index a s).1 ∧
      (runDocument c actions index a s).2.Twin Q (runDocument c actions index a s').2 := by
  obtain ⟨site, hsite, rfl⟩ := ht
  have hon : (s.on site).site = site := rfl
  unfold runDocument
  split
  · cases hsource : a.source with
    | none => exact ⟨rfl, site, hsite, rfl⟩
    | some source =>
      dsimp only
      rw [hon, h.isFile hsite.tree (hp source hsource)]
      split
      · exact ⟨rfl, site, hsite, rfl⟩
      · exact ⟨rfl, site, hsite, rfl⟩
  · exact ⟨rfl, site, hsite, rfl⟩

end

theorem twin_runDeferred (ht : s.Twin Q s') :
    (runDeferred c a s').1 = (runDeferred c a s).1 ∧
      (runDeferred c a s).2.Twin Q (runDeferred c a s').2 := by
  obtain ⟨site, hsite, rfl⟩ := ht
  unfold runDeferred
  split
  · exact ⟨rfl, site, hsite, rfl⟩
  · exact ⟨rfl, site, hsite, rfl⟩

theorem twin_single {x y : StepResult × Cursor} (ht : y.1 = x.1 ∧ x.2.Twin Q y.2) :
    (single y).1 = (single x).1 ∧ (single x).2.Twin Q (single y).2 :=
  ⟨congrArg (fun result => [result]) ht.1, ht.2⟩

section
variable (hh : ∀ {t u}, Q t u → c.history u = c.history t)
include h hh

theorem twin_runAction (actions : List Action) (index : Nat)
    (hs : Spares r base c a s.site.tree) (ht : s.Twin Q s') :
    (runAction c actions index a s').1 = (runAction c actions index a s).1 ∧
      (runAction c actions index a s).2.Twin Q (runAction c actions index a s').2 := by
  have hsource : ∀ source ∈ a.source, Seen r base source := fun source hm =>
    (hs.works source (by simp [works, Option.mem_def.1 hm])).seen
  have hdestination : ∀ p ∈ a.destination, Seen r base p := fun p hm =>
    (hs.works p (by simp [works, Option.mem_def.1 hm])).seen
  unfold runAction
  cases hk : a.kind with
  | chmod => exact twin_runChmod h hdestination ht
  | modification => exact twin_runModification h hk hs ht
  | requires =>
    have hresult : runRequires c a s' = runRequires c a s := by
      unfold runRequires
      rw [hh ht.site.tree]
    exact ⟨by dsimp only; rw [hresult], ht⟩
  | readme | license => exact twin_single (twin_runDocument h actions index hsource ht)
  | error => exact ⟨rfl, ht⟩
  | code | database | hook | credits | redirect => exact twin_single (twin_runDeferred ht)
  | createFile | createDir | requireFile | requireDir | removeFile | removeDir | moveFile
    | moveDir => exact twin_runTree h hs.works ht

theorem twin_next {actions : List Action}
    (hs : ∀ a ∈ actions[s.position]?, Spares r base c a s.site.tree) (ht : s.Twin Q s') :
    (next c actions s').1 = (next c actions s).1 ∧
      (next c actions s).2.Twin Q (next c actions s').2 := by
  have hposition := ht.position
  cases ha : actions[s.position]? with
  | none =>
    rw [next_none ha, next_none (by rw [hposition, ha])]
    exact ⟨rfl, ht⟩
  | some a =>
    have hmoved : Twin Q { s with position := s.position + 1 }
        { s' with position := s.position + 1 } := by
      obtain ⟨site, hsite, rfl⟩ := ht
      exact ⟨site, hsite, rfl⟩
    have hspares : Spares r base c a
        ({ s with position := s.position + 1 } : Cursor).site.tree := hs a ha
    obtain ⟨hresults, site, hsite, hleft⟩ :=
      twin_runAction h hh actions s.position hspares hmoved
    rw [next_some actions ha, next_some actions (by rw [hposition, ha])]
    dsimp only
    rw [hposition, hresults, hleft]
    exact ⟨rfl, site, hsite, rfl⟩

end

end Cursor

end Patchboard
