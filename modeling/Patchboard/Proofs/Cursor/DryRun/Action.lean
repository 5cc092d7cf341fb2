import Patchboard.Cursor
import Patchboard.Proofs.Patch.DryRun.Dialect

set_option autoImplicit false

namespace Patchboard

def RunContext.withTesting (c : RunContext) (testing : Bool) : RunContext :=
  { c with options := { c.options with testing } }

namespace Cursor
open Tree

def anyFailure (results : List StepResult) : Bool := results.any StepResult.isFailure

def lookups (a : Action) (destination : Path) : List Path :=
  (if a.kind.takesSource then a.source.toList else []) ++
    if a.kind.isRemoval then [destination] else []

/-- An action at a place finds what it looks for as it is on the given site, and succeeds when it
is tried. -/
structure CarriedOut (a : Action) (destination : Path) (site s : Site) : Prop where
  looks : ∀ p ∈ lookups a destination, s.tree.view p = site.tree.view p
  succeeds : absent? a destination s.tree = none → (s.run (execute a destination)).1 = .ok ()

def AllCarriedOut (c : RunContext) (a : Action) (site : Site) : List ThemeCopy → Cursor → Prop
  | [], _ => True
  | place :: places, s =>
    CarriedOut a place.path site s.site ∧
      AllCarriedOut c a site places (runAt c a place.path place.theme s).2

/-- An action on the file tree is carried out, and so it is on the copies of its destination, which
are found as they are on the given site. -/
def TreeUndisturbed (c : RunContext) (site : Site) (a : Action) (s : Cursor) : Prop :=
  ∀ destination ∈ a.destination,
    CarriedOut a destination site s.site ∧
      let s' := (runAt c a destination Theme.noCustom s).2
      (∀ p ∈ ThemeCopy.lookups c.board.themes a destination,
          s'.site.tree.view p = site.tree.view p) ∧
        AllCarriedOut c a site (ThemeCopy.ofAction c.board.themes site.tree a) s'

/-- The patch that an action holds, when its file has been read. -/
def patch? (a : Action) (raw : String) : Except Problem Patch :=
  if a.isBoardmod then .ok (.stream raw)
  else
    match Document.parse raw with
    | .ok d => .ok (.modification d)
    | .error f => .error (.malformedPatch f.message)

def patchFile (a : Action) : Path := a.source.getD ⟨a.filename⟩

/-- A patch finds its files and their copies as they are on the given site and can write them there,
and nothing that it writes is refused. -/
structure PatchCarriedOut (b : Board) (undo : Bool) (patch : Patch) (site s : Site) : Prop where
  looks : ∀ p ∈ patch.looks b site.tree, s.tree.view p = site.tree.view p
  undisturbed : patch.Undisturbed b undo site s
  writable : ∀ path ∈ patch.paths b site.tree, site.isWritable path = true
  unrefused : (patch.applyTo b ⟨false, undo⟩ s).report.Unrefused

def PatchUndisturbed (c : RunContext) (site : Site) (a : Action) (s : Site) : Prop :=
  s.tree.view (patchFile a) = site.tree.view (patchFile a) ∧
    ∀ raw ∈ (site.tree.text? (patchFile a)).toOption, ∀ patch ∈ (patch? a raw).toOption,
      PatchCarriedOut c.board a.reverse patch site s

def requiredPackage? (a : Action) : Option String :=
  match a.detail with
  | .requires id _ => some id
  | _ => none

/-- An action of the real run finds what it looks for as it is on the given site, and what it tries
succeeds. -/
structure ActionUndisturbed (c : RunContext) (site : Site) (a : Action) (s : Cursor) : Prop where
  tree : (a.kind.addsContent || a.kind.isRemoval) = true → TreeUndisturbed c site a s
  patch : a.kind = .modification → PatchUndisturbed c site a s.site
  requirement : a.kind = .requires →
    ∀ id ∈ requiredPackage? a, c.history s.site.tree id = c.history site.tree id
  document : a.kind = .readme ∨ a.kind = .license →
    ∀ source ∈ a.source, s.site.tree.view source = site.tree.view source

section
variable {c : RunContext} {site : Site} {a : Action} {s s' : Cursor}

theorem runAt_testing (destination : Path) (theme : Nat) :
    (runAt (c.withTesting true) a destination theme s).2 = s := by
  unfold runAt
  dsimp only
  split
  · rfl
  · rfl

theorem isFailure_runAt_absent {destination p : Path}
    (h : absent? a destination s.site.tree = some p) (testing : Bool) (theme : Nat) :
    (runAt (c.withTesting testing) a destination theme s).1.isFailure = true := by
  unfold runAt
  rw [h]
  rfl

theorem isFailure_runAt_testing {destination : Path} (h : absent? a destination s.site.tree = none)
    (theme : Nat) :
    (runAt (c.withTesting true) a destination theme s).1.isFailure = false := by
  unfold runAt
  rw [h]
  rfl

theorem isFailure_runAt_real {destination : Path} (h : absent? a destination s.site.tree = none)
    (hr : (s.site.run (execute a destination)).1 = .ok ()) (theme : Nat) :
    (runAt (c.withTesting false) a destination theme s).1.isFailure = false := by
  unfold runAt
  rw [h]
  dsimp only
  split
  · rfl
  · rw [hr]
    rfl

theorem absent?_of_view {destination : Path} {t t' : Tree}
    (h : ∀ p ∈ lookups a destination, t.view p = t'.view p) :
    absent? a destination t = absent? a destination t' := by
  unfold lookups at h
  have hsource (hk : a.kind.takesSource = true) : sourcePresent a t = sourcePresent a t' := by
    unfold sourcePresent
    cases hs : a.source with
    | none => rfl
    | some source =>
      have hv := h source (List.mem_append_left _ (by simp [hk, hs]))
      rw [Option.any_some, Option.any_some, isDirectory_of_view hv, isFile_of_view hv]
  have hdestination (hk : a.kind.isRemoval = true) :
      t.pathExists destination = t'.pathExists destination :=
    pathExists_of_view (h destination (List.mem_append_right _ (by simp [hk])))
  unfold absent?
  cases hs : a.kind.takesSource <;> cases hr : a.kind.isRemoval <;>
    simp [hs, hr, hsource, hdestination]

theorem isFailure_runAt {destination : Path} (h : CarriedOut a destination site s.site)
    (hs : s'.site = site) (theme : Nat) :
    (runAt (c.withTesting true) a destination theme s').1.isFailure =
      (runAt (c.withTesting false) a destination theme s).1.isFailure := by
  have hlooks := absent?_of_view h.looks
  rw [← hs] at hlooks
  cases ha : absent? a destination s.site.tree with
  | some p =>
    rw [isFailure_runAt_absent ha, isFailure_runAt_absent (hlooks.symm.trans ha)]
  | none =>
    rw [isFailure_runAt_testing (hlooks.symm.trans ha), isFailure_runAt_real ha (h.succeeds ha)]

theorem runAll_testing (places : List ThemeCopy) :
    (runAll (c.withTesting true) a places s).2 = s := by
  induction places with
  | nil => rfl
  | cons place places ih =>
    unfold runAll
    dsimp only
    rw [runAt_testing, ih]

theorem anyFailure_runAll {places : List ThemeCopy}
    (h : AllCarriedOut (c.withTesting false) a site places s) (hs : s'.site = site) :
    anyFailure (runAll (c.withTesting true) a places s').1 =
      anyFailure (runAll (c.withTesting false) a places s).1 := by
  induction places generalizing s with
  | nil => rfl
  | cons place places ih =>
    obtain ⟨hp, hrest⟩ := h
    have hhead := isFailure_runAt (c := c) hp hs place.theme
    have htail := ih hrest
    unfold anyFailure at htail ⊢
    unfold runAll
    dsimp only
    rw [List.any_cons, List.any_cons, runAt_testing, hhead, htail]

theorem runTree_testing : (runTree (c.withTesting true) a s).2 = s := by
  unfold runTree
  split
  · rfl
  · dsimp only
    rw [runAt_testing, runAll_testing]

theorem anyFailure_runTree (h : TreeUndisturbed (c.withTesting false) site a s)
    (hs : s'.site = site) :
    anyFailure (runTree (c.withTesting true) a s').1 =
      anyFailure (runTree (c.withTesting false) a s).1 := by
  unfold runTree
  cases hd : a.destination with
  | none => rfl
  | some destination =>
    obtain ⟨hp, hcopies, hall⟩ := h destination hd
    have hhead := isFailure_runAt (c := c) hp hs Theme.noCustom
    have htail := anyFailure_runAll hall hs
    unfold anyFailure at htail ⊢
    have hboard (testing : Bool) : (c.withTesting testing).board = c.board := rfl
    rw [hboard] at hcopies hall htail
    have hsame := ThemeCopy.ofAction_of_view hd hcopies
    dsimp only
    rw [List.any_cons, List.any_cons, runAt_testing, hhead, hboard, hboard, hs, hsame, htail]

theorem runPatch_eq (raw : String) :
    runPatch c a raw s = (patch? a raw).map fun patch =>
      patch.applyTo c.board ⟨c.options.testing, a.reverse⟩ s.site := by
  unfold runPatch patch?
  split
  · rfl
  · cases Document.parse raw <;> rfl

theorem foldInto_withTesting (testing : Bool) (path : Path) (theme : Nat) (kind : EventKind)
    (folded : List Folded) :
    foldInto (c.withTesting testing) a path theme kind folded =
      foldInto c a path theme kind folded := by
  induction folded with
  | nil => rfl
  | cons f folded ih => rw [foldInto, foldInto, ih]

theorem foldEvents_withTesting (testing : Bool) (events : List Event) :
    foldEvents (c.withTesting testing) a events = foldEvents c a events := by
  have hfold (path : Path) (theme : Nat) (kind : EventKind) :
      foldInto (c.withTesting testing) a path theme kind = foldInto c a path theme kind := by
    funext folded
    exact foldInto_withTesting ..
  unfold foldEvents
  simp only [hfold]

def patchResults (c : RunContext) (a : Action) (report : Report) : List StepResult :=
  let folded := (foldEvents c a report.events).map fun f =>
    { f with result := settleMessage f.result }
  let results := report.events.filterMap (looseResult? a) ++ folded.map (·.result)
  if !report.everythingFound && !results.any StepResult.isFailure then
    results ++ [(result a .failed).withMessage "not every search was found"]
  else results

theorem patchResults_withTesting (testing : Bool) (report : Report) :
    patchResults (c.withTesting testing) a report = patchResults c a report := by
  unfold patchResults
  rw [foldEvents_withTesting]

theorem runModification_unread (ht : ∀ raw, s.site.tree.text? (patchFile a) ≠ .ok raw) :
    runModification c a s =
      ([(result a .missing).withProblem (.targetMissing (patchFile a))], s) := by
  unfold patchFile at ht ⊢
  unfold runModification
  dsimp only
  cases hr : s.site.tree.text? (a.source.getD ⟨a.filename⟩) with
  | error e => rfl
  | ok raw => exact absurd hr (ht raw)

theorem runModification_malformed {raw : String} {problem : Problem}
    (ht : s.site.tree.text? (patchFile a) = .ok raw) (hp : patch? a raw = .error problem) :
    runModification c a s = ([(result a .failed).withProblem problem], s) := by
  unfold patchFile at ht
  unfold runModification
  dsimp only
  rw [ht]
  dsimp only
  rw [runPatch_eq, hp]
  rfl

theorem runModification_ok {raw : String} {patch : Patch}
    (ht : s.site.tree.text? (patchFile a) = .ok raw) (hp : patch? a raw = .ok patch) :
    (runModification c a s).1 = patchResults c a
        (patch.applyTo c.board ⟨c.options.testing, a.reverse⟩ s.site).report ∧
      (runModification c a s).2.site =
        (patch.applyTo c.board ⟨c.options.testing, a.reverse⟩ s.site).site ∧
      (runModification c a s).2.files =
        ((foldEvents c a (patch.applyTo c.board ⟨c.options.testing, a.reverse⟩
          s.site).report.events).map fun f => { f with result := settleMessage f.result }).foldl
            (indexFolded a) s.files := by
  unfold patchFile at ht
  unfold runModification patchResults foldReport
  dsimp only
  rw [ht]
  dsimp only
  rw [runPatch_eq, hp]
  dsimp only [Except.map]
  split <;> exact ⟨rfl, rfl, rfl⟩

theorem anyFailure_runModification
    (h : PatchUndisturbed (c.withTesting false) site a s.site) (hs : s'.site = site) :
    anyFailure (runModification (c.withTesting true) a s').1 =
        anyFailure (runModification (c.withTesting false) a s).1 ∧
      (runModification (c.withTesting true) a s').2.site = site := by
  obtain ⟨hview, hpatch⟩ := h
  have htext := text?_ok_of_view hview
  rw [← hs] at htext hpatch
  cases ht : s'.site.tree.text? (patchFile a) with
  | error e =>
    have hunread : ∀ raw, s'.site.tree.text? (patchFile a) ≠ .ok raw := by simp [ht]
    have hunread' : ∀ raw, s.site.tree.text? (patchFile a) ≠ .ok raw := by
      intro raw hraw
      exact hunread raw ((htext raw).1 hraw)
    rw [runModification_unread hunread, runModification_unread hunread']
    exact ⟨rfl, hs⟩
  | ok raw =>
    have ht' := (htext raw).2 ht
    cases hp : patch? a raw with
    | error problem =>
      rw [runModification_malformed ht hp, runModification_malformed ht' hp]
      exact ⟨rfl, hs⟩
    | ok patch =>
      obtain ⟨hl, hu, hw, hr⟩ := hpatch raw (by rw [ht]; rfl) patch (by rw [hp]; rfl)
      have hon := Patch.applyTo_on (fun p hp => (hl p hp).symm) hu hw hr
      obtain ⟨hresults, hsite, -⟩ := runModification_ok (c := c.withTesting true) ht hp
      obtain ⟨hresults', -⟩ := runModification_ok (c := c.withTesting false) ht' hp
      have hreport := congrArg Progress.report hon
      have hsame := congrArg Progress.site hon
      refine ⟨?_, hsite.trans (hsame.trans hs)⟩
      rw [hresults, hresults', patchResults_withTesting, patchResults_withTesting]
      exact congrArg (fun report => anyFailure (patchResults c a report)) hreport

theorem runDocument_eq (actions : List Action) (index : Nat)
    (h : ∀ source ∈ a.source, s.site.tree.view source = site.tree.view source)
    (hs : s'.site = site) :
    (runDocument (c.withTesting true) actions index a s').1 =
        (runDocument (c.withTesting false) actions index a s).1 ∧
      (runDocument (c.withTesting true) actions index a s').2.site = site := by
  have hlanguage (testing : Bool) : (c.withTesting testing).options.language =
      c.options.language := rfl
  unfold runDocument
  rw [hlanguage, hlanguage]
  split
  · cases hsource : a.source with
    | none => exact ⟨rfl, hs⟩
    | some source =>
      dsimp only
      rw [hs, ← isFile_of_view (h source hsource)]
      split <;> exact ⟨rfl, hs⟩
  · exact ⟨rfl, hs⟩

theorem anyFailure_runChmod (testing : Bool) :
    anyFailure (runChmod (c.withTesting testing) a s).1 = false := by
  unfold runChmod
  split
  · rfl
  · dsimp only
    split
    · rfl
    · split <;> rfl

theorem runChmod_testing : (runChmod (c.withTesting true) a s).2.site = s.site := by
  unfold runChmod
  split <;> rfl

theorem runRequires_eq
    (h : ∀ id ∈ requiredPackage? a, c.history s.site.tree id = c.history site.tree id)
    (hs : s'.site = site) :
    runRequires (c.withTesting true) a s' = runRequires (c.withTesting false) a s := by
  have hhistory (testing : Bool) : (c.withTesting testing).history = c.history := rfl
  unfold requiredPackage? at h
  unfold runRequires
  rw [hhistory, hhistory, hs]
  cases hd : a.detail with
  | requires id version =>
    have hid := h id (by rw [hd]; rfl)
    dsimp only
    rw [hid]
  | _ => rfl

theorem runDeferred_eq (hs : s'.site = site) :
    (runDeferred (c.withTesting true) a s').1 = (runDeferred (c.withTesting false) a s).1 ∧
      (runDeferred (c.withTesting true) a s').2.site = site := by
  have hmode (testing : Bool) : (c.withTesting testing).options.mode = c.options.mode := rfl
  unfold runDeferred
  rw [hmode, hmode]
  split <;> exact ⟨rfl, hs⟩

theorem anyFailure_runAction (actions : List Action) (index : Nat)
    (h : ActionUndisturbed (c.withTesting false) site a s) (hs : s'.site = site) :
    anyFailure (runAction (c.withTesting true) actions index a s').1 =
        anyFailure (runAction (c.withTesting false) actions index a s).1 ∧
      (runAction (c.withTesting true) actions index a s').2.site = site := by
  have htree (hk : (a.kind.addsContent || a.kind.isRemoval) = true) :
      anyFailure (runTree (c.withTesting true) a s').1 =
          anyFailure (runTree (c.withTesting false) a s).1 ∧
        (runTree (c.withTesting true) a s').2.site = site :=
    ⟨anyFailure_runTree (h.tree hk) hs, by rw [runTree_testing, hs]⟩
  unfold runAction
  cases hk : a.kind with
  | chmod =>
    dsimp only
    exact ⟨by rw [anyFailure_runChmod, anyFailure_runChmod], by rw [runChmod_testing, hs]⟩
  | modification => exact anyFailure_runModification (h.patch hk) hs
  | requires =>
    have hr := runRequires_eq (c := c) (h.requirement hk) hs
    exact ⟨by dsimp only; rw [hr], hs⟩
  | readme =>
    obtain ⟨hd, hsite⟩ := runDocument_eq (c := c) actions index (h.document (.inl hk)) hs
    exact ⟨by dsimp only [single]; rw [hd], hsite⟩
  | license =>
    obtain ⟨hd, hsite⟩ := runDocument_eq (c := c) actions index (h.document (.inr hk)) hs
    exact ⟨by dsimp only [single]; rw [hd], hsite⟩
  | error => exact ⟨rfl, hs⟩
  | code | database | hook | credits | redirect =>
    obtain ⟨hd, hsite⟩ := runDeferred_eq (c := c) (a := a) (s := s) hs
    exact ⟨by dsimp only [single]; rw [hd], hsite⟩
  | createFile | createDir | requireFile | requireDir | removeFile | removeDir | moveFile
    | moveDir => exact htree (by rw [hk]; rfl)

end

end Cursor

end Patchboard
