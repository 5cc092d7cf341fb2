import Patchboard.Proofs.Cursor.Themes
import Patchboard.Proofs.Tree.Framing

set_option autoImplicit false

namespace Patchboard
open Tree

namespace Cursor

variable {c : RunContext} {a : Action} {s : Cursor} {base t : Tree} {p : Path}

/-- Where a tree action is carried out: at its destination, and at the copies that are looked up
after that. -/
def sites (c : RunContext) (a : Action) (s : Cursor) : List ThemeCopy :=
  match a.destination with
  | none => []
  | some destination =>
    ⟨Theme.noCustom, destination⟩ ::
      ThemeCopy.ofAction c.board.themes (runAt c a destination Theme.noCustom s).2.site.tree a

def filed (a : Action) (places : List ThemeCopy) (results : List StepResult) : List FileResult :=
  (places.zip results).map fun x => ⟨a, x.1.path, x.2⟩

/-- The targets of a tree action with their results. -/
def targets (c : RunContext) (a : Action) (s : Cursor) : List FileResult :=
  filed a (sites c a s) (runTree c a s).1

theorem filed_runAll_cons (place : ThemeCopy) (places : List ThemeCopy) :
    filed a (place :: places) (runAll c a (place :: places) s).1 =
      ⟨a, place.path, (runAt c a place.path place.theme s).1⟩ ::
        filed a places (runAll c a places (runAt c a place.path place.theme s).2).1 := rfl

theorem runTree_eq_runAll {destination : Path} (hd : a.destination = some destination) :
    runTree c a s = runAll c a (sites c a s) s := by
  unfold runTree sites
  rw [hd]
  rfl

theorem results_targets {destination : Path} (hd : a.destination = some destination) :
    (targets c a s).map (·.result) = (runTree c a s).1 := by
  unfold targets filed
  rw [runTree_eq_runAll hd, List.map_map]
  exact List.map_snd_zip (Nat.le_of_eq (length_runAll _))

theorem paths_targets {destination : Path} (hd : a.destination = some destination) :
    (targets c a s).map (·.path) = (sites c a s).map (·.path) := by
  have hlength : (sites c a s).length ≤ (runTree c a s).1.length := by
    rw [runTree_eq_runAll hd, length_runAll]
  have hfirst : ((sites c a s).zip (runTree c a s).1).map (·.1) = sites c a s :=
    List.map_fst_zip hlength
  unfold targets filed
  rw [List.map_map]
  refine Eq.trans ?_ (congrArg (List.map (·.path)) hfirst)
  rw [List.map_map]
  rfl

theorem runAt_cases (ht : c.options.testing = false) (theme : Nat) (s : Cursor) (p : Path) :
    ((runAt c a p theme s).1.status = .missing ∧ (runAt c a p theme s).2 = s) ∨
      (absent? a p s.site.tree = none ∧ (runAt c a p theme s).1.status ≠ .missing ∧
        (runAt c a p theme s).2.site.tree = ((execute a p).run.run s.site.tree).2 ∧
        ((runAt c a p theme s).1.status = .saved ↔
          ((execute a p).run.run s.site.tree).1 = .ok ())) := by
  unfold runAt
  dsimp only
  cases habsent : absent? a p s.site.tree with
  | some q => exact .inl ⟨rfl, rfl⟩
  | none =>
    right
    rw [ht, if_neg Bool.false_ne_true]
    unfold Site.run
    dsimp only
    rcases (execute a p).run.run s.site.tree with ⟨result, tree⟩
    cases result with
    | error f => exact ⟨rfl, nofun, rfl, nofun, nofun⟩
    | ok u => exact ⟨rfl, nofun, rfl, fun _ => rfl, fun _ => rfl⟩

/-- What an action may change at a target: what is at or below it and, for a move, at or below the
source. -/
def Reaches (a : Action) (t : Tree) (p : Path) (place : Place) : Prop :=
  t.lexicalPlace p <+: place ∨
    (a.kind = .moveFile ∨ a.kind = .moveDir) ∧
      ∃ source ∈ a.source, t.lexicalPlace source <+: place

theorem reaches_of_require {place : Place} (hk : a.kind.isRequire = true) :
    Reaches a t p place ↔ t.lexicalPlace p <+: place := by
  refine ⟨fun h => h.resolve_right ?_, Or.inl⟩
  rintro ⟨hmove | hmove, -⟩ <;> (rw [hmove] at hk; cases hk)

theorem confines_execute (hk : a.kind.isFileTree = true) (hr : a.kind ≠ .requireDir) (p : Path) :
    Confines base (Reaches a base p) (base.way p) (execute a p) := by
  have htarget : ∀ place, base.lexicalPlace p <+: place → Reaches a base p place :=
    fun _ => Or.inl
  have hself : Reaches a base p (base.lexicalPlace p) := htarget _ List.prefix_rfl
  have hmove (h : a.kind = .moveFile ∨ a.kind = .moveDir) :
      Confines base (Reaches a base p) (base.way p) (FileTree.move (a.source.getD p) p) := by
    refine confines_move (fun place hp => ?_) htarget
    cases hsource : a.source with
    | none =>
      rw [hsource] at hp
      exact htarget place hp
    | some source =>
      rw [hsource] at hp
      exact .inr ⟨h, source, hsource, hp⟩
  unfold execute
  cases hkind : a.kind with
  | createFile =>
    unfold createFile
    intro t hw
    rw [run_bind, run_get]
    dsimp only
    split
    · exact .refl t
    · exact confines_write hself "" t hw
  | createDir => exact follows_ofAction (confines_makeDirectories p)
  | requireFile =>
    exact (confines_parents p).bind fun _ =>
      follows_doing (follows_ofAction (confines_copyFile hself _)) _
  | requireDir => exact absurd hkind hr
  | moveFile => exact hmove (.inl hkind)
  | moveDir => exact hmove (.inr hkind)
  | removeFile | removeDir => exact confines_remove htarget
  | modification | code | database | hook | credits | requires | readme | license | redirect
  | error | chmod =>
    rw [hkind] at hk
    cases hk

theorem frames_execute (hk : a.kind.isRequire = true) (p : Path) :
    Follows (Frames base (Reaches a base p) (base.way p)) (execute a p) := by
  have hframes {job : Job Unit}
      (h : Follows (Frames base (base.lexicalPlace p <+: ·) (base.way p)) job) :
      Follows (Frames base (Reaches a base p) (base.way p)) job := by
    intro t hw hr
    obtain ⟨hconfined, hregular⟩ := h t hw hr
    exact ⟨hconfined.mono (fun _ => Or.inl) fun _ => .inr, hregular⟩
  unfold execute
  cases hkind : a.kind with
  | requireFile => exact hframes (frames_copyFile List.prefix_rfl _)
  | requireDir => exact hframes (frames_copyDirectoryFrom _ _ p)
  | createFile | createDir | moveFile | moveDir | removeFile | removeDir | modification | code
  | database | hook | credits | requires | readme | license | redirect | error | chmod =>
    rw [hkind] at hk
    cases hk

theorem outgrown_execute (hk : a.kind.isRequire = true) (p : Path) :
    Follows Outgrown (execute a p) := by
  have hparents : Follows Outgrown (FileTree.ensureParent p) := by
    unfold FileTree.ensureParent
    split
    · exact outgrown_ensureDirectory _
    · exact .pure lasting_outgrown _
  unfold execute
  cases hkind : a.kind with
  | requireFile =>
    exact .bind lasting_outgrown hparents fun _ =>
      follows_doing (follows_ofAction fun t => ⟨_, grown_copyFile _ p t⟩) _
  | requireDir => exact outgrown_copyDirectory _ p
  | createFile | createDir | moveFile | moveDir | removeFile | removeDir | modification | code
  | database | hook | credits | requires | readme | license | redirect | error | chmod =>
    rw [hkind] at hk
    cases hk

def ConfinedTo (live : FileResult → Bool) (a : Action) (base : Tree) (files : List FileResult)
    (t t' : Tree) : Prop :=
  Confined (fun place => ∃ f ∈ files, live f = true ∧ Reaches a base f.path place)
    ((files.filter live).flatMap fun f => base.way f.path) t t'

section
variable {live : FileResult → Bool} {files files' : List FileResult} {t' t'' : Tree}

theorem ConfinedTo.mono (h : ConfinedTo live a base files t t') (hs : files ⊆ files') :
    ConfinedTo live a base files' t t' := by
  refine Confined.mono h ?_ fun place hm => .inr ?_
  · rintro place ⟨f, hf, hreached⟩
    exact ⟨f, hs hf, hreached⟩
  · obtain ⟨f, hf, hway⟩ := List.mem_flatMap.1 hm
    obtain ⟨hf, hlive⟩ := List.mem_filter.1 hf
    exact List.mem_flatMap.2 ⟨f, List.mem_filter.2 ⟨hs hf, hlive⟩, hway⟩

theorem ConfinedTo.refl : ConfinedTo live a base files t t := Confined.refl t

theorem ConfinedTo.trans (h : ConfinedTo live a base files t t')
    (h' : ConfinedTo live a base files t' t'') : ConfinedTo live a base files t t'' :=
  Confined.trans h h'

theorem ConfinedTo.single {f : FileResult} (hf : live f = true)
    (h : Confined (Reaches a base f.path) (base.way f.path) t t') :
    ConfinedTo live a base [f] t t' := by
  refine Confined.mono h (fun place hp => ⟨f, List.mem_singleton_self f, hf, hp⟩)
    fun place hm => .inr ?_
  simpa [List.filter_singleton, hf] using hm

theorem ConfinedTo.outside (h : ConfinedTo live a t files t t') {place : Place}
    (hp : ∀ f ∈ files, live f = true → ¬Reaches a t f.path place) : t'.at? place = t.at? place ∨
      (∃ f ∈ files, live f = true ∧ t.NewOnWay f.path place) ∧
        t'.at? place = some (.directory modeOfNewDirectory) := by
  have hnot : ¬∃ f ∈ files, live f = true ∧ Reaches a t f.path place := by
    rintro ⟨f, hf, hlive, hreached⟩
    exact hp f hf hlive hreached
  refine (Confined.outside h place hnot).imp_right fun ⟨hway, hnone, hnew⟩ => ⟨?_, hnew⟩
  obtain ⟨f, hf, hway⟩ := List.mem_flatMap.1 hway
  obtain ⟨hf, hlive⟩ := List.mem_filter.1 hf
  exact ⟨f, hf, hlive, hway, hnone⟩

/-- What holds of every single run holds of all of them. From one run to the next, the tree stays
one of which that can be said. -/
theorem confinedTo_runAll {P : Tree → Prop}
    (hstep : ∀ (theme : Nat) (s : Cursor) (p : Path), s.site.tree.working = base.working →
      P s.site.tree → ConfinedTo live a base [⟨a, p, (runAt c a p theme s).1⟩] s.site.tree
        (runAt c a p theme s).2.site.tree)
    {places : List ThemeCopy}
    (hkeep : 1 < places.length → ∀ (theme : Nat) (s : Cursor) (p : Path),
      s.site.tree.working = base.working → P s.site.tree →
        P (runAt c a p theme s).2.site.tree)
    (hw : s.site.tree.working = base.working) (hp : places ≠ [] → P s.site.tree) :
    ConfinedTo live a base (filed a places (runAll c a places s).1) s.site.tree
      (runAll c a places s).2.site.tree := by
  induction places generalizing s with
  | nil => exact .refl
  | cons place places ih =>
    have hfirst := hstep place.theme s place.path hw (hp (by simp))
    have hrest := ih (s := (runAt c a place.path place.theme s).2)
      (fun hlen => hkeep (Nat.lt_succ_of_lt hlen)) ((Confined.working hfirst).trans hw)
      fun hne => hkeep (Nat.succ_lt_succ (List.length_pos_of_ne_nil hne)) _ s _ hw (hp (by simp))
    rw [filed_runAll_cons]
    refine (hfirst.mono ?_).trans (hrest.mono ?_)
    · exact List.cons_subset.2 ⟨List.mem_cons_self, List.nil_subset _⟩
    · exact List.subset_cons_self ..

end

/-- The action was tried at a target. -/
def tried (f : FileResult) : Bool := f.result.status ≠ .missing

theorem confinedTo_runAt (ht : c.options.testing = false) (theme : Nat)
    (h : Confined (Reaches a base p) (base.way p) s.site.tree
      ((execute a p).run.run s.site.tree).2) :
    ConfinedTo tried a base [⟨a, p, (runAt c a p theme s).1⟩] s.site.tree
      (runAt c a p theme s).2.site.tree := by
  rcases runAt_cases (a := a) ht theme s p with ⟨-, hsame⟩ | ⟨-, hstatus, htree, -⟩
  · rw [hsame]
    exact .refl
  · rw [htree]
    exact .single (decide_eq_true hstatus) h

structure Grows (t u : Tree) : Prop where
  regular : u.Regular
  outgrown : Outgrown t u

theorem grows_runAt (ht : c.options.testing = false) (hk : a.kind.isRequire = true) (theme : Nat)
    (s : Cursor) (p : Path) (h : Grows t s.site.tree) :
    Grows t (runAt c a p theme s).2.site.tree := by
  rcases runAt_cases (a := a) ht theme s p with ⟨-, hsame⟩ | ⟨-, -, htree, -⟩
  · rw [hsame]
    exact h
  · rw [htree]
    refine ⟨?_, lasting_outgrown.trans h.outgrown (outgrown_execute hk p s.site.tree)⟩
    exact (frames_execute hk p s.site.tree rfl h.regular).2

theorem confinedTo_require (ht : c.options.testing = false) (hk : a.kind.isRequire = true)
    {places : List ThemeCopy} (hw : s.site.tree.working = base.working) (hg : Grows base s.site.tree) :
    ConfinedTo tried a base (filed a places (runAll c a places s).1) s.site.tree
      (runAll c a places s).2.site.tree := by
  refine confinedTo_runAll (P := Grows base) (fun theme s p hw hg => ?_)
    (fun _ theme s p _ hg => grows_runAt ht hk theme s p hg) hw fun _ => hg
  exact confinedTo_runAt ht theme (frames_execute hk p s.site.tree hw hg.regular).1

theorem confinedTo_runTree (ht : c.options.testing = false) (hk : a.kind.isFileTree = true)
    (hr : s.site.tree.Regular) :
    ConfinedTo tried a s.site.tree (targets c a s) s.site.tree (runTree c a s).2.site.tree := by
  cases hd : a.destination with
  | none =>
    unfold runTree
    rw [hd]
    exact .refl
  | some destination =>
    unfold targets
    rw [runTree_eq_runAll hd]
    by_cases hrequire : a.kind.isRequire = true
    · exact confinedTo_require ht hrequire rfl ⟨hr, lasting_outgrown.refl _⟩
    · refine confinedTo_runAll (P := fun _ => True) (fun theme s p hw _ => ?_)
        (fun _ _ _ _ _ _ => trivial) rfl fun _ => trivial
      have hdir : a.kind ≠ .requireDir := fun h => hrequire (by rw [h]; rfl)
      exact confinedTo_runAt ht theme (confines_execute hk hdir p s.site.tree hw)

theorem sourcePresent_of_present (hk : a.kind.takesSource = true) (h : absent? a p t = none) :
    sourcePresent a t = true := by
  unfold absent? at h
  cases hpresent : sourcePresent a t with
  | true => rfl
  | false =>
    rw [hk, hpresent] at h
    cases h

theorem sourcePresent_of_tried (ht : c.options.testing = false)
    (hk : a.kind.takesSource = true) {places : List ThemeCopy} {f : FileResult}
    (hf : f ∈ filed a places (runAll c a places s).1) (htried : tried f = true) :
    sourcePresent a s.site.tree = true := by
  induction places generalizing s with
  | nil => cases hf
  | cons place places ih =>
    rw [filed_runAll_cons] at hf
    rcases runAt_cases (a := a) ht place.theme s place.path with ⟨hmissing, hsame⟩ | ⟨habsent, -⟩
    · rcases List.mem_cons.1 hf with rfl | hf
      · exact absurd hmissing (of_decide_eq_true htried)
      · have hrest := ih (s := (runAt c a place.path place.theme s).2) hf
        rwa [hsame] at hrest
    · exact sourcePresent_of_present hk habsent

theorem enters_of_working (hd : ∃ mode, t.at? t.working = some (.directory mode))
    (he : p.text.isEmpty = true) : t.Enters p := by
  obtain rfl : p = ⟨""⟩ := by
    cases p with
    | mk text => exact congrArg Path.mk (String.isEmpty_iff.1 he)
  exact ⟨by decide, rfl, hd⟩

theorem counterpart_execute {source : Path} {t' : Tree} (hk : a.kind.isRequire = true)
    (hs : a.source = some source) (hr : t.Regular)
    (ha : Asunder (t.lexicalPlace source) (t.lexicalPlace p))
    (he : p.text.isEmpty = true → t.Enters p)
    (hrun : (execute a p).run.run t = (.ok (), t')) :
    Counterpart (t.lexicalPlace source) (t.lexicalPlace p) t t' := by
  unfold execute at hrun
  rw [hs] at hrun
  cases hkind : a.kind with
  | requireFile =>
    rw [hkind] at hrun
    exact counterpart_copyFile hr ha hrun
  | requireDir =>
    rw [hkind] at hrun
    exact counterpart_copyDirectory hr ha he hrun
  | createFile | createDir | moveFile | moveDir | removeFile | removeDir | modification | code
  | database | hook | credits | requires | readme | license | redirect | error | chmod =>
    rw [hkind] at hk
    cases hk

theorem kept_runAll (ht : c.options.testing = false) (hk : a.kind.isRequire = true)
    {places : List ThemeCopy} {place : Place} {entry : Entry}
    (hw : s.site.tree.working = base.working) (hg : Grows base s.site.tree)
    (hp : ∀ x ∈ places, ¬base.lexicalPlace x.path <+: place)
    (hat : s.site.tree.at? place = some entry) :
    (runAll c a places s).2.site.tree.at? place = some entry := by
  refine Confined.kept (confinedTo_require ht hk hw hg) ?_ hat
  rintro ⟨f, hf, -, hreached⟩
  obtain ⟨x, hx, rfl⟩ := List.mem_map.1 hf
  exact hp x.1 (List.of_mem_zip hx).1 ((reaches_of_require hk).1 hreached)

/-- When no two of source and targets overlap, the source has a counterpart at every target for which
the requirement is saved. -/
theorem counterpart_runAll {source : Path} {places : List ThemeCopy}
    (ht : c.options.testing = false) (hk : a.kind.isRequire = true) (hs : a.source = some source)
    (hw : s.site.tree.working = base.working) (hg : Grows base s.site.tree)
    (hd : ∃ mode, base.at? base.working = some (.directory mode))
    (hsource : ∀ x ∈ places, Asunder (base.lexicalPlace source) (base.lexicalPlace x.path))
    (hplaces : places.Pairwise fun x y => Asunder (base.lexicalPlace x.path) (base.lexicalPlace y.path))
    {f : FileResult} (hf : f ∈ filed a places (runAll c a places s).1)
    (hsaved : f.result.status = .saved) :
    Counterpart (base.lexicalPlace source) (base.lexicalPlace f.path) s.site.tree
      (runAll c a places s).2.site.tree := by
  induction places generalizing s with
  | nil => cases hf
  | cons place places ih =>
    obtain ⟨hfirst, hrest⟩ := List.forall_mem_cons.1 hsource
    obtain ⟨hothers, hpairs⟩ := List.pairwise_cons.1 hplaces
    have hnext := grows_runAt (c := c) ht hk place.theme s place.path hg
    have hsame : s.site.tree.lexicalPlace = base.lexicalPlace :=
      funext fun p => lexicalPlace_congr hw p
    have hwnext : (runAt c a place.path place.theme s).2.site.tree.working = base.working := by
      obtain ⟨written, hgrown⟩ := hnext.outgrown
      exact hgrown.working
    rw [filed_runAll_cons] at hf
    rcases List.mem_cons.1 hf with rfl | hf
    · -- the copy is left alone at the other targets
      rcases runAt_cases (a := a) ht place.theme s place.path with ⟨hmissing, -⟩ | ⟨-, -, htree, hrun⟩
      · dsimp only at hsaved
        rw [hmissing] at hsaved
        cases hsaved
      · obtain ⟨written, hgrown⟩ := hg.outgrown
        have hcopied := counterpart_execute (t := s.site.tree) hk hs hg.regular
          (by rw [hsame]; exact hfirst)
          (fun he => (enters_of_working hd he).of_grown hgrown) (Prod.ext (hrun.1 hsaved) htree.symm)
        rw [hsame] at hcopied
        refine hcopied.mono (fun _ _ => id) fun rel entry hat => ?_
        exact kept_runAll (s := (runAt c a place.path place.theme s).2) ht hk hwnext hnext
          (fun x hx => (hothers x hx).not_mem rel) hat
    · -- and so is the source at the first one
      have hcopied := ih hwnext hnext hrest hpairs hf
      refine hcopied.mono (fun rel entry hat => ?_) fun _ _ => id
      change (runAll c a [place] s).2.site.tree.at? _ = some entry
      exact kept_runAll ht hk hw hg
        (fun x hx => List.mem_singleton.1 hx ▸ hfirst.not_mem rel) hat

/-- A directory that was made on the way to a target where the action was tried. -/
def MadeOnWay (files : List FileResult) (t t' : Tree) (place : Place) : Prop :=
  (∃ f ∈ files, tried f = true ∧ t.NewOnWay f.path place) ∧
    t'.at? place = some (.directory modeOfNewDirectory)

/-- What a tree action touches, when it is carried out on a tree in which everything stands in a
directory under a name. Whatever its results, nothing is changed that lies apart from the targets
where it was tried and, for a move, from its source, but for new directories on the way to one of
these targets; so a target that is missing is left alone unless another one overlaps it. When source
and targets of a requirement do not overlap, the source is there, everything at or below it has a
counterpart at every target for which the requirement is saved, and the source is as it was but for
new directories on the way to a target. -/
theorem touched_by_tree_action (c : RunContext) (actions : List Action) (index : Nat) (a : Action)
    (s : Cursor) (ht : c.options.testing = false) (hk : a.kind.isFileTree = true)
    (hr : s.site.tree.Regular) :
    let t := s.site.tree
    let ran := runAction c actions index a s
    let t' := ran.2.site.tree
    let files := targets c a s
    (∀ destination ∈ a.destination, files.map (·.result) = ran.1) ∧
    (∀ place, (∀ f ∈ files, tried f = true → ¬Reaches a t f.path place) →
      t'.at? place = t.at? place ∨ MadeOnWay files t t' place) ∧
    (a.kind.isRequire = true → (∃ mode, t.at? t.working = some (.directory mode)) →
      ∀ source ∈ a.source,
        (t.lexicalPlace source :: files.map fun f => t.lexicalPlace f.path).Pairwise Asunder →
        ∀ f ∈ files, f.result.status = .saved →
          sourcePresent a t = true ∧
          Counterpart (t.lexicalPlace source) (t.lexicalPlace f.path) t t' ∧
          ∀ rel, t'.at? (t.lexicalPlace source ++ rel) = t.at? (t.lexicalPlace source ++ rel) ∨
            MadeOnWay files t t' (t.lexicalPlace source ++ rel)) := by
  dsimp only
  rw [runAction_tree hk]
  have hconfined := confinedTo_runTree ht hk hr
  refine ⟨fun destination hd => results_targets hd, fun place hp => hconfined.outside hp,
    fun hrequire hworking source hs hpairs f hf hsaved => ?_⟩
  obtain ⟨hsource, hpairs⟩ := List.pairwise_cons.1 hpairs
  have htakes : a.kind.takesSource = true := by
    cases hkind : a.kind <;> rw [hkind] at hrequire <;> first | rfl | cases hrequire
  have htried : tried f = true := by
    unfold tried
    rw [hsaved]
    rfl
  have hstays (rel : Place) (g : FileResult) (hg : g ∈ targets c a s) :
      ¬Reaches a s.site.tree g.path (s.site.tree.lexicalPlace source ++ rel) := by
    rw [reaches_of_require hrequire]
    exact (hsource _ (List.mem_map_of_mem hg)).not_mem rel
  cases hd : a.destination with
  | none => simp [targets, sites, filed, hd] at hf
  | some destination =>
    have hplaces : (targets c a s).map (fun f => s.site.tree.lexicalPlace f.path) =
        (sites c a s).map fun x => s.site.tree.lexicalPlace x.path := by
      have hpaths := congrArg (List.map s.site.tree.lexicalPlace) (paths_targets (c := c) (s := s) hd)
      rwa [List.map_map, List.map_map] at hpaths
    rw [hplaces, List.pairwise_map] at hpairs
    rw [hplaces, List.forall_mem_map] at hsource
    unfold targets at hf
    rw [runTree_eq_runAll hd] at hf ⊢
    refine ⟨sourcePresent_of_tried ht htakes hf htried, ?_, fun rel => ?_⟩
    · exact counterpart_runAll ht hrequire hs rfl ⟨hr, lasting_outgrown.refl _⟩ hworking hsource
        hpairs hf hsaved
    · rw [← runTree_eq_runAll hd]
      exact hconfined.outside fun g hg _ => hstays rel g hg

def themedContext : RunContext :=
  boardContext [⟨1, "default", ⟨"/t/d"⟩⟩, ⟨2, "other", ⟨"/t/o"⟩⟩]

def requiredDirectory (destination : Path) : Action :=
  { Action.make .requireDir "s" with
    source := some ⟨"/s"⟩, destination := some destination, detail := .tree .yes }

def requiringSite : Site :=
  ⟨⟨[(["s"], .directory 0o755), (["s", "x"], .file (.text "new") 0o644),
    (["t"], .directory 0o755), (["t", "d"], .directory 0o755), (["t", "o"], .directory 0o755),
    (["t", "o", "n"], .directory 0o755), (["t", "o", "n", "x"], .file (.text "old") 0o600)], []⟩,
    .byMode⟩

theorem touched_by_requirement :
    let a := requiredDirectory ⟨"/t/d/n"⟩
    let t := requiringSite.tree
    let t' := (runAction themedContext [a] 0 a (start requiringSite)).2.site.tree
    let files := targets themedContext a (start requiringSite)
    t.Regular ∧ files.map (fun f => (f.path, f.result.status)) =
        [(⟨"/t/d/n"⟩, .saved), (⟨"/t/o/n"⟩, .saved)] ∧
      Counterpart ["s"] ["t", "o", "n"] t t' ∧
      t.at? ["t", "o", "n", "x"] = some (.file (.text "old") 0o600) ∧
      (t'.at? ["t", "o"] = t.at? ["t", "o"] ∨ MadeOnWay files t t' ["t", "o"]) := by
  have hregular : requiringSite.tree.Regular :=
    ⟨closed_of_entries (by decide), named_of_entries (by decide)⟩
  obtain ⟨-, houtside, hcopied⟩ := touched_by_tree_action themedContext
    [requiredDirectory ⟨"/t/d/n"⟩] 0 (requiredDirectory ⟨"/t/d/n"⟩) (start requiringSite) rfl rfl
    hregular
  have hfiles : (targets themedContext (requiredDirectory ⟨"/t/d/n"⟩) (start requiringSite)).map
      (fun f => (f.path, f.result.status)) =
        [(⟨"/t/d/n"⟩, .saved), (⟨"/t/o/n"⟩, .saved)] := by decide +kernel
  have hmirror : ((⟨"/t/o/n"⟩ : Path), Status.saved) ∈
      (targets themedContext (requiredDirectory ⟨"/t/d/n"⟩) (start requiringSite)).map
        (fun f => (f.path, f.result.status)) := by
    rw [hfiles]
    simp
  obtain ⟨f, hf, hfile⟩ := List.mem_map.1 hmirror
  obtain ⟨hpath, hsaved⟩ := Prod.mk.inj hfile
  obtain ⟨-, hcounterpart, -⟩ := hcopied rfl ⟨_, rfl⟩ ⟨"/s"⟩ rfl (by decide +kernel) f hf hsaved
  rw [hpath] at hcounterpart
  refine ⟨hregular, hfiles, hcounterpart, rfl, houtside ["t", "o"] fun g hg _ => ?_⟩
  -- the places of the targets lie below
  have hplaces : ∀ p ∈ (targets themedContext (requiredDirectory ⟨"/t/d/n"⟩)
      (start requiringSite)).map (fun f => requiringSite.tree.lexicalPlace f.path),
        ¬p <+: ["t", "o"] := by decide +kernel
  rw [reaches_of_require rfl]
  exact hplaces _ (List.mem_map_of_mem hg)

def doubledContext : RunContext :=
  boardContext [⟨1, "default", ⟨"/d"⟩⟩, ⟨2, "one", ⟨"/m"⟩⟩, ⟨3, "two", ⟨"/m"⟩⟩]

def removedFile : Action :=
  { Action.make .removeFile "/d/f" with
    destination := some ⟨"/d/f"⟩, detail := .tree .yes }

def doubledSite : Site :=
  ⟨⟨[(["d"], .directory 0o755), (["d", "f"], .file (.text "a") 0o644),
    (["m"], .directory 0o755), (["m", "f"], .file (.text "b") 0o644)], []⟩, .byMode⟩

def emptySourceSite : Site := ⟨⟨[(["s"], .directory 0o755)], []⟩, .byMode⟩

/-- With two themes in one directory, the copy of a removed file is removed for the first one and
missing for the second. A target whose path leads through its source leaves a directory in it. -/
theorem missing_target_removed :
    let removal := runAction doubledContext [removedFile] 0 removedFile (start doubledSite)
    let a := requiredDirectory ⟨"/s/e/../../u"⟩
    let requirement := runAction themedContext [a] 0 a (start emptySourceSite)
    ((targets doubledContext removedFile (start doubledSite)).map
          (fun f => (f.path, f.result.status)) =
        [(⟨"/d/f"⟩, .saved), (⟨"/m/f"⟩, .saved), (⟨"/m/f"⟩, .missing)] ∧
      doubledSite.tree.at? ["m", "f"] = some (.file (.text "b") 0o644) ∧
      removal.2.site.tree.at? ["m", "f"] = none) ∧
    requirement.1.map (·.status) = [.saved] ∧
      Asunder (emptySourceSite.tree.lexicalPlace ⟨"/s"⟩)
        (emptySourceSite.tree.lexicalPlace ⟨"/s/e/../../u"⟩) ∧
      emptySourceSite.tree.at? ["s", "e"] = none ∧
      requirement.2.site.tree.at? ["s", "e"] = some (.directory modeOfNewDirectory) := by
  decide +kernel

end Cursor

end Patchboard
