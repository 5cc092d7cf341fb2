import Mathlib.Data.List.Nodup
import Patchboard.Plan
import Patchboard.Proofs.Tree.Confinement

set_option autoImplicit false

namespace Patchboard
open Tree

namespace ActionKind

theorem mem_named {k : ActionKind} : k ∈ named ↔ k ≠ .chmod := by
  cases k <;> decide

theorem name_injective {k k' : ActionKind} (h : k.name = k'.name) : k = k' := by
  have hnodup : ((ActionKind.chmod :: named).map name).Nodup := by decide
  have hmem (k : ActionKind) : k ∈ ActionKind.chmod :: named := by
    rw [List.mem_cons, mem_named]
    exact em _
  exact List.inj_on_of_nodup_map hnodup (hmem k) (hmem k') h

def word (s : String) : String := Text.lowered (Text.trimmed s)

theorem parse?_eq_some {s : String} {k : ActionKind} (h : parse? s = some k) :
    k.name = word s ∧ k ≠ .chmod := by
  unfold parse? at h
  have hname := List.find?_some h
  exact ⟨by simpa [word] using hname, mem_named.1 (List.mem_of_find?_eq_some h)⟩

theorem parse?_eq_none {s : String} (h : parse? s = none) {k : ActionKind}
    (hk : k.name = word s) : k = .chmod := by
  by_contra hc
  unfold parse? at h
  exact List.find?_eq_none.1 h k (mem_named.2 hc) (by simpa [word] using hk)

end ActionKind

namespace Plan

/-- A block applies to a product that its versions admit, and an upgrade also to the version that was
installed before. -/
structure Applicable (r : PlanRequest) (block : Document) : Prop where
  product : ∀ expression ∈ block.fetch? "@for", Version.isMatch r.product expression = true
  previous : r.mode = .upgrade → ∀ expression ∈ block.fetch? "@from",
    ∃ previous ∈ r.previous, Version.isMatch previous expression = true

theorem applies_iff {r : PlanRequest} {block : Document} :
    applies r block = true ↔ Applicable r block := by
  have hproduct : admitsProduct r block = true ↔ ∀ expression ∈ block.fetch? "@for",
      Version.isMatch r.product expression = true := by
    unfold admitsProduct
    cases block.fetch? "@for" <;> simp
  have hprevious : admitsPrevious r block = true ↔ (r.mode = .upgrade →
      ∀ expression ∈ block.fetch? "@from",
        ∃ previous ∈ r.previous, Version.isMatch previous expression = true) := by
    unfold admitsPrevious
    by_cases hm : r.mode = .upgrade
    · cases block.fetch? "@from" <;> cases r.previous <;> simp [hm]
    · simp [hm]
  rw [applies, Bool.and_eq_true, hproduct, hprevious]
  exact ⟨fun h => ⟨h.1, h.2⟩, fun h => ⟨h.product, h.previous⟩⟩

def nodeName (kind : ActionKind) (node : Document) : String :=
  match kind with
  | .moveFile | .moveDir => (node.fetch? "@name").getD (node.fetch "@from")
  | _ => node.fetch "@name"

/-- The actions that a node may become. -/
inductive Shape (node : Document) : Action → Prop where
  | unknown (h : ∀ kind : ActionKind, kind.name = ActionKind.word (node.fetch "@kind") →
      kind = .error ∨ kind = .chmod) : Shape node (.unknown (node.fetch "@kind"))
  | nameless {kind : ActionKind} (h : kind.name = ActionKind.word (node.fetch "@kind"))
      (tree : kind.isFileTree = true) (blank : Text.allBlank (nodeName kind node) = true) :
      Shape node (.unknown (node.fetch "@kind" ++ " (missing name)"))
  | named {a : Action} (h : a.kind.name = ActionKind.word (node.fetch "@kind"))
      (own : a.kind ≠ .error ∧ a.kind ≠ .chmod)
      (filled : a.kind.isFileTree = true → Text.allBlank (nodeName a.kind node) = false) :
      Shape node a

variable {c : Context} {node : Document} {count count' : Nat} {t t' : Tree} {a : Action}

theorem kind_attach {start : Action} {extension : String}
    (h : (attach c start node extension count).run.run t = (.ok (a, count'), t')) :
    a.kind = start.kind := by
  unfold attach at h
  dsimp only at h
  split at h
  · obtain ⟨-, u, -, h⟩ := run_bind_eq_ok.1 h
    obtain ⟨-, u', -, h⟩ := run_bind_eq_ok.1 h
    cases h
    rfl
  · cases h
    rfl

theorem kind_actionOf {kind : ActionKind}
    (h : (actionOf c kind node count).run.run t = (.ok (a, count'), t')) : a.kind = kind := by
  unfold actionOf at h
  cases kind with
  | readme | license | redirect =>
    obtain ⟨⟨attached, n⟩, u, hattach, h⟩ := run_bind_eq_ok.1 h
    have hkind := kind_attach hattach
    cases h
    exact hkind
  | code | database | modification => exact kind_attach h
  | _ =>
    cases h
    rfl

theorem filename_actionOf {kind : ActionKind} (hk : kind.isFileTree = true)
    (h : (actionOf c kind node count).run.run t = (.ok (a, count'), t')) :
    a.filename = nodeName kind node := by
  unfold actionOf at h
  cases kind <;> first | (cases h; rfl) | cases hk

theorem shape_planNode (h : (planNode c node count).run.run t = (.ok (a, count'), t')) :
    Shape node a := by
  unfold planNode at h
  dsimp only at h
  split at h
  · rename_i hnone
    cases h
    exact .unknown fun kind hk => .inr (ActionKind.parse?_eq_none hnone hk)
  · rename_i herror
    cases h
    obtain ⟨hname, -⟩ := ActionKind.parse?_eq_some herror
    exact .unknown fun kind hk => .inl (ActionKind.name_injective (hk.trans hname.symm))
  · rename_i kind hne hkind
    obtain ⟨hname, hchmod⟩ := ActionKind.parse?_eq_some hkind
    obtain ⟨⟨planned, n⟩, u, hplanned, h⟩ := run_bind_eq_ok.1 h
    have hkind := kind_actionOf hplanned
    dsimp only at h
    split at h
    · rename_i hblank
      rw [Bool.and_eq_true] at hblank
      cases h
      exact .nameless hname hblank.1 (filename_actionOf hblank.1 hplanned ▸ hblank.2)
    · rename_i hfilled
      cases h
      subst hkind
      refine .named hname ⟨hne, hchmod⟩ fun htree => ?_
      rw [← filename_actionOf htree hplanned]
      simpa [htree] using hfilled

/-- A path decides about the access to a destination: the destination if it is there, or the nearest
path above it that is. -/
def Decides (t : Tree) (destination p : Path) : Prop :=
  if t.pathExists destination then p = destination
  else ∃ nearer farther, destination.ancestors = nearer ++ p :: farther ∧
    (p.text ≠ "" ∧ t.pathExists p = true) ∧ ∀ q ∈ nearer, q.text = "" ∨ t.pathExists q = false

theorem probe?_eq_some_iff {t : Tree} {destination p : Path} :
    t.probe? destination = some p ↔ Decides t destination p := by
  unfold probe? Decides
  split
  · exact ⟨fun h => (Option.some_inj.1 h).symm, fun h => congrArg some h.symm⟩
  · unfold firstExisting?
    rw [List.find?_filter, List.find?_eq_some_iff_append]
    constructor
    · rintro ⟨hp, nearer, farther, hsplit, hnearer⟩
      refine ⟨nearer, farther, hsplit, by simpa using hp, fun q hq => ?_⟩
      by_cases hempty : q.text = ""
      · exact .inl hempty
      · exact .inr (by simpa [hempty] using hnearer q hq)
    · rintro ⟨nearer, farther, hsplit, hp, hnearer⟩
      refine ⟨by simpa using hp, nearer, farther, hsplit, fun q hq => ?_⟩
      rcases hnearer q hq with hempty | hmissing
      · simp [hempty]
      · simp [hmissing]

/-- A node, the action it becomes, and the tree in which the destination is looked for then. -/
structure Planned where
  node : Document
  action : Action
  tree : Tree

/-- A path to which an action that adds content cannot write. -/
structure Planned.Blocks (x : Planned) (permissions : Permissions) (p : Path) : Prop where
  adds : x.action.kind.addsContent = true
  decides : ∃ destination ∈ x.action.destination, Decides x.tree destination p
  refused : (⟨x.tree, permissions⟩ : Site).isWritable p = false

theorem obstacle?_eq_some_iff {x : Planned} {permissions : Permissions} {p : Path} :
    obstacle? ⟨x.tree, permissions⟩ x.action = some p ↔ x.Blocks permissions p := by
  unfold obstacle?
  constructor
  · intro h
    split at h
    · rename_i hadds
      obtain ⟨hprobe, hrefused⟩ := Option.filter_eq_some_iff.1 h
      obtain ⟨destination, hd, hp⟩ := Option.bind_eq_some_iff.1 hprobe
      exact ⟨hadds, ⟨destination, hd, probe?_eq_some_iff.1 hp⟩, by simpa using hrefused⟩
    · cases h
  · rintro ⟨hadds, ⟨destination, hd, hp⟩, hrefused⟩
    rw [if_pos hadds]
    refine Option.filter_eq_some_iff.2 ⟨?_, by simpa using hrefused⟩
    exact Option.bind_eq_some_iff.2 ⟨destination, hd, probe?_eq_some_iff.2 hp⟩

def gather (permissions : Permissions) (blocked : List Path) (trail : List Planned) : List Path :=
  trail.foldl (fun blocked x => addPath blocked (obstacle? ⟨x.tree, permissions⟩ x.action)) blocked

def Distinct (paths : List Path) : Prop := paths.Pairwise fun p q => p.same q = false

theorem distinct_addPath {paths : List Path} (h : Distinct paths) (p : Option Path) :
    Distinct (addPath paths p) := by
  cases p with
  | none => exact h
  | some p =>
    unfold addPath
    dsimp only
    split
    · exact h
    · rename_i hnew
      refine List.pairwise_append.2 ⟨h, List.pairwise_singleton .., fun q hq p' hp' => ?_⟩
      rw [List.mem_singleton.1 hp']
      simp only [List.any_eq_true, not_exists, not_and, Bool.not_eq_true] at hnew
      have hne := hnew q hq
      unfold Path.same at hne ⊢
      exact decide_eq_false fun he => of_decide_eq_false hne he.symm

theorem mem_addPath {paths : List Path} {q : Path} {p : Option Path} (h : q ∈ addPath paths p) :
    q ∈ paths ∨ p = some q := by
  cases p with
  | none => exact .inl h
  | some p =>
    unfold addPath at h
    dsimp only at h
    split at h
    · exact .inl h
    · rcases List.mem_append.1 h with h | h
      · exact .inl h
      · exact .inr (congrArg some (List.mem_singleton.1 h).symm)

theorem subset_addPath (paths : List Path) (p : Option Path) : paths ⊆ addPath paths p := by
  cases p with
  | none => exact List.Subset.refl _
  | some p =>
    unfold addPath
    dsimp only
    split
    · exact List.Subset.refl _
    · exact List.subset_append_left ..

theorem exists_same_addPath (paths : List Path) (p : Path) :
    ∃ q ∈ addPath paths (some p), p.same q = true := by
  unfold addPath
  dsimp only
  split
  · rename_i h
    exact List.any_eq_true.1 h
  · exact ⟨p, by simp, decide_eq_true rfl⟩

variable {permissions : Permissions}

theorem distinct_gather {blocked : List Path} (h : Distinct blocked) (trail : List Planned) :
    Distinct (gather permissions blocked trail) := by
  induction trail generalizing blocked with
  | nil => exact h
  | cons x trail ih => exact ih (distinct_addPath h _)

theorem subset_gather (blocked : List Path) (trail : List Planned) :
    blocked ⊆ gather permissions blocked trail := by
  induction trail generalizing blocked with
  | nil => exact List.Subset.refl _
  | cons x trail ih => exact List.Subset.trans (subset_addPath blocked _) (ih _)

theorem mem_gather {blocked : List Path} {trail : List Planned} {p : Path}
    (h : p ∈ gather permissions blocked trail) :
    p ∈ blocked ∨ ∃ x ∈ trail, x.Blocks permissions p := by
  induction trail generalizing blocked with
  | nil => exact .inl h
  | cons x trail ih =>
    rcases ih h with h | ⟨y, hy, hp⟩
    · rcases mem_addPath h with h | h
      · exact .inl h
      · exact .inr ⟨x, List.mem_cons_self .., obstacle?_eq_some_iff.1 h⟩
    · exact .inr ⟨y, List.mem_cons_of_mem _ hy, hp⟩

theorem exists_same_gather {blocked : List Path} {trail : List Planned} {x : Planned}
    (hx : x ∈ trail) {p : Path} (hp : x.Blocks permissions p) :
    ∃ q ∈ gather permissions blocked trail, p.same q = true := by
  induction trail generalizing blocked with
  | nil => cases hx
  | cons first trail ih =>
    rcases List.mem_cons.1 hx with rfl | hx
    · obtain ⟨q, hq, hsame⟩ := exists_same_addPath blocked p
      rw [← obstacle?_eq_some_iff.2 hp] at hq
      exact ⟨q, subset_gather _ trail hq, hsame⟩
    · exact ih hx

/-- Some nodes are planned one after the other, each on the tree that the one before it leaves. -/
inductive Trail (c : Context) : Nat → Tree → List Planned → Tree → Prop where
  | nil {count : Nat} {t : Tree} : Trail c count t [] t
  | cons {node : Document} {a : Action} {count count' : Nat} {t t' last : Tree}
      {trail : List Planned} (planned : (planNode c node count).run.run t = (.ok (a, count'), t'))
      (rest : Trail c count' t' trail last) : Trail c count t (⟨node, a, t'⟩ :: trail) last

theorem Trail.shape {last : Tree} {trail : List Planned} (h : Trail c count t trail last) :
    ∀ x ∈ trail, Shape x.node x.action := by
  induction h with
  | nil => simp
  | cons planned _ ih => exact List.forall_mem_cons.2 ⟨shape_planNode planned, ih⟩

theorem planNodes_eq_ok {nodes : List Document} {blocked paths : List Path}
    {actions : List Action} (h : (planNodes c permissions nodes count blocked).run.run t =
      (.ok (actions, paths), t')) : ∃ trail, Trail c count t trail t' ∧
        trail.map (·.node) = nodes ∧ actions = trail.map (·.action) ∧
        paths = gather permissions blocked trail := by
  induction nodes generalizing count blocked actions t with
  | nil =>
    cases h
    exact ⟨[], .nil, rfl, rfl, rfl⟩
  | cons node nodes ih =>
    unfold planNodes at h
    obtain ⟨⟨a, n⟩, u, hplanned, h⟩ := run_bind_eq_ok.1 h
    obtain ⟨now, u', hget, h⟩ := run_bind_eq_ok.1 h
    cases hget
    obtain ⟨⟨rest, paths'⟩, u', hrest, h⟩ := run_bind_eq_ok.1 h
    cases h
    obtain ⟨trail, htrail, hnodes, hactions, hpaths⟩ := ih hrest
    refine ⟨⟨node, a, u⟩ :: trail, .cons hplanned htrail, ?_, ?_, hpaths⟩
    · rw [List.map_cons, hnodes]
    · rw [List.map_cons, hactions]

/-- A plan consists of the paths that block it and of one action for each node of the first block
that applies, in order. No path stands there twice, and the paths are those that decide about a
destination and had no write access when its node was planned. -/
theorem shape_actions {m : Manifest} {r : PlanRequest} {vars : PathVariables}
    {permissions : Permissions} {t t' : Tree} {plan : List Action}
    (h : (actions m r vars permissions).run.run t = (.ok plan, t')) :
    ∃ before block after, m.methodBlocks r.mode = before ++ block :: after ∧
      (∀ other ∈ before, ¬ Applicable r other) ∧ Applicable r block ∧
      ∃ (paths : List Path) (trail : List Planned),
        plan = paths.map Action.chmod ++ trail.map (·.action) ∧
        trail.map (·.node) = block.children "." "action" ∧
        Trail ⟨vars, r.staging⟩ 0 t trail t' ∧
        (∀ x ∈ trail, Shape x.node x.action) ∧
        paths.Pairwise (fun p q => p.same q = false) ∧
        (∀ p ∈ paths, ∃ x ∈ trail, x.Blocks permissions p) ∧
        ∀ x ∈ trail, ∀ p, x.Blocks permissions p → ∃ q ∈ paths, p.same q = true := by
  unfold actions at h
  split at h
  · cases h
  · rename_i block hselect
    obtain ⟨happlies, before, after, hsplit, hbefore⟩ := List.find?_eq_some_iff_append.1 hselect
    dsimp only at h
    obtain ⟨⟨planned, paths⟩, u, hnodes, h⟩ := run_bind_eq_ok.1 h
    cases h
    obtain ⟨trail, htrail, hnode, hplanned, hpaths⟩ := planNodes_eq_ok hnodes
    have hfirst : ∀ other ∈ before, ¬ Applicable r other := fun other ho ha => by
      simpa [applies_iff.2 ha] using hbefore other ho
    refine ⟨before, block, after, hsplit, hfirst, applies_iff.1 happlies, paths, trail, ?_, hnode,
      htrail, htrail.shape, ?_, fun p hp => ?_, fun x hx p hb => ?_⟩
    · rw [hplanned]
    · exact hpaths ▸ distinct_gather List.Pairwise.nil trail
    · rw [hpaths] at hp
      exact (mem_gather hp).resolve_left (by simp)
    · exact hpaths ▸ exists_same_gather hx hb

def treeNode (kind name : String) : Toml :=
  .table [("kind", .string kind), ("name", .string name), ("destination", .string "/b")]

/-- Two new files in one directory, a node of no kind and one without a name. The first block is an
upgrade from a version that is not installed. -/
def fourNodes : Manifest :=
  ⟨"p", "p", "1", none, ⟨.table [("upgrade", .array [
    .table [("from", .string "1.0"), ("action", .array [])],
    .table [("action", .array [treeNode "create-file" "x",
      treeNode "Create-Dir" "y", treeNode "walk" "z", treeNode "remove-file" " "])]])]⟩⟩

def directorySite : Site := ⟨⟨[(["b"], .directory 0o555)], []⟩, .byMode⟩

def fourActions : List Action :=
  [.chmod ⟨"/b"⟩, { Action.make .createFile "x" with destination := some ⟨"/b/x"⟩ },
    { Action.make .createDir "y" with destination := some ⟨"/b/y"⟩ }, .unknown "walk",
    .unknown "remove-file (missing name)"]

theorem shape_actions_fourNodes :
    (actions fourNodes ⟨.upgrade, "2.1", none, ⟨"/s"⟩⟩ .empty directorySite.permissions).run.run
      directorySite.tree = (.ok fourActions, directorySite.tree) ∧
    ∃ (paths : List Path) (trail : List Planned),
      fourActions = paths.map Action.chmod ++ trail.map (·.action) ∧
      (∀ x ∈ trail, Shape x.node x.action) ∧
      ∀ p ∈ paths, ∃ x ∈ trail, x.Blocks directorySite.permissions p := by
  have hrun : (actions fourNodes ⟨.upgrade, "2.1", none, ⟨"/s"⟩⟩ .empty
      directorySite.permissions).run.run directorySite.tree = (.ok fourActions, directorySite.tree) :=
    Prod.ext (by decide +kernel) (by decide +kernel)
  obtain ⟨-, -, -, -, -, -, paths, trail, hplan, -, -, hshape, -, hblocks, -⟩ := shape_actions hrun
  exact ⟨hrun, paths, trail, hplan, hshape, hblocks⟩

end Plan

end Patchboard
