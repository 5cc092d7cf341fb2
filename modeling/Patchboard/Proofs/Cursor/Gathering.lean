import Patchboard.Proofs.Cursor.Failures
import Patchboard.Proofs.Cursor.Twins
import Patchboard.Proofs.Plan.Shape

set_option autoImplicit false

/-!
What a run gathers on its way. Every action has one step, in order. A readme or a license is the one
that is displayed or an alternate, and what is left to the host application is deferred. The paths
that need write access are listed, and in the run of a plan no path is listed twice.
-/

namespace Patchboard

theorem Plan.Shape.kind_ne_chmod {node : Document} {a : Action} (h : Shape node a) :
    a.kind ≠ .chmod := by
  cases h with
  | unknown | nameless => exact fun hk => ActionKind.noConfusion hk
  | named _ own _ => exact own.2

theorem Plan.paths_of_actions {m : Manifest} {r : PlanRequest} {vars : PathVariables}
    {permissions : Permissions} {t t' : Tree} {plan : List Action}
    (h : (actions m r vars permissions).run.run t = (.ok plan, t')) :
    ∃ paths rest, plan = paths.map Action.chmod ++ rest ∧ Distinct paths ∧
      ∀ a ∈ rest, a.kind ≠ .chmod := by
  unfold actions at h
  split at h
  · cases h
  · dsimp only at h
    obtain ⟨⟨planned, paths⟩, u, hnodes, h⟩ := Tree.run_bind_eq_ok.1 h
    cases h
    obtain ⟨trail, htrail, -, hplanned, hpaths⟩ := planNodes_eq_ok hnodes
    refine ⟨paths, planned, rfl, hpaths ▸ distinct_gather List.Pairwise.nil trail, ?_⟩
    rw [hplanned]
    exact List.forall_mem_map.2 fun x hx => (htrail.shape x hx).kind_ne_chmod

namespace Cursor

def InLanguage (language : String) (a : Action) : Prop :=
  ∃ l ∈ a.language?, sameLanguage l language = true

/-- A document is the one of its kind that is displayed: the first in the language or, when there is
none, the first without a language. -/
structure IsDisplayed (actions : List Action) (language : String) (a : Action) (i : Nat) : Prop where
  found : actions[i]? = some a
  document : a.kind.isDocument = true
  chosen : (InLanguage language a ∧
      ∀ j < i, ∀ b ∈ actions[j]?, b.kind = a.kind → ¬InLanguage language b) ∨
    (a.language? = none ∧ (∀ b ∈ actions, b.kind = a.kind → ¬InLanguage language b) ∧
      ∀ j < i, ∀ b ∈ actions[j]?, b.kind = a.kind → b.language? ≠ none)

section
variable {actions : List Action} {language : String} {a b : Action} {i j : Nat} {kind : ActionKind}

theorem any_language_iff :
    (a.language?.any fun l => sameLanguage l language) = true ↔ InLanguage language a := by
  unfold InLanguage
  cases a.language? <;> simp

theorem any_language_eq_false_iff :
    (a.language?.any fun l => sameLanguage l language) = false ↔ ¬InLanguage language a := by
  rw [← any_language_iff, Bool.not_eq_true]

theorem find?_zipIdx_iff {p : Action → Bool} :
    (actions.zipIdx.find? fun n => p n.1) = some (a, i) ↔
      actions[i]? = some a ∧ p a = true ∧ ∀ j < i, ∀ b ∈ actions[j]?, p b = false := by
  rw [List.find?_eq_some_iff_getElem]
  constructor
  · rintro ⟨hp, k, hk, hget, hbefore⟩
    rw [List.length_zipIdx] at hk
    simp only [List.getElem_zipIdx, Nat.zero_add, Prod.mk.injEq] at hget
    obtain ⟨rfl, rfl⟩ := hget
    refine ⟨List.getElem?_eq_getElem hk, hp, fun j hj b hb => ?_⟩
    obtain ⟨hlen, rfl⟩ := List.getElem?_eq_some_iff.1 hb
    simpa using hbefore j hj
  · rintro ⟨hget, hp, hbefore⟩
    obtain ⟨hlen, rfl⟩ := List.getElem?_eq_some_iff.1 hget
    refine ⟨hp, i, by simpa using hlen, by simp, fun j hj => ?_⟩
    have hj' : j < actions.length := hj.trans hlen
    simpa using hbefore j hj actions[j] (List.getElem?_eq_getElem hj')

theorem find?_candidates_iff {p : Action → Bool} :
    ((actions.zipIdx.filter fun n => n.1.kind = kind).find? fun n => p n.1) = some (a, i) ↔
      actions[i]? = some a ∧ (a.kind = kind ∧ p a = true) ∧
        ∀ j < i, ∀ b ∈ actions[j]?, b.kind = kind → p b = false := by
  have hboth : (fun n : Action × Nat => decide (decide (n.1.kind = kind) = true ∧ p n.1 = true)) =
      fun n => (fun a => decide (a.kind = kind ∧ p a = true)) n.1 := by
    funext n
    simp
  rw [List.find?_filter, hboth, find?_zipIdx_iff (p := fun a => decide (a.kind = kind ∧ p a = true))]
  simp

theorem find?_candidates_eq_none_iff {p : Action → Bool} :
    ((actions.zipIdx.filter fun n => n.1.kind = kind).find? fun n => p n.1) = none ↔
      ∀ b ∈ actions, b.kind = kind → p b = false := by
  rw [List.find?_eq_none]
  constructor
  · intro h b hb hkind
    obtain ⟨k, hk⟩ := List.mem_iff_getElem?.1 hb
    have hmem : (b, k) ∈ actions.zipIdx.filter fun n => n.1.kind = kind :=
      List.mem_filter.2 ⟨List.mk_mem_zipIdx_iff_getElem?.2 hk, decide_eq_true hkind⟩
    exact Bool.eq_false_iff.2 (h _ hmem)
  · rintro h ⟨b, k⟩ hb
    obtain ⟨hmem, hkind⟩ := List.mem_filter.1 hb
    have hb' := List.mem_of_getElem? (List.mk_mem_zipIdx_iff_getElem?.1 hmem)
    exact Bool.eq_false_iff.1 (h b hb' (of_decide_eq_true hkind))

theorem selectedOf_eq_some_iff : selectedOf actions language kind = some i ↔
    ∃ a, actions[i]? = some a ∧ a.kind = kind ∧
      ((InLanguage language a ∧
          ∀ j < i, ∀ b ∈ actions[j]?, b.kind = kind → ¬InLanguage language b) ∨
        (a.language? = none ∧ (∀ b ∈ actions, b.kind = kind → ¬InLanguage language b) ∧
          ∀ j < i, ∀ b ∈ actions[j]?, b.kind = kind → b.language? ≠ none)) := by
  unfold selectedOf
  dsimp only
  rw [Option.map_eq_some_iff]
  simp only [Prod.exists, exists_eq_right, Option.or_eq_some_iff,
    find?_candidates_iff (p := fun a : Action => a.language?.any fun l => sameLanguage l language),
    find?_candidates_iff (p := fun a : Action => a.language?.isNone),
    find?_candidates_eq_none_iff
      (p := fun a : Action => a.language?.any fun l => sameLanguage l language),
    any_language_iff, any_language_eq_false_iff, Option.isNone_iff_eq_none,
    Option.isNone_eq_false_iff, Option.isSome_iff_ne_none]
  refine exists_congr fun a => ⟨?_, ?_⟩
  · rintro (⟨hget, ⟨hkind, hin⟩, hfirst⟩ | ⟨hnone, hget, ⟨hkind, huntagged⟩, hfirst⟩)
    · exact ⟨hget, hkind, .inl ⟨hin, hfirst⟩⟩
    · exact ⟨hget, hkind, .inr ⟨huntagged, hnone, hfirst⟩⟩
  · rintro ⟨hget, hkind, ⟨hin, hfirst⟩ | ⟨huntagged, hnone, hfirst⟩⟩
    · exact .inl ⟨hget, ⟨hkind, hin⟩, hfirst⟩
    · exact .inr ⟨hnone, hget, ⟨hkind, huntagged⟩, hfirst⟩

theorem mem_selected_iff :
    i ∈ selected actions language ↔ ∃ a, IsDisplayed actions language a i := by
  have hkinds : i ∈ selected actions language ↔
      ∃ kind : ActionKind, kind.isDocument = true ∧ selectedOf actions language kind = some i := by
    unfold selected
    rw [List.mem_filterMap]
    refine exists_congr fun kind => and_congr_left fun _ => ?_
    cases kind <;> decide
  rw [hkinds]
  simp only [selectedOf_eq_some_iff]
  constructor
  · rintro ⟨_, hdocument, a, hfound, rfl, hchosen⟩
    exact ⟨a, hfound, hdocument, hchosen⟩
  · rintro ⟨a, hfound, hdocument, hchosen⟩
    exact ⟨a.kind, hdocument, a, hfound, rfl, hchosen⟩

theorem IsDisplayed.selectedOf (h : IsDisplayed actions language a i) :
    selectedOf actions language a.kind = some i :=
  selectedOf_eq_some_iff.2 ⟨a, h.found, rfl, h.chosen⟩

theorem IsDisplayed.unique (h : IsDisplayed actions language a i)
    (h' : IsDisplayed actions language b j) (hkind : a.kind = b.kind) : i = j :=
  Option.some.inj (h.selectedOf.symm.trans (hkind ▸ h'.selectedOf))

end

/-- The paths that an action of a run asks write access for. -/
def requests (c : RunContext) (a : Action) (site : Site) : List Path :=
  match a.kind with
  | .chmod => (a.destination.filter fun p => c.options.testing || !(site.makeWritable p).1).toList
  | .modification => (patchOf? a site.tree).toList.flatMap fun patch =>
      (patch.applyTo c.board ⟨c.options.testing, a.reverse⟩ site).report.events.filterMap fun e =>
        if e.kind = .chmodNeeded then e.path else none
  | _ => []

def addPaths (paths new : List Path) : List Path :=
  new.foldl (fun paths p => Plan.addPath paths (some p)) paths

def gatherPaths (kind : ActionKind) (paths new : List Path) : List Path :=
  if kind = .chmod then paths ++ new else addPaths paths new

def isLeft (c : RunContext) (a : Action) : Bool :=
  a.kind.isDeferred && !(a.kind = .database && c.options.mode = .uninstall)

def isAlternate (c : RunContext) (actions : List Action) (x : Action × Nat) : Bool :=
  x.1.kind.isDocument && !(selected actions c.options.language).contains x.2

structure Gathers (c : RunContext) (actions : List Action) (index : Nat) (a : Action)
    (s s' : Cursor) : Prop where
  alternates : s'.alternates =
    s.alternates ++ if isAlternate c actions (a, index) then [a] else []
  deferred : s'.deferred = s.deferred ++ if isLeft c a then [a] else []
  chmodPaths : s'.chmodPaths = gatherPaths a.kind s.chmodPaths (requests c a s.site)

section
variable {c : RunContext} {actions : List Action} {index : Nat} {a : Action} {s s' : Cursor}

structure KeepsLists (s s' : Cursor) : Prop where
  alternates : s'.alternates = s.alternates
  deferred : s'.deferred = s.deferred
  chmodPaths : s'.chmodPaths = s.chmodPaths

theorem KeepsLists.refl (s : Cursor) : KeepsLists s s := ⟨rfl, rfl, rfl⟩

theorem KeepsLists.trans {s'' : Cursor} (h : KeepsLists s s') (h' : KeepsLists s' s'') :
    KeepsLists s s'' :=
  ⟨h'.alternates.trans h.alternates, h'.deferred.trans h.deferred,
    h'.chmodPaths.trans h.chmodPaths⟩

theorem keepsLists_runAt (destination : Path) (theme : Nat) :
    KeepsLists s (runAt c a destination theme s).2 := by
  unfold runAt
  dsimp only
  split
  · exact .refl s
  · split
    · exact .refl s
    · split <;> exact ⟨rfl, rfl, rfl⟩

theorem keepsLists_runAll (places : List ThemeCopy) : KeepsLists s (runAll c a places s).2 := by
  induction places generalizing s with
  | nil => exact .refl s
  | cons place places ih => exact (keepsLists_runAt place.path place.theme).trans ih

theorem keepsLists_runTree : KeepsLists s (runTree c a s).2 := by
  unfold runTree
  split
  · exact .refl s
  · exact (keepsLists_runAt _ _).trans (keepsLists_runAll _)

theorem chmodPathsOf_eq (events : List Event) (paths : List Path) :
    chmodPathsOf events paths =
      addPaths paths (events.filterMap fun e => if e.kind = .chmodNeeded then e.path else none) := by
  unfold chmodPathsOf addPaths
  induction events generalizing paths with
  | nil => rfl
  | cons e events ih =>
    rw [List.foldl_cons, ih]
    cases hpath : e.path with
    | none => simp [hpath]
    | some p =>
      by_cases hkind : e.kind = .chmodNeeded
      · simp [hpath, hkind, Plan.addPath]
      · cases hk : e.kind <;> simp_all

theorem lists_runModification_ok {raw : String} {patch : Patch}
    (ht : s.site.tree.text? (patchFile a) = .ok raw) (hp : patch? a raw = .ok patch) :
    (runModification c a s).2.alternates = s.alternates ∧
      (runModification c a s).2.deferred = s.deferred ∧
      (runModification c a s).2.chmodPaths = chmodPathsOf
        (patch.applyTo c.board ⟨c.options.testing, a.reverse⟩ s.site).report.events
        s.chmodPaths := by
  unfold patchFile at ht
  unfold runModification foldReport
  dsimp only
  rw [ht]
  dsimp only
  rw [runPatch_eq, hp]
  dsimp only [Except.map]
  split <;> exact ⟨rfl, rfl, rfl⟩

theorem lists_runModification (hk : a.kind = .modification) :
    (runModification c a s).2.alternates = s.alternates ∧
      (runModification c a s).2.deferred = s.deferred ∧
      (runModification c a s).2.chmodPaths =
        gatherPaths a.kind s.chmodPaths (requests c a s.site) := by
  unfold gatherPaths requests patchOf?
  rw [hk]
  cases ht : s.site.tree.text? (patchFile a) with
  | error e =>
    rw [runModification_unread fun raw => by simp [ht]]
    exact ⟨rfl, rfl, rfl⟩
  | ok raw =>
    cases hp : patch? a raw with
    | error problem =>
      rw [runModification_malformed ht hp]
      simp [Except.toOption, hp, addPaths]
    | ok patch =>
      obtain ⟨halternates, hdeferred, hpaths⟩ := lists_runModification_ok (c := c) ht hp
      refine ⟨halternates, hdeferred, hpaths.trans ((chmodPathsOf_eq _ _).trans ?_)⟩
      simp [Except.toOption, hp]

theorem lists_runChmod (hk : a.kind = .chmod) :
    (runChmod c a s).2.alternates = s.alternates ∧ (runChmod c a s).2.deferred = s.deferred ∧
      (runChmod c a s).2.chmodPaths =
        gatherPaths a.kind s.chmodPaths (requests c a s.site) := by
  unfold runChmod gatherPaths requests
  rw [hk]
  cases hd : a.destination with
  | none => simp
  | some p =>
    dsimp only
    by_cases ht : c.options.testing = true
    · simp [ht, Option.filter_some]
    · cases hw : s.site.makeWritable p with
      | mk ok site => cases ok <;> simp [ht, hw, Option.filter_some]

theorem requests_eq_nil (hchmod : a.kind ≠ .chmod) (hmodification : a.kind ≠ .modification)
    (site : Site) : requests c a site = [] := by
  unfold requests
  split
  · exact absurd ‹_› hchmod
  · exact absurd ‹_› hmodification
  · rfl

theorem gathers_of_pathless (hchmod : a.kind ≠ .chmod) (hmodification : a.kind ≠ .modification)
    (halternates : s'.alternates =
      s.alternates ++ if isAlternate c actions (a, index) then [a] else [])
    (hdeferred : s'.deferred = s.deferred ++ if isLeft c a then [a] else [])
    (hpaths : s'.chmodPaths = s.chmodPaths) : Gathers c actions index a s s' := by
  refine ⟨halternates, hdeferred, ?_⟩
  rw [hpaths, requests_eq_nil hchmod hmodification, gatherPaths, if_neg hchmod]
  rfl

theorem isAlternate_eq_false (hk : a.kind.isDocument = false) :
    isAlternate c actions (a, index) = false := by
  simp [isAlternate, hk]

theorem isLeft_eq_false (hk : a.kind.isDeferred = false) : isLeft c a = false := by
  simp [isLeft, hk]

theorem gathers_of_keeps (hdocument : a.kind.isDocument = false)
    (hdeferred : a.kind.isDeferred = false) (hchmod : a.kind ≠ .chmod)
    (hmodification : a.kind ≠ .modification) (h : KeepsLists s s') :
    Gathers c actions index a s s' :=
  gathers_of_pathless hchmod hmodification
    (by simpa [isAlternate_eq_false hdocument] using h.alternates)
    (by simpa [isLeft_eq_false hdeferred] using h.deferred) h.chmodPaths

theorem gathers_runDocument (hk : a.kind = .readme ∨ a.kind = .license) :
    Gathers c actions index a s (runDocument c actions index a s).2 := by
  have hleft : isLeft c a = false := isLeft_eq_false (by rcases hk with h | h <;> rw [h] <;> rfl)
  refine gathers_of_pathless ?_ ?_ ?_ ?_ ?_
  · rcases hk with h | h <;> simp [h]
  · rcases hk with h | h <;> simp [h]
  · unfold runDocument isAlternate
    cases hshown : (selected actions c.options.language).contains index with
    | true =>
      rw [if_pos rfl, Bool.not_true, Bool.and_false, if_neg Bool.false_ne_true, List.append_nil]
      split
      · split <;> rfl
      · rfl
    | false => rcases hk with h | h <;> simp [h, ActionKind.isDocument]
  · rw [hleft]
    unfold runDocument
    split
    · split
      · split <;> simp
      · simp
    · simp
  · unfold runDocument
    split
    · split
      · split <;> rfl
      · rfl
    · rfl

theorem gathers_runDeferred (hdocument : a.kind.isDocument = false)
    (hk : a.kind.isDeferred = true) (hchmod : a.kind ≠ .chmod)
    (hmodification : a.kind ≠ .modification) :
    Gathers c actions index a s (runDeferred c a s).2 := by
  refine gathers_of_pathless hchmod hmodification ?_ ?_ ?_
  · rw [isAlternate_eq_false hdocument]
    unfold runDeferred
    split <;> simp
  · unfold runDeferred isLeft
    split
    · rename_i hdatabase
      simp [hdatabase]
    · rename_i hdatabase
      simp [hdatabase, hk]
  · unfold runDeferred
    split <;> rfl

theorem gathers_runAction : Gathers c actions index a s (runAction c actions index a s).2 := by
  unfold runAction
  cases hk : a.kind with
  | chmod =>
    obtain ⟨halternates, hdeferred, hpaths⟩ := lists_runChmod (c := c) (s := s) hk
    exact ⟨by simp [isAlternate, hk, ActionKind.isDocument, halternates],
      by simp [isLeft, hk, ActionKind.isDeferred, hdeferred], hpaths⟩
  | modification =>
    obtain ⟨halternates, hdeferred, hpaths⟩ := lists_runModification (c := c) (s := s) hk
    exact ⟨by simp [isAlternate, hk, ActionKind.isDocument, halternates],
      by simp [isLeft, hk, ActionKind.isDeferred, hdeferred], hpaths⟩
  | readme => exact gathers_runDocument (.inl hk)
  | license => exact gathers_runDocument (.inr hk)
  | code | database | hook | credits | redirect =>
    exact gathers_runDeferred (by rw [hk]; rfl) (by rw [hk]; rfl) (by simp [hk]) (by simp [hk])
  | requires | error =>
    exact gathers_of_keeps (by rw [hk]; rfl) (by rw [hk]; rfl) (by simp [hk]) (by simp [hk])
      (.refl s)
  | createFile | createDir | requireFile | requireDir | removeFile | removeDir | moveFile
  | moveDir =>
    exact gathers_of_keeps (by rw [hk]; rfl) (by rw [hk]; rfl) (by simp [hk]) (by simp [hk])
      keepsLists_runTree

end

/-- At most `n` more actions, each with the run as it is before the action. -/
def visits (c : RunContext) (actions : List Action) : Nat → Cursor → List (Action × Cursor)
  | 0, _ => []
  | n + 1, s =>
    match actions[s.position]? with
    | none => []
    | some a => (a, s) :: visits c actions n (next c actions s).2

def indexed (x : Action × Cursor) : Action × Nat := (x.1, x.2.position)

def stepOf (c : RunContext) (actions : List Action) (x : Action × Cursor) : ActionStep :=
  ⟨x.2.position, x.1.kind, displayTarget c x.1, x.1.description,
    (runAction c actions x.2.position x.1 { x.2 with position := x.2.position + 1 }).1⟩

def gatherAll (c : RunContext) (paths : List Path) : List (Action × Cursor) → List Path
  | [] => paths
  | x :: visited => gatherAll c (gatherPaths x.1.kind paths (requests c x.1 x.2.site)) visited

/-- The steps of some actions, and what these add to the lists of a run. -/
structure GathersAll (c : RunContext) (actions : List Action) (visited : List (Action × Cursor))
    (s : Cursor) (run : List ActionStep × Cursor) : Prop where
  steps : run.1 = visited.map (stepOf c actions)
  alternates : run.2.alternates =
    s.alternates ++ ((visited.map indexed).filter (isAlternate c actions)).map (·.1)
  deferred : run.2.deferred = s.deferred ++ (visited.map (·.1)).filter (isLeft c)
  chmodPaths : run.2.chmodPaths = gatherAll c s.chmodPaths visited

section
variable {c : RunContext} {actions : List Action} {s : Cursor} {a : Action}

theorem indexed_visits (n : Nat) :
    (visits c actions n s).map indexed = (actions.zipIdx.drop s.position).take n := by
  induction n generalizing s with
  | zero => rfl
  | succ n ih =>
    rw [visits]
    cases h : actions[s.position]? with
    | none =>
      have hlen : actions.zipIdx.length ≤ s.position := by simpa using h
      rw [List.drop_eq_nil_of_le hlen]
      rfl
    | some a =>
      obtain ⟨hlen, hget⟩ := List.getElem?_eq_some_iff.1 h
      have hlen' : s.position < actions.zipIdx.length := by simpa using hlen
      have hdrop : actions.zipIdx.drop s.position =
          (a, s.position) :: actions.zipIdx.drop (s.position + 1) := by
        rw [List.drop_eq_getElem_cons hlen', List.getElem_zipIdx, hget, Nat.zero_add]
      dsimp only
      rw [List.map_cons, ih, position_next h, hdrop, List.take_succ_cons]
      rfl

theorem gathers_next (h : actions[s.position]? = some a) :
    Gathers c actions s.position a s (next c actions s).2 := by
  have hcarried : Gathers c actions s.position a { s with position := s.position + 1 }
      (runAction c actions s.position a { s with position := s.position + 1 }).2 :=
    gathers_runAction
  rw [next_some actions h]
  exact ⟨hcarried.alternates, hcarried.deferred, hcarried.chmodPaths⟩

theorem gathersAll_walk (n : Nat) :
    GathersAll c actions (visits c actions n s) s (walk c actions n s) := by
  induction n generalizing s with
  | zero => exact ⟨rfl, by simp [walk, visits], by simp [walk, visits], rfl⟩
  | succ n ih =>
    rw [visits]
    cases h : actions[s.position]? with
    | none =>
      rw [walk_of_done _ h]
      exact ⟨rfl, by simp, by simp, rfl⟩
    | some a =>
      have hstep := gathers_next (c := c) h
      have hrest := ih (s := (next c actions s).2)
      have hnext : next c actions s = (some (stepOf c actions (a, s)), (next c actions s).2) := by
        rw [next_some actions h]
        rfl
      rw [walk_succ hnext]
      refine ⟨congrArg (List.cons _) hrest.steps, ?_, ?_, ?_⟩
      · refine hrest.alternates.trans ?_
        rw [hstep.alternates, List.map_cons, List.filter_cons, List.append_assoc, indexed]
        cases isAlternate c actions (a, s.position) <;> rfl
      · refine hrest.deferred.trans ?_
        rw [hstep.deferred, List.map_cons, List.filter_cons, List.append_assoc]
        cases isLeft c a <;> rfl
      · refine hrest.chmodPaths.trans ?_
        rw [hstep.chmodPaths]
        rfl

theorem indexed_visits_start (site : Site) :
    (visits c actions actions.length (start site)).map indexed = actions.zipIdx := by
  rw [indexed_visits]
  exact List.take_of_length_le (by simp)

theorem actions_visits_start (site : Site) :
    (visits c actions actions.length (start site)).map (·.1) = actions := by
  have hindexed : (visits c actions actions.length (start site)).map indexed = actions.zipIdx :=
    indexed_visits_start site
  have hactions := congrArg (List.map (·.1)) hindexed
  rw [List.map_map, List.zipIdx_map_fst] at hactions
  exact hactions

theorem results_of_document (hk : a.kind.isDocument = true) (s : Cursor) (index : Nat) :
    ∃ r, (runAction c actions index a s).1 = [r] ∧
      if index ∈ selected actions c.options.language then r.status = .opened ∨ r.status = .missing
      else r.status = .skipped := by
  have hdocument : (runAction c actions index a s).1 = [(runDocument c actions index a s).1] := by
    unfold runAction
    cases h : a.kind <;> rw [h] at hk <;> first | rfl | cases hk
  refine ⟨_, hdocument, ?_⟩
  unfold runDocument
  by_cases hshown : index ∈ selected actions c.options.language
  · rw [if_pos (List.contains_iff_mem.2 hshown), if_pos hshown]
    split
    · split
      · exact .inl rfl
      · exact .inr rfl
    · exact .inl rfl
  · rw [if_neg fun h => hshown (List.contains_iff_mem.1 h), if_neg hshown]
    rfl

end

section
variable {c : RunContext} {paths : List Path} {p q : Path} {visited : List (Action × Cursor)}
  {kind : ActionKind} {new : List Path}

theorem subset_addPaths (paths new : List Path) : paths ⊆ addPaths paths new := by
  induction new generalizing paths with
  | nil => exact List.Subset.refl _
  | cons p new ih => exact List.Subset.trans (Plan.subset_addPath paths (some p)) (ih _)

theorem mem_addPaths (h : q ∈ addPaths paths new) : q ∈ paths ∨ q ∈ new := by
  induction new generalizing paths with
  | nil => exact .inl h
  | cons p new ih =>
    rcases ih h with h | h
    · rcases Plan.mem_addPath h with h | h
      · exact .inl h
      · exact .inr (Option.some.inj h ▸ List.mem_cons_self)
    · exact .inr (List.mem_cons_of_mem p h)

theorem exists_same_addPaths (h : p ∈ new) : ∃ q ∈ addPaths paths new, p.same q = true := by
  induction new generalizing paths with
  | nil => cases h
  | cons first new ih =>
    rcases List.mem_cons.1 h with rfl | h
    · obtain ⟨q, hq, hsame⟩ := Plan.exists_same_addPath paths p
      exact ⟨q, subset_addPaths _ new hq, hsame⟩
    · exact ih h

theorem distinct_addPaths (h : Plan.Distinct paths) (new : List Path) :
    Plan.Distinct (addPaths paths new) := by
  induction new generalizing paths with
  | nil => exact h
  | cons p new ih => exact ih (Plan.distinct_addPath h (some p))

theorem subset_gatherPaths (kind : ActionKind) (paths new : List Path) :
    paths ⊆ gatherPaths kind paths new := by
  unfold gatherPaths
  split
  · exact List.subset_append_left ..
  · exact subset_addPaths ..

theorem mem_gatherPaths (h : q ∈ gatherPaths kind paths new) : q ∈ paths ∨ q ∈ new := by
  unfold gatherPaths at h
  split at h
  · exact List.mem_append.1 h
  · exact mem_addPaths h

theorem exists_same_gatherPaths (kind : ActionKind) (paths : List Path) (h : p ∈ new) :
    ∃ q ∈ gatherPaths kind paths new, p.same q = true := by
  unfold gatherPaths
  split
  · exact ⟨p, List.mem_append_right _ h, decide_eq_true rfl⟩
  · exact exists_same_addPaths h

theorem subset_gatherAll (paths : List Path) (visited : List (Action × Cursor)) :
    paths ⊆ gatherAll c paths visited := by
  induction visited generalizing paths with
  | nil => exact List.Subset.refl _
  | cons x visited ih => exact List.Subset.trans (subset_gatherPaths ..) (ih _)

theorem mem_gatherAll (h : q ∈ gatherAll c paths visited) :
    q ∈ paths ∨ ∃ x ∈ visited, q ∈ requests c x.1 x.2.site := by
  induction visited generalizing paths with
  | nil => exact .inl h
  | cons x visited ih =>
    rcases ih h with h | ⟨y, hy, h⟩
    · exact (mem_gatherPaths h).imp_right fun h => ⟨x, List.mem_cons_self, h⟩
    · exact .inr ⟨y, List.mem_cons_of_mem x hy, h⟩

theorem exists_same_gatherAll {x : Action × Cursor} (hx : x ∈ visited)
    (h : p ∈ requests c x.1 x.2.site) : ∃ q ∈ gatherAll c paths visited, p.same q = true := by
  induction visited generalizing paths with
  | nil => cases hx
  | cons first visited ih =>
    rcases List.mem_cons.1 hx with rfl | hx
    · obtain ⟨q, hq, hsame⟩ := exists_same_gatherPaths x.1.kind paths h
      exact ⟨q, subset_gatherAll _ visited hq, hsame⟩
    · exact ih hx

theorem gatherAll_append (before after : List (Action × Cursor)) :
    gatherAll c paths (before ++ after) = gatherAll c (gatherAll c paths before) after := by
  induction before generalizing paths with
  | nil => rfl
  | cons x before ih => exact ih

theorem distinct_gatherAll (h : Plan.Distinct paths) (hk : ∀ x ∈ visited, x.1.kind ≠ .chmod) :
    Plan.Distinct (gatherAll c paths visited) := by
  induction visited generalizing paths with
  | nil => exact h
  | cons x visited ih =>
    obtain ⟨hfirst, hrest⟩ := List.forall_mem_cons.1 hk
    refine ih ?_ hrest
    unfold gatherPaths
    rw [if_neg hfirst]
    exact distinct_addPaths h _

theorem sublist_gatherAll (c : RunContext) (paths : List Path) {blocked : List Path}
    (hvisited : visited.map (·.1) = blocked.map Action.chmod) :
    ∃ listed : List Path, listed.Sublist blocked ∧ gatherAll c paths visited = paths ++ listed := by
  induction visited generalizing paths blocked with
  | nil => exact ⟨[], List.nil_sublist _, (List.append_nil _).symm⟩
  | cons x visited ih =>
    cases blocked with
    | nil => simp at hvisited
    | cons p blocked =>
      obtain ⟨a, s⟩ := x
      obtain ⟨rfl, hrest⟩ := List.cons.inj hvisited
      have hrequests : (requests c (Action.chmod p) s.site).Sublist [p] := by
        unfold requests
        dsimp only [Action.chmod, Action.make]
        rw [Option.filter_some]
        split
        · exact List.Sublist.refl _
        · exact List.nil_sublist _
      obtain ⟨listed, hlisted, hgathered⟩ :=
        ih (paths ++ requests c (Action.chmod p) s.site) hrest
      refine ⟨_, hrequests.append hlisted, ?_⟩
      rw [← List.append_assoc, ← hgathered]
      rfl

theorem distinct_of_plan {m : Manifest} {r : PlanRequest} {vars : PathVariables}
    {permissions : Permissions} {t t' : Tree} {plan : List Action}
    (h : (Plan.actions m r vars permissions).run.run t = (.ok plan, t'))
    (hvisited : visited.map (·.1) = plan) : Plan.Distinct (gatherAll c [] visited) := by
  obtain ⟨blocked, rest, rfl, hdistinct, hrest⟩ := Plan.paths_of_actions h
  obtain ⟨before, after, rfl, hbefore, hafter⟩ := List.map_eq_append_iff.1 hvisited
  obtain ⟨listed, hlisted, hgathered⟩ := sublist_gatherAll c [] hbefore
  have hkinds : ∀ x ∈ after, x.1.kind ≠ .chmod := fun x hx =>
    hrest x.1 (hafter ▸ List.mem_map_of_mem hx)
  rw [gatherAll_append, hgathered]
  exact distinct_gatherAll (hdistinct.sublist hlisted) hkinds

end

/-- A run comes to every action once and in order, whatever fails, and has a step for each. A readme
or a license is displayed when it is the first of its kind in the language or, when there is none,
the first without a language; at most one of a kind is. All others are alternates, in order. What is
left to the host application is deferred, in order, but for database actions in an uninstallation.
The paths with write access asked for by a patch, or by a chmod action in vain, are listed, and when
the actions are those of a plan no path is listed twice. -/
theorem run_gathers (c : RunContext) (actions : List Action) (site : Site) :
    let run := runAllActions c actions site
    let visited := visits c actions actions.length (start site)
    let shown := selected actions c.options.language
    visited.map (·.1) = actions ∧ (next c actions run.2).1 = none ∧
    (run.1.steps.map fun step => (step.index, step.kind, step.target, step.description)) =
      (actions.zipIdx.map fun x => (x.2, x.1.kind, displayTarget c x.1, x.1.description)) ∧
    (∀ i, i ∈ shown ↔ ∃ a, IsDisplayed actions c.options.language a i) ∧
    (∀ a b i j, IsDisplayed actions c.options.language a i →
      IsDisplayed actions c.options.language b j → a.kind = b.kind → i = j) ∧
    (∀ step ∈ run.1.steps, step.kind.isDocument = true → ∃ r, step.results = [r] ∧
      if step.index ∈ shown then r.status = .opened ∨ r.status = .missing
      else r.status = .skipped) ∧
    run.2.alternates =
      (actions.zipIdx.filter fun x => x.1.kind.isDocument && !shown.contains x.2).map (·.1) ∧
    run.1.deferred = actions.filter (fun a =>
      a.kind.isDeferred && !(a.kind = .database && c.options.mode = .uninstall)) ∧
    (∀ x ∈ visited, ∀ p ∈ requests c x.1 x.2.site, ∃ q ∈ run.1.chmodPaths, p.same q = true) ∧
    (∀ q ∈ run.1.chmodPaths, ∃ x ∈ visited, q ∈ requests c x.1 x.2.site) ∧
    ∀ m r vars permissions t t',
      (Plan.actions m r vars permissions).run.run t = (.ok actions, t') →
      Plan.Distinct run.1.chmodPaths := by
  intro run visited shown
  have hrun : GathersAll c actions visited (start site) (walk c actions actions.length (start site)) :=
    gathersAll_walk actions.length
  have hindexed : visited.map indexed = actions.zipIdx := indexed_visits_start site
  have hactions : visited.map (·.1) = actions := actions_visits_start site
  have hpaths : run.1.chmodPaths = gatherAll c [] visited := hrun.chmodPaths
  refine ⟨hactions, ?_, ?_, fun i => mem_selected_iff, fun a b i j => IsDisplayed.unique, ?_, ?_,
    ?_, ?_, ?_, fun m r vars permissions t t' h => ?_⟩
  · have hdone := isDone_walk (c := c) (s := start site) (n := actions.length)
      (Nat.le_add_left actions.length (start site).position)
    exact congrArg (·.1) (next_none (List.getElem?_eq_none (of_decide_eq_true hdone)))
  · rw [← hindexed, List.map_map]
    refine (congrArg (List.map _) hrun.steps).trans ?_
    rw [List.map_map]
    rfl
  · intro step hstep hdocument
    have hstep : step ∈ visited.map (stepOf c actions) := by
      rw [← hrun.steps]
      exact hstep
    obtain ⟨x, -, rfl⟩ := List.mem_map.1 hstep
    exact results_of_document hdocument _ _
  · rw [← hindexed]
    exact hrun.alternates
  · refine hrun.deferred.trans ?_
    rw [hactions]
    rfl
  · intro x hx p hp
    rw [hpaths]
    exact exists_same_gatherAll hx hp
  · intro q hq
    rw [hpaths] at hq
    exact (mem_gatherAll hq).resolve_left List.not_mem_nil
  · rw [hpaths]
    exact distinct_of_plan h hactions

/-- A manifest with two documents of a kind, and with a patch of a file that it also creates. -/
def documentsManifest : Manifest :=
  let node (kind text : String) (fields : List (String × Toml)) : Toml :=
    .table ([("kind", .string kind), ("text", .string text)] ++ fields)
  ⟨"p", "p", "1", none, ⟨.table [("install", .array [.table [("action", .array [
    node "readme" "g" [("lang", .string "german")], node "readme" "r" [], node "code" "c" [],
    node "modification" "p" [("format", .string "boardmod")],
    Plan.treeNode "create-file" "x"])]])]⟩⟩

def deniedSite : Site :=
  ⟨⟨[(["s"], .directory 0o755), (["s", "p"], .file (.text "<file>\n/b/x\n</file>\n") 0o644),
    (["b"], .directory 0o755), (["b", "x"], .file (.text "a") 0o644)], []⟩,
    .listed [⟨"/b/x"⟩] false false⟩

def plainReadme : Action :=
  { Action.make .readme "r" with source := some ⟨"/s/r"⟩, detail := .document none false }

def germanReadme : Action :=
  { Action.make .readme "g" with
    source := some ⟨"/s/g"⟩, detail := .document (some "german") false }

def documentsActions : List Action :=
  [.chmod ⟨"/b/x"⟩, germanReadme, plainReadme,
    { Action.make .code "c" with source := some ⟨"/s/c"⟩ },
    { Action.make .modification "p" with source := some ⟨"/s/p"⟩, isBoardmod := true },
    { Action.make .createFile "x" with destination := some ⟨"/b/x"⟩ }]

/-- The path is asked for by the chmod action and by the patch, and is listed once. -/
theorem run_gathers_documents :
    (Plan.actions documentsManifest ⟨.install, "2.1", none, ⟨"/s"⟩⟩ .empty
      deniedSite.permissions).run.run deniedSite.tree = (.ok documentsActions, deniedSite.tree) ∧
    let run := runAllActions plainContext documentsActions deniedSite
    (visits plainContext documentsActions 6 (start deniedSite)).map
        (fun x => requests plainContext x.1 x.2.site) = [[⟨"/b/x"⟩], [], [], [], [⟨"/b/x"⟩], []] ∧
      (∃ q ∈ run.1.chmodPaths, (⟨"/b/x"⟩ : Path).same q = true) ∧
      Plan.Distinct run.1.chmodPaths ∧
      (∃ a, IsDisplayed documentsActions "english" a 2) ∧ run.2.alternates = [germanReadme] := by
  have hplan : (Plan.actions documentsManifest ⟨.install, "2.1", none, ⟨"/s"⟩⟩ .empty
      deniedSite.permissions).run.run deniedSite.tree =
        (.ok documentsActions, deniedSite.tree) :=
    Prod.ext (by decide +kernel) (by decide +kernel)
  have hrequests : (visits plainContext documentsActions 6 (start deniedSite)).map
      (fun x => requests plainContext x.1 x.2.site) =
        [[⟨"/b/x"⟩], [], [], [], [⟨"/b/x"⟩], []] := by decide +kernel
  obtain ⟨-, -, -, hdisplayed, -, -, halternates, -, hlisted, -, hdistinct⟩ :=
    run_gathers plainContext documentsActions deniedSite
  have hfirst : [⟨"/b/x"⟩] ∈ (visits plainContext documentsActions 6 (start deniedSite)).map
      (fun x => requests plainContext x.1 x.2.site) := by
    rw [hrequests]
    exact List.mem_cons_self
  obtain ⟨x, hx, hrequest⟩ := List.mem_map.1 hfirst
  refine ⟨hplan, hrequests, hlisted x hx ⟨"/b/x"⟩ (by rw [hrequest]; exact List.mem_cons_self),
    hdistinct _ _ _ _ _ _ hplan, (hdisplayed 2).1 (by decide +kernel), halternates.trans ?_⟩
  decide +kernel

end Cursor

end Patchboard
