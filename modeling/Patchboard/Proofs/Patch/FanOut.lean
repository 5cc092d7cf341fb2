import Mathlib.Data.List.Basic
import Patchboard.Proofs.Patch.DryRun
import Patchboard.Proofs.Patch.Revision

set_option autoImplicit false

namespace Patchboard

namespace ThemeCopy

/-- The custom themes, in their order, that hold a file at the place that a path has in the default
theme. -/
def holders (themes : List Theme) (t : Tree) (p : Path) : List ThemeCopy :=
  match (Theme.default? themes).bind fun main => p.stripPrefix? main.directory with
  | none => []
  | some relative =>
    ((Theme.custom themes).filter fun c => t.isFile (c.directory.join relative)).map fun c =>
      ⟨c.id, c.directory.join relative⟩

theorem ofFile_eq (themes : List Theme) (t : Tree) (p : Path) :
    ofFile themes t p = holders themes t p := by
  unfold ofFile candidates holders
  cases Theme.default? themes with
  | none => rfl
  | some main =>
    dsimp only [Option.bind_some]
    cases p.stripPrefix? main.directory with
    | none => rfl
    | some relative => exact List.filter_map

theorem holders_of_outside {themes : List Theme} {t : Tree} {p : Path}
    (h : ∀ main ∈ Theme.default? themes, main.contains p = false) : holders themes t p = [] := by
  unfold holders
  cases hmain : Theme.default? themes with
  | none => rfl
  | some main =>
    have hout : p.startsWith main.directory = false := h main hmain
    simp [Path.stripPrefix?, hout]

end ThemeCopy

namespace CopyIndex

/-- How a path is first written, by which copies are found, of the ways that some paths are
written. -/
def spelling (themes : List Theme) (t : Tree) (paths : List Path) (p : Path) : Path :=
  (paths.find? fun q => q.same p && !(ThemeCopy.holders themes t q).isEmpty).getD p

variable {themes : List Theme} {t : Tree} {paths : List Path} {p : Path}

theorem same_spelling : (spelling themes t paths p).same p = true := by
  unfold spelling
  cases hq : paths.find? fun q => q.same p && !(ThemeCopy.holders themes t q).isEmpty with
  | none => exact decide_eq_true rfl
  | some q => exact (Bool.and_eq_true _ _ ▸ List.find?_some hq).1

theorem holders_spelling_of_outside
    (h : ∀ main ∈ Theme.default? themes, main.contains p = false) :
    ThemeCopy.holders themes t (spelling themes t paths p) = [] := by
  have hsame : (spelling themes t paths p).components = p.components :=
    of_decide_eq_true same_spelling
  refine ThemeCopy.holders_of_outside fun main hm => ?_
  have hout := h main hm
  rwa [Theme.contains, Path.startsWith, ← hsame] at hout

theorem spelling_of_unique (h : ∀ q ∈ paths, q.same p = true → q = p) :
    spelling themes t paths p = p := by
  unfold spelling
  cases hq : paths.find? fun q => q.same p && !(ThemeCopy.holders themes t q).isEmpty with
  | none => rfl
  | some q =>
    exact h q (List.mem_of_find?_eq_some hq) (Bool.and_eq_true _ _ ▸ List.find?_some hq).1

theorem copiesOf_ofTargets (hp : p ∈ paths) : (ofTargets themes t paths).copiesOf p =
    ThemeCopy.holders themes t (spelling themes t paths p) := by
  have hentries : (ofTargets themes t paths).entries.find? (fun e => e.1.same p) =
      (paths.find? fun q => q.same p && !(ThemeCopy.holders themes t q).isEmpty).map fun q =>
        (q, ThemeCopy.holders themes t q) := by
    unfold ofTargets
    rw [List.find?_filter, List.find?_map]
    simp only [Function.comp_def, ThemeCopy.ofFile_eq, Bool.and_comm (Path.same _ _),
      Bool.decide_and, Bool.decide_eq_true]
  unfold copiesOf spelling
  rw [hentries]
  cases hq : paths.find? fun q => q.same p && !(ThemeCopy.holders themes t q).isEmpty with
  | some q => rfl
  | none =>
    have hnone := List.find?_eq_none.1 hq p hp
    have hempty : ThemeCopy.holders themes t p = [] := by simpa [Path.same] using hnone
    exact hempty.symm

end CopyIndex

namespace Boardmod

theorem groups_cons (t : Token) (tokens : List Token) :
    ∃ group more, groups (t :: tokens) = (t :: group) :: more := by
  rw [groups]
  split
  · exact ⟨[], [], rfl⟩
  · split
    · exact ⟨[], _, rfl⟩
    · exact ⟨_, _, rfl⟩

theorem groups_append (tokens : List Token) {rest : List Token}
    (h : ∀ t ∈ rest.head?, t.kind = .file) :
    groups (tokens ++ rest) = groups tokens ++ groups rest := by
  induction tokens with
  | nil => rfl
  | cons t tokens ih =>
    rw [List.cons_append, groups, ih, groups]
    cases groups tokens with
    | cons group more =>
      dsimp only [List.cons_append]
      split <;> rfl
    | nil =>
      cases rest with
      | nil => rfl
      | cons next rest =>
        obtain ⟨group, more, hrest⟩ := groups_cons next rest
        rw [hrest]
        exact if_pos (congrArg some (h next rfl))

theorem groups_eq_singleton (head : Token) {tail : List Token} (hk : ∀ t ∈ tail, t.kind ≠ .file) :
    groups (head :: tail) = [head :: tail] := by
  induction tail generalizing head with
  | nil => rfl
  | cons next tail ih =>
    obtain ⟨hnext, hrest⟩ := List.forall_mem_cons.1 hk
    rw [groups, ih next hrest]
    simp [hnext]

inductive IsGroup : List Token → Prop where
  | intro {head : Token} {tail : List Token} (file : head.kind = .file)
      (body : ∀ t ∈ tail, t.kind ≠ .file) : IsGroup (head :: tail)

theorem kind_head_flatten {gs : List (List Token)} (h : ∀ group ∈ gs, IsGroup group) :
    ∀ t ∈ gs.flatten.head?, t.kind = .file := by
  cases gs with
  | nil => simp
  | cons group gs =>
    obtain ⟨hfile, -⟩ := h group (List.mem_cons_self ..)
    intro t ht
    cases ht
    exact hfile

theorem groups_flatten {gs : List (List Token)} (h : ∀ group ∈ gs, IsGroup group) :
    groups gs.flatten = gs := by
  induction gs with
  | nil => rfl
  | cons group gs ih =>
    obtain ⟨hfirst, hrest⟩ := List.forall_mem_cons.1 h
    rw [List.flatten_cons, groups_append group (kind_head_flatten hrest), ih hrest]
    obtain ⟨-, hbody⟩ := hfirst
    rw [groups_eq_singleton _ hbody]
    rfl

theorem groups_map {f : Token → Token} (hf : ∀ t, (f t).kind = t.kind) (tokens : List Token) :
    groups (tokens.map f) = (groups tokens).map (List.map f) := by
  induction tokens with
  | nil => rfl
  | cons t tokens ih =>
    rw [List.map_cons, groups, ih, groups]
    cases groups tokens with
    | nil => rfl
    | cons group more =>
      have hhead : ((group.map f).head?.map (·.kind)) = group.head?.map (·.kind) := by
        cases group with
        | nil => rfl
        | cons t group => exact congrArg some (hf t)
      rw [List.map_cons]
      dsimp only
      rw [hhead]
      split <;> rfl

def copyGroups (index : CopyIndex) (group : List Token) : List (List Token) :=
  match group.head?.bind fileOf? with
  | none => []
  | some path => (index.copiesOf path).map fun c => copyGroup c group

theorem copiesOf_eq_flatten (index : CopyIndex) (group : List Token) :
    copiesOf index group = (copyGroups index group).flatten := by
  unfold copiesOf copyGroups
  cases group with
  | nil => rfl
  | cons head tail =>
    dsimp only [List.head?_cons, Option.bind_some, fileOf?]
    cases head.kind <;> cases head.path <;> simp [List.flatMap]

theorem isGroup_of_mem_copyGroups {index : CopyIndex} {group copied : List Token}
    (hk : ∀ t ∈ group.tail, t.kind ≠ .file) (hc : copied ∈ copyGroups index group) :
    IsGroup copied := by
  cases group with
  | nil => simp [copyGroups] at hc
  | cons head tail =>
    unfold copyGroups at hc
    rw [List.head?_cons, Option.bind_some] at hc
    split at hc
    · simp at hc
    · rename_i path hpath
      obtain ⟨c, -, rfl⟩ := List.mem_map.1 hc
      have hfile : head.kind = .file := kind_of_fileOf? hpath
      refine .intro hfile fun t ht => ?_
      obtain ⟨t', ht', rfl⟩ := List.mem_map.1 ht
      exact hk t' ht'

theorem groups_fannedOut (b : Board) (tree : Tree) (tokens : List Token) :
    groups (fannedOut b tree tokens) = groups tokens ++ (groups tokens).flatMap
      (copyGroups (CopyIndex.ofTargets b.themes tree (tokens.filterMap (·.path)))) := by
  have hcopies (index : CopyIndex) : (groups tokens).flatMap (copiesOf index) =
      ((groups tokens).flatMap (copyGroups index)).flatten := by
    rw [funext (copiesOf_eq_flatten index), List.flatMap, List.flatMap, List.flatten_flatten,
      List.map_map]
    rfl
  have hgroups : ∀ (index : CopyIndex), ∀ copied ∈ (groups tokens).flatMap (copyGroups index),
      IsGroup copied := by
    intro index copied hc
    obtain ⟨group, hg, hc⟩ := List.mem_flatMap.1 hc
    exact isGroup_of_mem_copyGroups (kind_ne_of_mem_tail hg) hc
  unfold fannedOut
  dsimp only
  rw [hcopies, groups_append, groups_flatten (hgroups _)]
  exact kind_head_flatten (hgroups _)

end Boardmod

namespace Token

theorem bare_of_mem_scanFrom {fuel : Nat} {s : List Char} {t : Token}
    (h : Scanned.token t ∈ scanFrom fuel s) : t.bare = t := by
  induction fuel generalizing s with
  | zero => simp [scanFrom] at h
  | succ fuel ih =>
    rw [scanFrom] at h
    split at h
    · simp at h
    · rename_i written rest _
      dsimp only at h
      split at h
      · rcases List.mem_cons.1 h with h | h
        · cases h
        · exact ih h
      · rcases List.mem_cons.1 h with h | h
        · unfold ofTag at h
          split at h
          · cases h
            rfl
          · cases h
        · exact ih h

theorem bare_of_mem_tokens {raw : List Char} {t : Token} (h : t ∈ tokens raw) : t.bare = t := by
  obtain ⟨scanned, hs, ht⟩ := List.mem_filterMap.1 h
  cases scanned with
  | token other =>
    cases ht
    exact bare_of_mem_scanFrom hs
  | other tag body => cases ht
  | unterminated tag => cases ht

end Token

/-- A run of the edits on a file. What a stream says besides, when it finds no file to work on, is
recorded under `theme`. -/
def Edits.on (edits : Edits) (file : ThemeCopy) (theme : Nat) : Run :=
  ⟨file, edits, match edits with
    | .block _ => []
    | .stream body => body.map fun t => Boardmod.stray { t with theme }⟩

def Boardmod.edits? (b : Board) (tree : Tree) : List Token → Option (Path × Edits)
  | [] => none
  | head :: tail =>
    if head.kind = .file then
      some (resolveTarget b tree (Text.trimmed (String.ofList head.text)), .stream tail)
    else none

namespace Patch

/-- The files that a patch names, in its order, with what it has to do with each. -/
def files (b : Board) (t : Tree) : Patch → List (Path × Edits)
  | .modification d => (Modification.targets b d).filterMap fun target =>
      target.path.map fun path => (path, .block target.block)
  | .stream raw => (Boardmod.groups (Token.tokens raw.toList)).filterMap (Boardmod.edits? b t)

/-- The edits on the file itself. -/
def own (b : Board) (x : Path × Edits) : Run :=
  x.2.on ⟨Theme.owner b.themes x.1, x.1⟩ Theme.noCustom

/-- The edits on the copies of the file that are there at the start. -/
def copies (b : Board) (t : Tree) (patch : Patch) (x : Path × Edits) : List Run :=
  (ThemeCopy.holders b.themes t
    (CopyIndex.spelling b.themes t ((patch.files b t).map (·.1)) x.1)).map fun c => x.2.on c c.theme

/-- All runs of a patch, in order. -/
def fanOut (b : Board) (t : Tree) (patch : Patch) : List Run :=
  match patch with
  | .modification _ => (patch.files b t).flatMap fun x => own b x :: patch.copies b t x
  | .stream _ => (patch.files b t).map (own b) ++ (patch.files b t).flatMap (patch.copies b t)

variable {b : Board} {o : PatchOptions} {t : Tree}

theorem copies_eq {patch : Patch} {x : Path × Edits} (hx : x ∈ patch.files b t) :
    patch.copies b t x = ((CopyIndex.ofTargets b.themes t ((patch.files b t).map (·.1))).copiesOf
      x.1).map fun c => x.2.on c c.theme := by
  rw [CopyIndex.copiesOf_ofTargets (List.mem_map_of_mem hx)]
  rfl

theorem runs_modification (d : Document) :
    ((Patch.modification d).tasks b t).filterMap Task.run? = (Patch.modification d).fanOut b t := by
  have hpaths : (Modification.targets b d).filterMap (·.path) =
      ((Patch.modification d).files b t).map (·.1) := by
    unfold files
    rw [List.map_filterMap]
    simp [Option.map_map, Function.comp_def]
  have hjobs : ∀ numbered ∈ (Modification.targets b d).zipIdx,
      (Modification.jobsOf b (CopyIndex.ofTargets b.themes t
        (((Patch.modification d).files b t).map (·.1))) numbered).filterMap (Task.run? ∘ .job) =
      (numbered.1.path.map fun path => (path, Edits.block numbered.1.block)).toList.flatMap fun x =>
        own b x :: (Patch.modification d).copies b t x := by
    intro numbered hn
    unfold Modification.jobsOf
    cases hp : numbered.1.path with
    | none => rfl
    | some path =>
      have hx : (path, Edits.block numbered.1.block) ∈ (Patch.modification d).files b t :=
        List.mem_filterMap.2 ⟨numbered.1, List.fst_mem_of_mem_zipIdx hn, by rw [hp]; rfl⟩
      unfold Modification.variants
      dsimp only
      rw [Option.map_some, Option.toList_some, List.flatMap_singleton, copies_eq hx,
        List.filterMap_map]
      exact congrFun List.filterMap_eq_map (_ :: _)
  have htargets (k : Modification.Target → List Run) :
      (Modification.targets b d).zipIdx.flatMap (fun numbered => k numbered.1) =
        (Modification.targets b d).flatMap k := by
    rw [← List.flatMap_map, List.zipIdx_map_fst]
  unfold tasks fanOut
  dsimp only
  rw [List.filterMap_map, Modification.jobs, hpaths, List.filterMap_flatMap,
    List.flatMap_congr hjobs, htargets fun target => (target.path.map fun path =>
      (path, Edits.block target.block)).toList.flatMap fun x =>
        own b x :: (Patch.modification d).copies b t x]
  conv_rhs => rw [files, List.filterMap_eq_flatMap_toList, List.flatMap_assoc]

end Patch

namespace Boardmod

variable {b : Board} {tree : Tree} {group : List Token}

theorem locate_of_ne {t : Token} (hk : t.kind ≠ .file) : locate b tree t = t := if_neg hk

theorem map_locate_of_ne {tokens : List Token} (hk : ∀ t ∈ tokens, t.kind ≠ .file) :
    tokens.map (locate b tree) = tokens := by
  rw [List.map_congr_left fun t ht => locate_of_ne (hk t ht), List.map_id']

theorem map_bare {tokens : List Token} (hbare : ∀ t ∈ tokens, t.bare = t) :
    tokens.map Token.bare = tokens := by
  rw [List.map_congr_left hbare, List.map_id']

theorem kind_locate (t : Token) : (locate b tree t).kind = t.kind := by
  unfold locate
  split <;> rfl

theorem located_cases (b : Board) (tree : Tree) (hk : ∀ t ∈ group.tail, t.kind ≠ .file) :
    (edits? b tree group = none ∧ group.map (locate b tree) = group ∧
      group.head?.bind fileOf? = none) ∨
    ∃ text path, edits? b tree group = some (path, .stream group.tail) ∧
      group.map (locate b tree) =
        ⟨.file, text, some path, Theme.owner b.themes path⟩ :: group.tail := by
  cases group with
  | nil => exact .inl ⟨rfl, rfl, rfl⟩
  | cons head tail =>
    rw [List.tail_cons] at hk
    rw [List.map_cons, map_locate_of_ne hk, edits?]
    by_cases hh : head.kind = .file
    · refine .inr ⟨head.text, _, if_pos hh, ?_⟩
      rw [locate, if_pos hh, hh]
      rfl
    · exact .inl ⟨if_neg hh, by rw [locate_of_ne hh], if_neg hh⟩

theorem filterMap_path_located (hbare : ∀ t ∈ group, t.bare = t)
    (hk : ∀ t ∈ group.tail, t.kind ≠ .file) :
    (group.map (locate b tree)).filterMap (·.path) = ((edits? b tree group).map (·.1)).toList := by
  have hplain : ∀ {tokens : List Token}, (∀ t ∈ tokens, t.bare = t) →
      tokens.filterMap (·.path) = [] := by
    intro tokens h
    exact List.filterMap_eq_nil_iff.2 fun t ht => by rw [← h t ht]; rfl
  rcases located_cases b tree hk with
    ⟨hnone, hkeep, hhead⟩ | ⟨text, path, hsome, hlocated⟩
  · rw [hnone, hkeep, hplain hbare]
    rfl
  · rw [hsome, hlocated, List.filterMap_cons, hplain fun t ht =>
      hbare t (List.mem_of_mem_tail ht)]
    rfl

end Boardmod

namespace Patch

variable {b : Board} {o : PatchOptions} {t : Tree} {group : List Token}

theorem run?_located (hbare : ∀ token ∈ group, token.bare = token)
    (hk : ∀ token ∈ group.tail, token.kind ≠ .file) :
    Task.run? (.group (group.map (Boardmod.locate b t))) =
      (Boardmod.edits? b t group).map (own b) := by
  have htail := Boardmod.map_bare fun token ht => hbare token (List.mem_of_mem_tail ht)
  rcases Boardmod.located_cases b t hk with
    ⟨hnone, hkeep, hhead⟩ | ⟨text, path, hsome, hlocated⟩
  · rw [hnone, hkeep]
    cases group with
    | nil => rfl
    | cons head tail => exact congrArg (Option.map _) hhead
  · have hstrays : group.tail.map Boardmod.stray =
        group.tail.map fun token => Boardmod.stray { token with theme := Theme.noCustom } := by
      refine List.map_congr_left fun token ht => ?_
      rw [← hbare token (List.mem_of_mem_tail ht)]
      rfl
    rw [hsome, hlocated]
    unfold Task.run?
    dsimp only
    rw [htail, hstrays]
    rfl

theorem runs_copyGroups (hbare : ∀ token ∈ group, token.bare = token)
    (hk : ∀ token ∈ group.tail, token.kind ≠ .file) (index : CopyIndex) :
    (Boardmod.copyGroups index (group.map (Boardmod.locate b t))).filterMap
      (Task.run? ∘ .group) = (Boardmod.edits? b t group).toList.flatMap fun x =>
        (index.copiesOf x.1).map fun c => x.2.on c c.theme := by
  have htail := Boardmod.map_bare fun token ht => hbare token (List.mem_of_mem_tail ht)
  unfold Boardmod.copyGroups
  rcases Boardmod.located_cases b t hk with
    ⟨hnone, hkeep, hhead⟩ | ⟨text, path, hsome, hlocated⟩
  · rw [hnone, hkeep, hhead]
    rfl
  · rw [hsome, hlocated]
    have hcopy (c : ThemeCopy) : Task.run? (.group (Boardmod.copyGroup c
        (⟨.file, text, some path, Theme.owner b.themes path⟩ :: group.tail))) =
        some ((Edits.stream group.tail).on c c.theme) := by
      have hbody : (group.tail.map fun token => ({ token with
          theme := c.theme
          path := if token.kind = .file then some c.path else token.path } : Token)).map Token.bare =
          group.tail := by
        rw [List.map_map]
        exact htail
      unfold Task.run? Boardmod.copyGroup
      rw [List.map_cons]
      dsimp only
      rw [hbody, List.map_map]
      rfl
    rw [List.head?_cons, Option.bind_some]
    dsimp only [Boardmod.fileOf?]
    rw [if_pos rfl]
    dsimp only
    rw [List.filterMap_map, Option.toList_some, List.flatMap_singleton, ← List.filterMap_eq_map]
    exact List.filterMap_congr fun c _ => hcopy c

section
variable {gs : List (List Token)} (hbare : ∀ group ∈ gs, ∀ token ∈ group, token.bare = token)
  (hk : ∀ group ∈ gs, ∀ token ∈ group.tail, token.kind ≠ .file)
include hbare hk

theorem paths_located : ((gs.map (List.map (Boardmod.locate b t))).flatten).filterMap (·.path) =
    (gs.filterMap (Boardmod.edits? b t)).map (·.1) := by
  rw [List.filterMap_flatten, List.map_map, List.map_filterMap, List.filterMap_eq_flatMap_toList]
  exact List.flatMap_congr fun group hg =>
    Boardmod.filterMap_path_located (hbare group hg) (hk group hg)

theorem runs_located : (gs.map (List.map (Boardmod.locate b t))).filterMap (Task.run? ∘ .group) =
    (gs.filterMap (Boardmod.edits? b t)).map (own b) := by
  rw [List.filterMap_map, List.map_filterMap]
  exact List.filterMap_congr fun group hg => run?_located (hbare group hg) (hk group hg)

theorem runs_copied (index : CopyIndex) :
    ((gs.map (List.map (Boardmod.locate b t))).flatMap (Boardmod.copyGroups index)).filterMap
      (Task.run? ∘ .group) = (gs.filterMap (Boardmod.edits? b t)).flatMap fun x =>
        (index.copiesOf x.1).map fun c => x.2.on c c.theme := by
  rw [List.flatMap_map, List.filterMap_flatMap, List.filterMap_eq_flatMap_toList _ gs,
    List.flatMap_assoc]
  exact List.flatMap_congr fun group hg => runs_copyGroups (hbare group hg) (hk group hg) index

end

theorem files_of_nameless {raw : String} (h : Boardmod.namesFile raw = false) :
    (Patch.stream raw).files b t = [] := by
  refine List.filterMap_eq_nil_iff.2 fun group hg => ?_
  cases group with
  | nil => rfl
  | cons head tail =>
    have hmem : head ∈ (Boardmod.groups (Token.tokens raw.toList)).flatten :=
      List.mem_flatten.2 ⟨_, hg, List.mem_cons_self ..⟩
    rw [Boardmod.flatten_groups] at hmem
    exact if_neg (by simpa using List.any_eq_false.1 h head hmem)

theorem runs_stream (raw : String) :
    ((Patch.stream raw).tasks b t).filterMap Task.run? = (Patch.stream raw).fanOut b t := by
  have hflat := Boardmod.flatten_groups (Token.tokens raw.toList)
  have hbare : ∀ group ∈ Boardmod.groups (Token.tokens raw.toList), ∀ token ∈ group,
      token.bare = token := by
    intro group hg token ht
    have hmem := List.mem_flatten.2 ⟨group, hg, ht⟩
    rw [hflat] at hmem
    exact Token.bare_of_mem_tokens hmem
  have hk := fun group (hg : group ∈ Boardmod.groups (Token.tokens raw.toList)) =>
    Boardmod.kind_ne_of_mem_tail hg
  have hpaths := paths_located (b := b) (t := t) hbare hk
  rw [← List.map_flatten, hflat] at hpaths
  unfold tasks fanOut
  dsimp only
  cases hn : Boardmod.namesFile raw with
  | false => rw [files_of_nameless hn]; rfl
  | true =>
    rw [if_pos rfl, List.filterMap_map, Boardmod.visited, Boardmod.groups_fannedOut,
      List.filterMap_append, Boardmod.groups_map Boardmod.kind_locate, runs_located hbare hk,
      runs_copied hbare hk, hpaths, List.flatMap_congr fun x hx => copies_eq hx]
    rfl

/-- Some runs, in their order, lead from one progress to another. Nothing else happens on the way
but that errors are recorded which belong to no file. -/
inductive Carried (b : Board) (o : PatchOptions) : List Run → Progress → Progress → Prop where
  | done (p : Progress) : Carried b o [] p p
  | run {run : Run} {runs : List Run} {p p' : Progress}
      (rest : Carried b o runs (run.carryOut b o p) p') : Carried b o (run :: runs) p p'
  | error {new : List Event} {runs : List Run} {p p' : Progress}
      (h : ∀ e ∈ new, e.path = none ∧ e.kind.isFailure = true)
      (rest : Carried b o runs (p.extend new) p') : Carried b o runs p p'

theorem carried_foldl {patch : Patch} {tasks : List Task}
    (h : ∀ task ∈ tasks, task ∈ patch.tasks b t) (p : Progress) :
    Carried b o (tasks.filterMap Task.run?) p (tasks.foldl (perform b o) p) := by
  induction tasks generalizing p with
  | nil => exact .done p
  | cons task tasks ih =>
    obtain ⟨htask, hrest⟩ := List.forall_mem_cons.1 h
    rw [List.foldl_cons]
    cases hr : task.run? with
    | some run =>
      rw [List.filterMap_cons_some hr, perform_eq_carryOut htask hr]
      exact .run (ih hrest _)
    | none =>
      obtain ⟨new, hp, hnew⟩ := perform_of_no_run (b := b) (o := o) htask hr p
      rw [List.filterMap_cons_none hr, hp]
      exact .error (fun e he => ⟨(hnew e he).1, (hnew e he).2.1⟩) (ih hrest _)

theorem isRefusal_of_mem_problems {raw : List Char} {problem : Problem}
    (h : problem ∈ Token.problems raw) : (EventKind.error problem).isRefusal = false := by
  obtain ⟨scanned, -, hs⟩ := List.mem_filterMap.1 h
  cases scanned <;> cases hs
  rfl

theorem opening_eq (patch : Patch) (s : Site) :
    ∃ new, patch.opening b s = (⟨s, .empty⟩ : Progress).extend new ∧
      ∀ e ∈ new, e.path = none ∧ e.kind.isFailure = true ∧ e.kind.isRefusal = false := by
  cases patch with
  | modification d =>
    unfold opening
    dsimp only
    split
    · exact ⟨_, Progress.fail_eq _ _ _ rfl, by simp [EventKind.isFailure, EventKind.isRefusal]⟩
    · exact ⟨[], (Progress.extend_nil _).symm, by simp⟩
  | stream raw =>
    have hproblems : ∀ e ∈ (Token.problems raw.toList).map fun problem =>
        (⟨none, Theme.noCustom, .error problem⟩ : Event),
        e.path = none ∧ e.kind.isFailure = true ∧ e.kind.isRefusal = false := by
      intro e he
      obtain ⟨problem, hp, rfl⟩ := List.mem_map.1 he
      exact ⟨rfl, rfl, isRefusal_of_mem_problems hp⟩
    unfold opening Boardmod.start
    dsimp only
    rw [Boardmod.reportProblems_eq]
    split
    · exact ⟨_, rfl, hproblems⟩
    · rw [Progress.fail_eq _ _ _ rfl, ← Progress.extend_append]
      exact ⟨_, rfl, List.forall_mem_append.2
        ⟨hproblems, by simp [EventKind.isFailure, EventKind.isRefusal]⟩⟩

theorem runs_eq_fanOut (patch : Patch) :
    (patch.tasks b t).filterMap Task.run? = patch.fanOut b t := by
  cases patch with
  | modification d => exact runs_modification d
  | stream raw => exact runs_stream raw

theorem fanOut_cases {patch : Patch} {run : Run} (hr : run ∈ patch.fanOut b t) :
    ∃ x ∈ patch.files b t, run = own b x ∨ run ∈ patch.copies b t x := by
  cases patch with
  | modification d =>
    obtain ⟨x, hx, hr⟩ := List.mem_flatMap.1 hr
    exact ⟨x, hx, List.mem_cons.1 hr⟩
  | stream raw =>
    rcases List.mem_append.1 hr with hown | hr
    · obtain ⟨x, hx, rfl⟩ := List.mem_map.1 hown
      exact ⟨x, hx, .inl rfl⟩
    · obtain ⟨x, hx, hr⟩ := List.mem_flatMap.1 hr
      exact ⟨x, hx, .inr hr⟩

theorem on_of_mem_fanOut {patch : Patch} {run : Run} (hr : run ∈ patch.fanOut b t) :
    ∃ edits file theme, run = Edits.on edits file theme := by
  obtain ⟨x, -, rfl | hc⟩ := fanOut_cases hr
  · exact ⟨_, _, _, rfl⟩
  · obtain ⟨c, -, rfl⟩ := List.mem_map.1 hc
    exact ⟨x.2, c, c.theme, rfl⟩

theorem path_of_mem_strays {patch : Patch} {run : Run} (hr : run ∈ patch.fanOut b t) {e : Event}
    (he : e ∈ run.strays) : e.path = none := by
  obtain ⟨edits, file, theme, rfl⟩ := on_of_mem_fanOut hr
  cases edits with
  | block document => cases he
  | stream body =>
    obtain ⟨token, -, rfl⟩ := List.mem_map.1 he
    rfl

theorem carried_fanOut (b : Board) (o : PatchOptions) (patch : Patch) (s : Site) :
    Carried b o (patch.fanOut b s.tree) ⟨s, .empty⟩ (patch.applyTo b o s) := by
  obtain ⟨new, hopening, hnew⟩ := opening_eq (b := b) patch s
  rw [applyTo_eq_foldl, ← runs_eq_fanOut]
  refine .error (fun e he => ⟨(hnew e he).1, (hnew e he).2.1⟩) ?_
  rw [← hopening]
  exact carried_foldl (fun _ h => h) _

/-- A patch is its runs: one on each file that it names, and one on each copy of the file that the
custom themes hold at the start, with the same edits. Everything that a run records is recorded
under its own path and theme, but for the searches and edits of a stream whose file cannot be
opened. -/
theorem carried_applyTo (b : Board) (o : PatchOptions) (patch : Patch) (s : Site) :
    Carried b o (patch.fanOut b s.tree) ⟨s, .empty⟩ (patch.applyTo b o s) ∧
    (∀ x ∈ patch.files b s.tree, (∀ main ∈ Theme.default? b.themes, main.contains x.1 = false) →
      patch.copies b s.tree x = []) ∧
    (∀ x ∈ patch.files b s.tree, (∀ y ∈ patch.files b s.tree, y.1.same x.1 = true → y.1 = x.1) →
      patch.copies b s.tree x =
        (ThemeCopy.holders b.themes s.tree x.1).map fun c => x.2.on c c.theme) ∧
    ∀ run ∈ patch.fanOut b s.tree, ∀ p, ∃ new,
      (run.carryOut b o p).report = p.report.extend new ∧
      ∀ e ∈ new, (e.path = some run.file.path ∧ e.theme = run.file.theme) ∨
        (e.path = none ∧ e ∈ run.strays ∧
          ∃ kind, run.edits.revise o.undo (p.site.tree.file? run.file.path) = .left kind) := by
  refine ⟨carried_fanOut b o patch s, fun x _ hout => ?_, fun x _ hunique => ?_,
    fun run hr p => ?_⟩
  · unfold copies
    rw [CopyIndex.holders_spelling_of_outside hout]
    rfl
  · have hpaths : ∀ q ∈ (patch.files b s.tree).map (·.1), q.same x.1 = true → q = x.1 :=
      List.forall_mem_map.2 hunique
    unfold copies
    rw [CopyIndex.spelling_of_unique hpaths]
  · obtain ⟨new, hrecords, hnew⟩ := run.extends_carryOut (b := b) (o := o) p
    refine ⟨new, hrecords, fun e he => ?_⟩
    rcases hnew e he with hown | ⟨hstray, hleft⟩
    · exact .inl hown
    · exact .inr ⟨path_of_mem_strays hr hstray, hstray, hleft⟩

def bytesCopySite : Site :=
  ⟨⟨[(["t"], .directory 0o755), (["t", "d"], .directory 0o755), (["t", "o"], .directory 0o755),
    (["t", "d", "x"], .file (.text "a") 0o644), (["t", "o", "x"], .file (.bytes [0xff]) 0o644)], []⟩,
    .byMode⟩

def editStream : Patch :=
  .stream "<file>\n/t/d/x\n</file>\n<search>\na\n</search>\n<add>\nb\n</add>\n"

/-- The run on such a copy records its search and its edit without the path of the copy. -/
theorem carried_applyTo_bytes : ∃ run ∈ editStream.fanOut themedBoard bytesCopySite.tree,
    run.file = ⟨2, ⟨"/t/o/x"⟩⟩ ∧ bytesCopySite.tree.isFile run.file.path = true ∧
      ∃ e ∈ (run.carryOut themedBoard ⟨false, false⟩ ⟨bytesCopySite, .empty⟩).report.events,
        e.path ≠ some run.file.path := by
  decide +kernel

end Patch

end Patchboard
