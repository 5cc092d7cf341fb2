import Patchboard.Proofs.Cursor.Touching
import Patchboard.Proofs.Tree.Kinds

set_option autoImplicit false

namespace Patchboard
open Tree

namespace Cursor

variable {c : RunContext} {a : Action} {s : Cursor} {base t u : Tree} {p : Path}

/-- Where a path leads to stands a file for an action on directories, or a directory for an action
on files. -/
def clashes (a : Action) (t : Tree) (p : Path) : Bool :=
  match t.locate p with
  | .ok place => (t.at? place).any fun entry => entry.isFile = a.kind.isDirectory
  | .error _ => false

theorem clashes_iff : clashes a t p = true ↔ ∃ place entry, t.locate p = .ok place ∧
    t.at? place = some entry ∧ entry.isFile = a.kind.isDirectory := by
  unfold clashes
  cases hl : t.locate p with
  | error e => simp
  | ok place => simp [Option.any_eq_true]

theorem file_of_clashes (hd : a.kind.isDirectory = true) (hc : clashes a t p = true) :
    ∃ place contents mode, t.locate p = .ok place ∧ t.at? place = some (.file contents mode) := by
  obtain ⟨place, entry, hl, hat, hkind⟩ := clashes_iff.1 hc
  rw [hd] at hkind
  cases entry with
  | file contents mode => exact ⟨place, contents, mode, hl, hat⟩
  | directory mode => cases hkind

theorem directory_of_clashes (hd : a.kind.isDirectory = false) (hc : clashes a t p = true) :
    ∃ place mode, t.locate p = .ok place ∧ t.at? place = some (.directory mode) := by
  obtain ⟨place, entry, hl, hat, hkind⟩ := clashes_iff.1 hc
  rw [hd] at hkind
  cases entry with
  | file contents mode => cases hkind
  | directory mode => exact ⟨place, mode, hl, hat⟩

theorem clashes_of_outgrown (h : Outgrown t u) (hc : clashes a t p = true) :
    clashes a u p = true := by
  obtain ⟨written, hg⟩ := h
  obtain ⟨place, entry, hl, hat, hkind⟩ := clashes_iff.1 hc
  have hl' := locate_of_grown hg hl
  cases entry with
  | file contents mode =>
    obtain ⟨contents', hlook⟩ := hg.file place contents (look_file hat)
    obtain ⟨mode', hat'⟩ := at?_of_look_file hlook
    exact clashes_iff.2 ⟨place, _, hl', hat', hkind⟩
  | directory mode =>
    obtain ⟨mode', hat'⟩ := at?_of_look_directory (hg.directory place (look_directory hat))
    exact clashes_iff.2 ⟨place, _, hl', hat', hkind⟩

theorem source_of_sourcePresent (h : sourcePresent a t = true) : ∃ source entry,
    a.source = some source ∧ t.at? (t.lexicalPlace source) = some entry ∧
      entry.isFile ≠ a.kind.isDirectory := by
  obtain ⟨source, hs, hkind⟩ := (Option.any_eq_true _ _).1 h
  split at hkind
  · rename_i hd
    obtain ⟨mode, hf⟩ := find_of_isDirectory hkind
    exact ⟨source, _, hs, (find_ok hf).2, by rw [hd]; nofun⟩
  · rename_i hd
    rw [isFile_eq_file?] at hkind
    obtain ⟨contents, hf⟩ := Option.isSome_iff_exists.1 hkind
    obtain ⟨-, place, mode, hl, hat⟩ := file?_eq_some.1 hf
    rw [locate_ok hl] at hat
    exact ⟨source, _, hs, hat, by simpa [Entry.isFile] using hd⟩

theorem untouched_move_of_clashes (hs : sourcePresent a t = true) (hc : clashes a t p = true) :
    Untouched t ((FileTree.move (a.source.getD p) p).run.run t).2 := by
  obtain ⟨place, entry, hl, hat, hkind⟩ := clashes_iff.1 hc
  obtain ⟨source, moved, hsource, hmoved, hother⟩ := source_of_sourcePresent hs
  rw [hsource]
  exact untouched_move hmoved hl hat (hkind ▸ hother)

theorem untouched_execute (hk : a.kind.isFileTree = true) (hr : a.kind.isRemoval = false)
    (hs : a.kind.takesSource = true → sourcePresent a t = true) (hc : clashes a t p = true) :
    Untouched t ((execute a p).run.run t).2 := by
  unfold execute
  cases hname : a.kind with
  | createFile =>
    obtain ⟨place, mode, hl, hat⟩ := directory_of_clashes (by rw [hname]; rfl) hc
    dsimp only
    unfold createFile
    rw [run_bind, run_get]
    dsimp only
    split
    · exact .refl t
    · exact untouched_write hl hat ""
  | createDir =>
    obtain ⟨place, contents, mode, hl, hat⟩ := file_of_clashes (by rw [hname]; rfl) hc
    dsimp only
    rw [Job.ofAction, run_adapt, run_makeDirectories_of_file hl hat]
    exact .refl t
  | requireFile =>
    obtain ⟨place, mode, hl, hat⟩ := directory_of_clashes (by rw [hname]; rfl) hc
    exact untouched_copyFile hl hat
  | requireDir =>
    obtain ⟨place, contents, mode, hl, hat⟩ := file_of_clashes (by rw [hname]; rfl) hc
    exact untouched_copyDirectory hl hat
  | moveFile | moveDir => exact untouched_move_of_clashes (hs (by rw [hname]; rfl)) hc
  | removeFile | removeDir =>
    rw [hname] at hr
    cases hr
  | modification | code | database | hook | credits | requires | readme | license | redirect
  | error | chmod =>
    rw [hname] at hk
    cases hk

def worked (a : Action) (t : Tree) (f : FileResult) : Bool := tried f && !clashes a t f.path

theorem confinedTo_worked (ht : c.options.testing = false) (hk : a.kind.isFileTree = true)
    (hr : a.kind.isRemoval = false) (theme : Nat) (s : Cursor) (p : Path)
    (hw : s.site.tree.working = base.working) (hg : Grows base s.site.tree) :
    ConfinedTo (worked a base) a base [⟨a, p, (runAt c a p theme s).1⟩] s.site.tree
      (runAt c a p theme s).2.site.tree := by
  rcases runAt_cases (a := a) ht theme s p with ⟨-, hsame⟩ | ⟨habsent, hstatus, htree, -⟩
  · rw [hsame]
    exact .refl
  · rw [htree]
    by_cases hc : clashes a base p = true
    · -- what clashes with the first tree still clashes, since the runs before only added
      have huntouched := untouched_execute hk hr (fun htakes => sourcePresent_of_present htakes habsent)
        (clashes_of_outgrown hg.outgrown hc)
      exact Confined.mono huntouched (fun _ => False.elim) fun _ hm => absurd hm List.not_mem_nil
    · have hworked : worked a base ⟨a, p, (runAt c a p theme s).1⟩ = true := by
        simp [worked, tried, hstatus, hc]
      by_cases hrequire : a.kind.isRequire = true
      · exact .single hworked (frames_execute hrequire p s.site.tree hw hg.regular).1
      · have hdir : a.kind ≠ .requireDir := fun h => hrequire (by rw [h]; rfl)
        exact .single hworked (confines_execute hk hdir p s.site.tree hw)

theorem sites_of_single (hq : a.kind.isRequire = false) (hr : a.kind.isRemoval = false) :
    sites c a s = a.destination.toList.map fun destination => ⟨Theme.noCustom, destination⟩ := by
  unfold sites ThemeCopy.ofAction
  rw [hq, hr]
  cases a.destination <;> rfl

theorem target_unique (hq : a.kind.isRequire = false) (hr : a.kind.isRemoval = false)
    {f g : FileResult} (hf : f ∈ targets c a s) (hg : g ∈ targets c a s) : g = f := by
  unfold targets filed at hf hg
  rw [sites_of_single hq hr] at hf hg
  cases hd : a.destination with
  | none => simp [hd] at hf
  | some destination =>
    cases hresults : (runTree c a s).1 with
    | nil => simp [hresults] at hf
    | cons r rs =>
      simp only [hd, hresults, Option.toList_some, List.map_cons, List.map_nil, List.zip_cons_cons,
        List.zip_nil_left, List.mem_singleton] at hf hg
      rw [hf, hg]

/-- Unless it removes, a tree action changes nothing that lies apart from the targets where it was
tried and does not clash. -/
theorem confinedTo_runTree_worked (ht : c.options.testing = false)
    (hk : a.kind.isFileTree = true) (hr : a.kind.isRemoval = false)
    (hregular : s.site.tree.Regular) :
    ConfinedTo (worked a s.site.tree) a s.site.tree (targets c a s) s.site.tree
      (runTree c a s).2.site.tree := by
  cases hd : a.destination with
  | none =>
    unfold runTree
    rw [hd]
    exact .refl
  | some destination =>
    unfold targets
    rw [runTree_eq_runAll hd]
    refine confinedTo_runAll (fun theme s p hw hg => confinedTo_worked ht hk hr theme s p hw hg)
      (fun hlen theme s p _ hg => ?_) rfl fun _ => ⟨hregular, lasting_outgrown.refl _⟩
    cases hq : a.kind.isRequire with
    | true => exact grows_runAt ht hq theme s p hg
    | false =>
      rw [sites_of_single hq hr, hd] at hlen
      exact absurd hlen (Nat.lt_irrefl 1)

theorem execute_removal (hr : a.kind.isRemoval = true) (p : Path) :
    execute a p = FileTree.remove p := by
  unfold execute
  cases hkind : a.kind with
  | removeFile | removeDir => rfl
  | createFile | createDir | requireFile | requireDir | moveFile | moveDir | modification | code
  | database | hook | credits | requires | readme | license | redirect | error | chmod =>
    rw [hkind] at hr
    cases hr

theorem pathExists_of_present (hr : a.kind.isRemoval = true) (h : absent? a p t = none) :
    t.pathExists p = true := by
  unfold absent? at h
  split at h
  · cases h
  · cases hp : t.pathExists p with
    | true => rfl
    | false =>
      rw [hr, hp] at h
      cases h

theorem shrunk_runAt (ht : c.options.testing = false) (hr : a.kind.isRemoval = true) (theme : Nat)
    (s : Cursor) (p : Path) : Shrunk s.site.tree (runAt c a p theme s).2.site.tree := by
  rcases runAt_cases (a := a) ht theme s p with ⟨-, hsame⟩ | ⟨-, -, htree, -⟩
  · rw [hsame]
    exact lasting_shrunk.refl _
  · rw [htree, execute_removal hr]
    exact shrunk_remove p s.site.tree

theorem shrunk_runAll (ht : c.options.testing = false) (hr : a.kind.isRemoval = true)
    (places : List ThemeCopy) (s : Cursor) :
    Shrunk s.site.tree (runAll c a places s).2.site.tree := by
  induction places generalizing s with
  | nil => exact lasting_shrunk.refl _
  | cons place places ih =>
    exact lasting_shrunk.trans (shrunk_runAt ht hr place.theme s place.path) (ih _)

/-- A removal that is tried at a path that ends in a name is saved. Where one is saved nothing is left,
whatever was there; but a directory stays, with nothing below it, when the path led through what it
held. -/
theorem removed_runAt (ht : c.options.testing = false) (hr : a.kind.isRemoval = true) (theme : Nat)
    (s : Cursor) (p : Path) :
    ((runAt c a p theme s).1.status ≠ .missing → endsInName p = true →
        (runAt c a p theme s).1.status = .saved) ∧
      ((runAt c a p theme s).1.status = .saved →
        (∀ name rel, (runAt c a p theme s).2.site.tree.at?
            (s.site.tree.lexicalPlace p ++ name :: rel) = none) ∧
          (¬s.site.tree.DoublesBack p →
            (runAt c a p theme s).2.site.tree.Vacant (s.site.tree.lexicalPlace p))) := by
  rcases runAt_cases (a := a) ht theme s p with ⟨hmissing, -⟩ | ⟨habsent, -, htree, hsaved⟩
  · rw [hmissing]
    exact ⟨fun h => absurd rfl h, nofun⟩
  · have hthere := pathExists_of_present hr habsent
    rw [execute_removal hr] at htree hsaved
    rw [hsaved, htree]
    exact ⟨fun _ hn => run_remove hthere hn,
      fun hok => vacant_remove hthere (Prod.ext hok rfl)⟩

theorem removed_runAll (ht : c.options.testing = false) (hr : a.kind.isRemoval = true)
    {places : List ThemeCopy} (hw : s.site.tree.working = base.working) {f : FileResult}
    (hf : f ∈ filed a places (runAll c a places s).1) :
    (tried f = true → endsInName f.path = true → f.result.status = .saved) ∧
      (f.result.status = .saved →
        (∀ name rel, (runAll c a places s).2.site.tree.at?
            (base.lexicalPlace f.path ++ name :: rel) = none) ∧
          (¬base.DoublesBack f.path →
            (runAll c a places s).2.site.tree.Vacant (base.lexicalPlace f.path))) := by
  induction places generalizing s with
  | nil => cases hf
  | cons place places ih =>
    rw [filed_runAll_cons] at hf
    rcases List.mem_cons.1 hf with rfl | hf
    · obtain ⟨hname, hvacant⟩ := removed_runAt (a := a) ht hr place.theme s place.path
      refine ⟨fun htried => hname (of_decide_eq_true htried), fun hsaved => ?_⟩
      have hshrunk := shrunk_runAll (a := a) ht hr places (runAt c a place.path place.theme s).2
      obtain ⟨hbelow, hgone⟩ := hvacant hsaved
      rw [lexicalPlace_congr hw] at hbelow hgone
      rw [doublesBack_congr hw] at hgone
      exact ⟨fun name rel => hshrunk.absent _ (hbelow name rel),
        fun hn => (hgone hn).of_shrunk hshrunk⟩
    · exact ih ((shrunk_runAt ht hr place.theme s place.path).working.trans hw) hf

/-- What a tree action makes of things of the other kind, when it is carried out on a tree in which
everything stands in a directory under a name. What is created or moved leaves the whole tree as it
is when its target clashes. What is required leaves a target that clashes as it is, with everything
below it, but where another target of it reaches, and but for new directories on the way to another
one. A removal asks for no kind: it is saved at every target that is there when its turn comes and
that the last piece of the path names, and where it is saved nothing is left below the target, nor
the target itself unless it is a directory and the path leads through what it holds. -/
theorem kinds_of_targets (c : RunContext) (actions : List Action) (index : Nat) (a : Action)
    (s : Cursor) (ht : c.options.testing = false) (hk : a.kind.isFileTree = true)
    (hregular : s.site.tree.Regular) :
    let t := s.site.tree
    let ran := runAction c actions index a s
    let t' := ran.2.site.tree
    let files := targets c a s
    let fitting := files.filter fun f => !clashes a t f.path
    (∀ destination ∈ a.destination, files.map (·.result) = ran.1) ∧
    (a.kind.isRemoval = false → ∀ f ∈ files, clashes a t f.path = true →
      (∀ place, t.lexicalPlace f.path <+: place →
        (∀ g ∈ fitting, tried g = true → ¬Reaches a t g.path place) →
          t'.at? place = t.at? place ∨ MadeOnWay fitting t t' place) ∧
      (a.kind.isRequire = false → ∀ place, t'.at? place = t.at? place)) ∧
    (a.kind.isRemoval = true → ∀ f ∈ files,
      (tried f = true → endsInName f.path = true → f.result.status = .saved) ∧
      (f.result.status = .saved →
        (∀ name rel, t'.at? (t.lexicalPlace f.path ++ name :: rel) = none) ∧
        (¬t.DoublesBack f.path → t'.Vacant (t.lexicalPlace f.path)))) := by
  dsimp only
  rw [runAction_tree hk]
  refine ⟨fun destination hd => results_targets hd, fun hr f hf hc => ?_, fun hr f hf => ?_⟩
  · have hconfined := confinedTo_runTree_worked ht hk hr hregular
    refine ⟨fun place _ hp => ?_, fun hq place => ?_⟩
    · refine (hconfined.outside fun g hg hworked => ?_).imp_right (And.imp_left ?_)
      · obtain ⟨htried, hfits⟩ := Bool.and_eq_true_iff.1 hworked
        exact hp g (List.mem_filter.2 ⟨hg, hfits⟩) htried
      · rintro ⟨g, hg, hworked, hway⟩
        obtain ⟨htried, hfits⟩ := Bool.and_eq_true_iff.1 hworked
        exact ⟨g, List.mem_filter.2 ⟨hg, hfits⟩, htried, hway⟩
    · -- the only target is the one that clashes
      have hidle (g : FileResult) (hg : g ∈ targets c a s) : ¬worked a s.site.tree g = true := by
        rw [target_unique hq hr hf hg, worked, hc]
        simp
      exact (hconfined.outside fun g hg hworked => absurd hworked (hidle g hg)).resolve_right
        fun ⟨⟨g, hg, hworked, _⟩, _⟩ => hidle g hg hworked
  · cases hd : a.destination with
    | none => simp [targets, sites, filed, hd] at hf
    | some destination =>
      unfold targets at hf
      rw [runTree_eq_runAll hd] at hf ⊢
      exact removed_runAll ht hr rfl hf

def requiredFile (destination : Path) : Action :=
  { Action.make .requireFile "x" with
    source := some ⟨"/s/x"⟩, destination := some destination, detail := .tree .yes }

theorem kinds_of_required_file :
    let a := requiredFile ⟨"/t/d/n"⟩
    let t := requiringSite.tree
    let t' := (runAction themedContext [a] 0 a (start requiringSite)).2.site.tree
    t.Regular ∧ (targets themedContext a (start requiringSite)).map
        (fun f => (f.path, f.result.status)) = [(⟨"/t/d/n"⟩, .saved), (⟨"/t/o/n"⟩, .failed)] ∧
      clashes a t ⟨"/t/o/n"⟩ = true ∧
      t'.at? ["t", "o", "n", "x"] = some (.file (.text "old") 0o600) := by
  have hregular : requiringSite.tree.Regular :=
    ⟨closed_of_entries (by decide), named_of_entries (by decide)⟩
  obtain ⟨-, hkept, -⟩ := kinds_of_targets themedContext [requiredFile ⟨"/t/d/n"⟩] 0
    (requiredFile ⟨"/t/d/n"⟩) (start requiringSite) rfl rfl hregular
  have hclash : clashes (requiredFile ⟨"/t/d/n"⟩) requiringSite.tree ⟨"/t/o/n"⟩ = true := by
    decide +kernel
  have hfiles : (targets themedContext (requiredFile ⟨"/t/d/n"⟩) (start requiringSite)).map
      (fun f => (f.path, f.result.status)) =
        [(⟨"/t/d/n"⟩, .saved), (⟨"/t/o/n"⟩, .failed)] := by decide +kernel
  have hcopy : ((⟨"/t/o/n"⟩ : Path), Status.failed) ∈
      (targets themedContext (requiredFile ⟨"/t/d/n"⟩) (start requiringSite)).map
        (fun f => (f.path, f.result.status)) := by
    rw [hfiles]
    simp
  obtain ⟨f, hf, hfile⟩ := List.mem_map.1 hcopy
  obtain ⟨hpath, -⟩ := Prod.mk.inj hfile
  obtain ⟨hbelow, -⟩ := hkept rfl f hf (hpath ▸ hclash)
  have hplace : requiringSite.tree.lexicalPlace f.path <+: ["t", "o", "n", "x"] := by
    rw [hpath]
    exact ⟨["x"], rfl⟩
  -- the other target is not above what stands in the directory
  have hothers : ∀ p ∈ ((targets themedContext (requiredFile ⟨"/t/d/n"⟩)
      (start requiringSite)).filter fun g => !clashes (requiredFile ⟨"/t/d/n"⟩) requiringSite.tree
        g.path).map (fun g => requiringSite.tree.lexicalPlace g.path),
        ¬p <+: ["t", "o", "n", "x"] := by decide +kernel
  refine ⟨hregular, hfiles, hclash,
    ((hbelow _ hplace fun g hg _ => ?_).resolve_right ?_).trans rfl⟩
  · rw [reaches_of_require rfl]
    exact hothers _ (List.mem_map_of_mem hg)
  · rintro ⟨⟨g, -, -, -, hnone⟩, -⟩
    cases hnone

def removal (kind : ActionKind) (destination : Path) : Action :=
  { Action.make kind destination.text with destination := some destination }

def nestedContext : RunContext :=
  boardContext [⟨1, "default", ⟨"/m/d"⟩⟩, ⟨2, "outer", ⟨"/m"⟩⟩]

def nestedSite : Site :=
  ⟨⟨[(["s"], .directory 0o755), (["s", "x"], .file (.text "new") 0o644),
    (["m"], .directory 0o755), (["m", "d"], .directory 0o755)], []⟩, .byMode⟩

def steppingContext : RunContext :=
  boardContext [⟨1, "default", ⟨"/"⟩⟩, ⟨2, "inner", ⟨"/q"⟩⟩]

def steppingPath : Path := ⟨"/q/n/e/../../../n"⟩

def steppingSite : Site :=
  ⟨⟨[(["s"], .directory 0o755), (["s", "x"], .file (.text "new") 0o644),
    (["q"], .directory 0o755), (["q", "n"], .directory 0o755), (["q", "q"], .directory 0o755),
    (["q", "q", "n"], .directory 0o755), (["q", "q", "n", "e"], .directory 0o755)], []⟩, .byMode⟩

/-- A removal of a file removes a directory with what is in it, and a removal of a directory removes
a file. When a theme lies in another one, a required file can be put below a directory that another
target of it leads to; and a new directory can be made in there on the way of a path that steps up. -/
theorem other_kind_changed :
    let ofFile := runAction doubledContext [removal .removeFile ⟨"/m"⟩] 0
      (removal .removeFile ⟨"/m"⟩) (start doubledSite)
    let ofDirectory := runAction doubledContext [removal .removeDir ⟨"/m/f"⟩] 0
      (removal .removeDir ⟨"/m/f"⟩) (start doubledSite)
    let a := requiredFile ⟨"/m/d/d"⟩
    let nested := runAction nestedContext [a] 0 a (start nestedSite)
    let b := requiredFile steppingPath
    let stepping := runAction steppingContext [b] 0 b (start steppingSite)
    (doubledSite.tree.isDirectory ⟨"/m"⟩ = true ∧ ofFile.1.map (·.status) = [.saved] ∧
      ofFile.2.site.tree.at? ["m"] = none ∧ ofFile.2.site.tree.at? ["m", "f"] = none) ∧
    (doubledSite.tree.isFile ⟨"/m/f"⟩ = true ∧ ofDirectory.1.map (·.status) = [.saved] ∧
      ofDirectory.2.site.tree.at? ["m", "f"] = none) ∧
    ((targets nestedContext a (start nestedSite)).map (fun f => (f.path, f.result.status)) =
        [(⟨"/m/d/d"⟩, .saved), (⟨"/m/d"⟩, .failed)] ∧
      nestedSite.tree.isDirectory ⟨"/m/d"⟩ = true ∧
      nestedSite.tree.at? ["m", "d", "d"] = none ∧
      nested.2.site.tree.at? ["m", "d", "d"] = some (.file (.text "new") 0o644)) ∧
    (targets steppingContext b (start steppingSite)).map (fun f => (f.path, f.result.status)) =
        [(steppingPath, .saved), (⟨"/q/q/n/e/../../../n"⟩, .failed)] ∧
      steppingSite.tree.lexicalPlace ⟨"/q/q/n/e/../../../n"⟩ = ["q", "n"] ∧
      steppingSite.tree.isDirectory ⟨"/q/q/n/e/../../../n"⟩ = true ∧
      steppingSite.tree.at? ["q", "n", "e"] = none ∧
      stepping.2.site.tree.at? ["q", "n", "e"] = some (.directory modeOfNewDirectory) := by
  decide +kernel

end Cursor

end Patchboard
