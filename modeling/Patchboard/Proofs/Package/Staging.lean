import Patchboard.Package
import Patchboard.Proofs.Manifest.Blocks
import Patchboard.Proofs.State.Base
import Patchboard.Proofs.Tree.Framing

set_option autoImplicit false

/-!
Staging a package: its directory below the staging directory holds the files of the package and
nothing else afterwards, and nothing outside of it changes. The name of this directory is made from
the id, so an id that is a dot or two is not kept out: two dots stand for the state directory itself.
-/

namespace Patchboard.Package
open Path Tree StateLayout

attribute [local irreducible] fileStem

variable {l : StateLayout} {directory : Path} {t t' : Tree} {m : Manifest}

theorem reads_readManifest (directory : Path) : Reads (readManifest directory) :=
  .bind lasting_reads (follows_on (.ask lasting_reads _) _ _) fun _ =>
    follows_doing (follows_ofExcept lasting_reads _) _

theorem id_ne_empty_of_parse {raw : String} (h : Manifest.parse raw = .ok m) : m.id ≠ "" := by
  obtain ⟨fields, id, -, hid, -, rfl⟩ := Manifest.parse_eq_ok_iff.1 h
  obtain ⟨-, hfilled⟩ := Option.filter_eq_some_iff.1 hid
  change id ≠ ""
  simpa using hfilled

theorem id_ne_empty (h : ((readManifest directory).run.run t).1 = .ok m) : m.id ≠ "" := by
  unfold readManifest at h
  rw [run_bind, run_on, readText, run_ask] at h
  cases hraw : t.text? (directory.join ⟨manifestName⟩) with
  | error e => rw [hraw] at h; cases h
  | ok raw =>
    rw [hraw] at h
    dsimp only [Except.mapError] at h
    rw [run_doing] at h
    cases hp : Manifest.parse raw with
    | error f => rw [hp] at h; cases h
    | ok m' =>
      rw [hp] at h
      cases h
      exact id_ne_empty_of_parse hp

theorem run_clearStaging_absent {p : Path} (h : t.pathExists p = false) :
    (clearStaging p).run.run t = (.ok (), t) := by
  unfold clearStaging
  rw [run_bind, run_get]
  dsimp only
  rw [if_neg (by simp [h])]
  rfl

theorem confined_clearStaging (p : Path) (t : Tree) :
    Confined (t.lexicalPlace p <+: ·) [] t ((clearStaging p).run.run t).2 := by
  have hconfines : Confines t (t.lexicalPlace p <+: ·) [] (clearStaging p) := by
    refine .bind (.of_reads fun _ => rfl) fun u => ?_
    split
    · exact confines_on (confines_removeDirectory fun _ => id) _ _
    · exact .of_reads fun _ => rfl
  exact hconfines t rfl

theorem clearStaging_cases {p : Path} {name : String} (hn : IsName name) (t : Tree) :
    (∃ f, (clearStaging (p.join ⟨name⟩)).run.run t = (.error f, t)) ∨
      ∃ t', (clearStaging (p.join ⟨name⟩)).run.run t = (.ok (), t') ∧
        Confined (t.lexicalPlace (p.join ⟨name⟩) <+: ·) [] t t' ∧
        (t' = t ∧ t.pathExists (p.join ⟨name⟩) = false ∨ (¬t.DoublesBack (p.join ⟨name⟩) →
          ∀ rel, t'.at? (t.lexicalPlace (p.join ⟨name⟩) ++ rel) = none)) := by
  cases he : t.pathExists (p.join ⟨name⟩) with
  | false => exact .inr ⟨t, run_clearStaging_absent he, .refl t, .inl ⟨rfl, rfl⟩⟩
  | true =>
    unfold clearStaging
    rw [run_bind, run_get]
    dsimp only
    rw [if_pos he, run_on]
    obtain ⟨found, hfound⟩ := Option.isSome_iff_exists.1 he
    cases hf : t.find (p.join ⟨name⟩) with
    | error e => simp [find?, hf, Except.toOption] at hfound
    | ok found =>
      obtain ⟨place, entry⟩ := found
      cases entry with
      | file contents mode =>
        have hrun : (removeDirectory (p.join ⟨name⟩)).run.run t = (.error .notDirectory, t) := by
          unfold removeDirectory
          rw [run_bind, run_ask, hf]
          rfl
        rw [hrun]
        exact .inl ⟨_, rfl⟩
      | directory mode =>
        obtain ⟨t', hrun, hconfined, hnone⟩ := run_removeDirectory hn hf
        rw [locate_ok (find_ok hf).1] at hconfined hnone
        rw [hrun]
        exact .inr ⟨t', rfl, hconfined, .inr hnone⟩

/-- A package directory and a state directory that lie apart from each other on a disk. -/
structure Stageable (l : StateLayout) (directory : Path) (package : String) (t : Tree) : Prop where
  closed : t.Closed
  named : t.Named
  steady : t.Steady l.root
  /-- The package does not lie in the state directory. -/
  outside : ¬t.lexicalPlace l.root <+: t.lexicalPlace directory
  /-- The way to the state directory leads neither through the package nor through what it is
  staged in. -/
  way : ∀ place ∈ t.way l.root, ¬t.lexicalPlace directory <+: place ∧
    ¬t.lexicalPlace (l.packageStaging package) <+: place

section
variable {package : String} (hn : IsName (fileStem package))
include hn

theorem stageable_of_straight (hc : t.Closed) (ht : t.Named)
    (hs : ∀ s ∈ l.root.steps, s ≠ ['.', '.'])
    (ha : Asunder (t.lexicalPlace l.root) (t.lexicalPlace directory)) :
    Stageable l directory package t := by
  have hbelow : ∀ place ∈ t.way l.root, place <+: t.lexicalPlace l.root := by
    intro place hplace
    obtain ⟨steps, ⟨rest, hrest⟩, rfl⟩ := mem_way.1 hplace
    rw [lexicalPlace_eq, ← hrest, List.foldl_append]
    exact prefix_foldl_stepInto (fun s h => hs s (hrest ▸ List.mem_append_right _ h)) _
  refine ⟨hc, ht, ?_, ha.1, fun place hplace => ⟨fun hp => ha.2 (hp.trans (hbelow place hplace)),
    fun hp => ?_⟩⟩
  · refine steadyFrom_of_forth (fun s h hu => ?_) _
    have hsolid : isIdle s = false := by rw [hu]; rfl
    refine hs s ?_ hu
    rw [← filter_route]
    exact List.mem_filter.2 ⟨h, by simp [hsolid]⟩
  · have hlength := (hp.trans (hbelow place hplace)).length_le
    rw [lexicalPlace_packageStaging _ hn, lexicalPlace_staging] at hlength
    simp only [List.length_append, List.length_cons, List.length_nil] at hlength
    omega

theorem Stageable.asunder (h : Stageable l directory package t) :
    Asunder (t.lexicalPlace directory) (t.lexicalPlace (l.packageStaging package)) := by
  have hroot := h.way _ (lexicalPlace_mem_way t l.root)
  rw [lexicalPlace_packageStaging _ hn, lexicalPlace_staging]
  refine ⟨fun hp => ?_, fun hp => h.outside ?_⟩
  · rw [List.prefix_concat_iff, List.prefix_concat_iff] at hp
    rcases hp with he | he | hp
    · exact h.outside (he ▸ (List.prefix_append _ _).trans (List.prefix_append _ _))
    · exact h.outside (he ▸ List.prefix_append _ _)
    · exact hroot.1 hp
  · exact ((List.prefix_append _ _).trans (List.prefix_append _ _)).trans hp

theorem Stageable.clear (h : Stageable l directory package t) :
    ∀ place ∈ t.way (l.packageStaging package), ¬t.lexicalPlace directory <+: place ∧
      ¬Below (t.lexicalPlace (l.packageStaging package)) place := by
  have hself := h.asunder hn
  have hnot {base place : Place} (hp : ¬base <+: place) : ¬Below base place := by
    rintro ⟨_, _, rfl⟩
    exact hp (List.prefix_append ..)
  intro place hplace
  rw [packageStaging, mem_way_join hn, staging, mem_way_join isName_staging] at hplace
  rcases hplace with (hplace | rfl) | rfl
  · exact (h.way place hplace).imp_right hnot
  · rw [← lexicalPlace_staging]
    rw [lexicalPlace_packageStaging _ hn] at hself ⊢
    refine ⟨fun hp => hself.1 (hp.trans (List.prefix_append ..)), hnot fun hp => ?_⟩
    have hlength := hp.length_le
    simp only [List.length_append, List.length_cons, List.length_nil] at hlength
    omega
  · change ¬_ <+: t.lexicalPlace l.staging ++ _ ∧ ¬Below _ (t.lexicalPlace l.staging ++ _)
    rw [← lexicalPlace_packageStaging _ hn]
    exact ⟨hself.1, not_below_self _⟩

theorem Stageable.not_doublesBack (h : Stageable l directory package t) :
    ¬t.DoublesBack (l.packageStaging package) := by
  rintro ⟨name, rel, hway⟩
  exact (h.clear hn _ hway).2 ⟨name, rel, rfl⟩

end

/-- A staged entry: files keep their contents and mode, directories are new. -/
def fresh : Entry → Entry
  | .file contents mode => .file contents mode
  | .directory _ => .directory modeOfNewDirectory

theorem overlay_none (entry : Option Entry) : overlay entry none = entry.map fresh := by
  rcases entry with _ | _ | _ <;> rfl

theorem isDirectory_of_copyDirectory {source target : Path} (he : target.text.isEmpty = false)
    (h : ((FileTree.copyDirectory source target).run.run t).1 = .ok ()) :
    ∃ made, Grown t made [] ∧ made.isDirectory target = true ∧
      Outgrown made ((FileTree.copyDirectory source target).run.run t).2 := by
  rcases hrun : (FileTree.ensureDirectory target).run.run t with ⟨_ | _, made⟩
  · unfold FileTree.copyDirectory at h
    rw [FileTree.copyDirectoryFrom, run_bind, hrun] at h
    cases h
  · have hprepared := prepared_makeDirectoriesFrom (target.chars.length + 1) target t
    have hmade := run_on_eq_ok.1 hrun
    unfold after at hprepared
    unfold makeDirectories at hmade
    rw [hmade] at hprepared
    have hdirectory := isDirectory_of_makeDirectoriesFrom he hmade
    -- to start from what was made comes to the same
    have hsame : (FileTree.copyDirectory source target).run.run t =
        (FileTree.copyDirectory source target).run.run made := by
      unfold FileTree.copyDirectory
      rw [FileTree.copyDirectoryFrom, run_bind, run_bind, hrun, run_ensure hdirectory]
    refine ⟨made, hprepared.grown, hdirectory, ?_⟩
    rw [hsame]
    exact outgrown_copyDirectory source target made

section
variable {package : String} (hn : IsName (fileStem package)) (h : Stageable l directory package t)
include hn h

theorem Stageable.copied {cleared : Tree}
    (hc : Confined (t.lexicalPlace (l.packageStaging package) <+: ·) [] t cleared) :
    Confined (t.lexicalPlace (l.packageStaging package) <+: ·) (t.way l.staging) t
        ((FileTree.copyDirectory directory (l.packageStaging package)).run.run cleared).2 ∧
      (((FileTree.copyDirectory directory (l.packageStaging package)).run.run cleared).1 =
          .ok () → ∀ rel,
        ((FileTree.copyDirectory directory (l.packageStaging package)).run.run cleared).2.at?
            (t.lexicalPlace (l.packageStaging package) ++ rel) =
          overlay (t.at? (t.lexicalPlace directory ++ rel))
            (cleared.at? (t.lexicalPlace (l.packageStaging package) ++ rel))) := by
  have hasunder := h.asunder hn
  have hsource (rel : Place) : cleared.at? (t.lexicalPlace directory ++ rel) =
      t.at? (t.lexicalPlace directory ++ rel) :=
    at?_of_confined hc (hasunder.not_mem rel)
  have hrooted := (rooted_of_closed h.closed h.named (t.lexicalPlace directory)).congr hsource
  have hsame : cleared.way (l.packageStaging package) = t.way (l.packageStaging package) := by
    rw [Tree.way, Tree.way, origin, origin, hc.working]
  have hway : ∀ place ∈ t.way (l.packageStaging package),
      t.lexicalPlace (l.packageStaging package) <+: place ∨ place ∈ t.way l.staging := by
    intro place hplace
    rw [packageStaging_eq, mem_way_join hn, ← lexicalPlace_packageStaging _ hn] at hplace
    rcases hplace with hplace | he
    · exact .inr hplace
    · exact .inl (by rw [he])
  obtain ⟨hconfined, hoverlaid⟩ := copied_directory (text_packageStaging l hn)
    (lexicalPlace_congr hc.working directory)
    (lexicalPlace_congr hc.working (l.packageStaging package)) hasunder hrooted
    (by rw [hsame]; exact h.clear hn)
  rw [hsame] at hconfined
  refine ⟨(hc.mono (fun _ => id) (by simp)).trans (hconfined.mono (fun _ => id) hway),
    fun hok rel => ?_⟩
  rw [hoverlaid hok, hsource]

theorem Stageable.absent (hx : t.pathExists (l.packageStaging package) = false)
    (hok : ((FileTree.copyDirectory directory (l.packageStaging package)).run.run t).1 = .ok ())
    (rel : Place) : t.at? (t.lexicalPlace (l.packageStaging package) ++ rel) = none := by
  obtain ⟨made, hgrown, hmade, -⟩ :=
    isDirectory_of_copyDirectory (text_packageStaging l hn) hok
  have hgoal := absent_of_unreached h.closed (steady_packageStaging l hn h.steady)
    (ends_packageStaging l hn) hx hgrown hmade
  by_cases hrel : rel = []
  · rw [hrel, List.append_nil, hgoal]
  · exact (rooted_of_closed h.closed h.named _).absent (by simp [hgoal]) hrel

end

/-- What staging comes to: it fails before anything has changed, or it copies the package after it
has cleared its directory, unless this was not found. -/
theorem stage_cases (hm : ((readManifest directory).run.run t).1 = .ok m)
    (hn : IsName (fileStem m.id)) :
    (∃ f, (stage l directory).run.run t = (.error f, t)) ∨ ∃ cleared,
      Confined (t.lexicalPlace (l.packageStaging m.id) <+: ·) [] t cleared ∧
      (cleared = t ∧ t.pathExists (l.packageStaging m.id) = false ∨
        (¬t.DoublesBack (l.packageStaging m.id) →
          ∀ rel, cleared.at? (t.lexicalPlace (l.packageStaging m.id) ++ rel) = none)) ∧
      (stage l directory).run.run t =
        ((((FileTree.copyDirectory directory (l.packageStaging m.id)).run.run cleared).1.map
            fun _ => (m, l.packageStaging m.id)),
          ((FileTree.copyDirectory directory (l.packageStaging m.id)).run.run cleared).2) := by
  unfold stage
  rw [run_bind, (reads_readManifest directory).run, hm]
  dsimp only
  rw [run_bind]
  rcases clearStaging_cases (p := l.staging) hn t with
    ⟨f, hrun⟩ | ⟨cleared, hrun, hcleared, habsent⟩ <;> rw [← packageStaging_eq] at hrun
  · rw [hrun]
    exact .inl ⟨f, rfl⟩
  · rw [hrun]
    dsimp only
    rw [run_bind]
    refine .inr ⟨cleared, hcleared, habsent, ?_⟩
    rcases (FileTree.copyDirectory directory (l.packageStaging m.id)).run.run cleared with
      ⟨_ | _, t'⟩ <;> rfl

theorem stage_eq_ok {staged : Manifest × Path}
    (hm : ((readManifest directory).run.run t).1 = .ok m) (hn : IsName (fileStem m.id))
    (hs : (stage l directory).run.run t = (.ok staged, t')) :
    staged = (m, l.packageStaging m.id) := by
  rcases stage_cases (l := l) hm hn with ⟨f, hrun⟩ | ⟨cleared, -, -, hrun⟩ <;> rw [hs] at hrun
  · cases hrun
  · obtain ⟨hresult, -⟩ := Prod.mk.inj hrun
    cases hc : ((FileTree.copyDirectory directory (l.packageStaging m.id)).run.run cleared).1 with
    | error f => rw [hc] at hresult; cases hresult
    | ok u => rw [hc] at hresult; exact Except.ok.inj hresult

theorem Stageable.confined_stage (hm : ((readManifest directory).run.run t).1 = .ok m)
    (hn : IsName (fileStem m.id)) (h : Stageable l directory m.id t) :
    Confined (t.lexicalPlace (l.packageStaging m.id) <+: ·) (t.way l.staging) t
      ((stage l directory).run.run t).2 := by
  rcases stage_cases hm hn with ⟨f, hrun⟩ | ⟨cleared, hcleared, -, hrun⟩
  · rw [hrun]
    exact .refl t
  · rw [hrun]
    exact (h.copied hn hcleared).1

/-- Outside the directory of the package, staging changes nothing but what is missing of the way
there, however it ends; and when it succeeds, that directory holds what the package holds. -/
theorem stage_confined_exact (hm : ((readManifest directory).run.run t).1 = .ok m)
    (hdot : m.id ≠ ".") (hdots : m.id ≠ "..") (h : Stageable l directory m.id t) :
    Confined (t.lexicalPlace l.staging ++ [fileStem m.id] <+: ·) (t.way l.staging) t
        ((stage l directory).run.run t).2 ∧
      ∀ staged, ((stage l directory).run.run t).1 = .ok staged →
        staged = (m, l.packageStaging m.id) ∧ ∀ rel,
          ((stage l directory).run.run t).2.at? (t.lexicalPlace l.staging ++ [fileStem m.id] ++ rel) =
            (t.at? (t.lexicalPlace directory ++ rel)).map fresh := by
  have hn : IsName (fileStem m.id) := isName_fileStem (id_ne_empty hm) hdot hdots
  rw [← lexicalPlace_packageStaging l hn]
  refine ⟨h.confined_stage hm hn, fun staged hstaged => ?_⟩
  rcases stage_cases (l := l) hm hn with ⟨f, hrun⟩ | ⟨cleared, hcleared, habsent, hrun⟩
  · rw [hrun] at hstaged
    cases hstaged
  have hoverlaid := (h.copied hn hcleared).2
  rw [hrun] at hstaged ⊢
  cases hcopy : ((FileTree.copyDirectory directory (l.packageStaging m.id)).run.run cleared).1 with
  | error f => rw [hcopy] at hstaged; cases hstaged
  | ok u =>
    have hnone (rel : Place) :
        cleared.at? (t.lexicalPlace (l.packageStaging m.id) ++ rel) = none := by
      rcases habsent with ⟨rfl, hx⟩ | habsent
      · exact h.absent hn hx hcopy rel
      · exact habsent (fun hback => h.not_doublesBack hn hback) rel
    rw [hcopy] at hstaged
    cases hstaged
    refine ⟨rfl, fun rel => ?_⟩
    rw [← overlay_none, ← hnone rel]
    exact hoverlaid hcopy rel

/-- A package is staged over what is left of an earlier version. -/
theorem stage_confined_exact_leftover : ∃ t m, t = ⟨[(["p"], .directory 0o755),
      (["p", "package-info.toml"], .file (.text "id = \"a:b\"\n") 0o600),
      (["s"], .directory 0o755), (["s", "staging"], .directory 0o755),
      (["s", "staging", "a_b"], .directory 0o700),
      (["s", "staging", "a_b", "old"], .file (.text "y") 0o644)], []⟩ ∧
    ((stage ⟨⟨"/s"⟩⟩ ⟨"/p"⟩).run.run t).1 = .ok (m, ⟨"/s/staging/a_b"⟩) ∧
    ∀ rel, ((stage ⟨⟨"/s"⟩⟩ ⟨"/p"⟩).run.run t).2.at? (["s", "staging", "a_b"] ++ rel) =
      (t.at? (["p"] ++ rel)).map fresh := by
  obtain ⟨t, ht⟩ : ∃ t : Tree, t = ⟨[(["p"], .directory 0o755),
      (["p", "package-info.toml"], .file (.text "id = \"a:b\"\n") 0o600),
      (["s"], .directory 0o755), (["s", "staging"], .directory 0o755),
      (["s", "staging", "a_b"], .directory 0o700),
      (["s", "staging", "a_b", "old"], .file (.text "y") 0o644)], []⟩ := ⟨_, rfl⟩
  have hread : ((readManifest ⟨"/p"⟩).run.run t).1.toOption.map (·.id) = some "a:b" := by
    subst ht
    decide +kernel
  have hok : ((stage ⟨⟨"/s"⟩⟩ ⟨"/p"⟩).run.run t).1.toOption.isSome := by
    subst ht
    decide +kernel
  obtain ⟨m, hm, hid⟩ : ∃ m, ((readManifest ⟨"/p"⟩).run.run t).1 = .ok m ∧ m.id = "a:b" := by
    cases hm : ((readManifest ⟨"/p"⟩).run.run t).1 with
    | error f => rw [hm] at hread; cases hread
    | ok m => rw [hm] at hread; exact ⟨m, rfl, Option.some.inj hread⟩
  have hstageable : Stageable ⟨⟨"/s"⟩⟩ ⟨"/p"⟩ m.id t := by
    rw [hid]
    subst ht
    exact stageable_of_straight (by decide +kernel) (closed_of_entries (by decide))
      (named_of_entries (by decide)) (by decide) (by decide)
  obtain ⟨-, hexact⟩ := stage_confined_exact hm (by rw [hid]; decide) (by rw [hid]; decide)
    hstageable
  have hplace : t.lexicalPlace (StateLayout.mk ⟨"/s"⟩).staging ++ [fileStem m.id] =
      ["s", "staging", "a_b"] := by
    rw [hid]
    subst ht
    decide +kernel
  have hpath : (StateLayout.mk ⟨"/s"⟩).packageStaging m.id = ⟨"/s/staging/a_b"⟩ := by
    rw [hid]
    decide +kernel
  have hsource : t.lexicalPlace ⟨"/p"⟩ = ["p"] := by
    subst ht
    decide
  cases hstaged : ((stage ⟨⟨"/s"⟩⟩ ⟨"/p"⟩).run.run t).1 with
  | error f => rw [hstaged] at hok; cases hok
  | ok staged =>
    obtain ⟨rfl, hall⟩ := hexact staged hstaged
    rw [hplace, hsource] at hall
    rw [hpath] at hstaged
    exact ⟨t, m, ht, hstaged, hall⟩

/-- The id of two dots stages a package in the state directory itself, which is emptied first: the
receipts and the marker of the active run are gone, and the files of the package stand there. -/
theorem stage_dots :
    let t : Tree := ⟨[(["p"], .directory 0o755),
      (["p", "package-info.toml"], .file (.text "id = \"..\"\n") 0o644),
      (["s"], .directory 0o755), (["s", "staging"], .directory 0o755),
      (["s", "installed"], .directory 0o755),
      (["s", "installed", "x.receipt"], .file (.text "package_id=x\n") 0o644),
      (["s", "runs"], .directory 0o755), (["s", "runs", "active"], .file (.text "r\n") 0o644)], []⟩
    let staged := (stage ⟨⟨"/s"⟩⟩ ⟨"/p"⟩).run.run t
    staged.1.toOption.map (fun s => (s.1.id, s.2)) = some ("..", ⟨"/s/staging/.."⟩) ∧
      staged.2.at? ["s", "installed"] = none ∧ staged.2.at? ["s", "runs"] = none ∧
      staged.2.at? ["s", "package-info.toml"] = some (.file (.text "id = \"..\"\n") 0o644) := by
  decide +kernel

theorem held_of_stage {staged : Manifest × Path} (h : Held l t)
    (hid : ∀ m, ((readManifest directory).run.run t).1 = .ok m → m.id ≠ "..")
    (hs : (stage l directory).run.run t = (.ok staged, t')) : Held l t' := by
  unfold stage at hs
  rw [run_bind, (reads_readManifest directory).run] at hs
  cases hm : ((readManifest directory).run.run t).1 with
  | error f => rw [hm] at hs; cases hs
  | ok m =>
    have hpiece := isPiece_fileStem (id_ne_empty hm)
    rw [hm] at hs
    dsimp only at hs
    obtain ⟨_, cleared, hclear, hs⟩ := run_bind_eq_ok.1 hs
    obtain ⟨_, copied, hcopy, hs⟩ := run_bind_eq_ok.1 hs
    obtain ⟨-, rfl⟩ := Prod.mk.inj hs
    have hcleared := confined_clearStaging (l.packageStaging m.id) t
    rw [hclear] at hcleared
    obtain ⟨made, hmade, hdirectory, _, hcopied⟩ :=
      isDirectory_of_copyDirectory (text_join hpiece l.staging) (congrArg Prod.fst hcopy)
    rw [← packageStaging_eq, hcopy] at hcopied
    have hgrown := hmade.trans hcopied
    -- only what is staged is cleared
    have hkept {rel : Place} (hr : ¬["staging"] <+: rel) :
        cleared.at? (t.lexicalPlace l.root ++ rel) = t.at? (t.lexicalPlace l.root ++ rel) := by
      refine at?_of_confined hcleared fun hp => hr ?_
      rw [← List.prefix_append_right_inj (t.lexicalPlace l.root), ← lexicalPlace_staging]
      exact (prefix_packageStaging l (id_ne_empty hm) (hid m hm) t).trans hp
    refine h.keep (hgrown.working.trans hcleared.working) ?_ (fun mode hd => ?_) fun ha => ?_
    · exact ((enters_of_isDirectory (isDirectory_of_grown hcopied hdirectory)).of_join
        hpiece).of_join isName_staging.piece
    · rw [← hkept (by simp)] at hd
      exact at?_of_look_directory (hgrown.directory _ (look_directory hd))
    · rw [← hkept (by simp)] at ha
      exact isSome_at?_of_grown hgrown ha

end Patchboard.Package
