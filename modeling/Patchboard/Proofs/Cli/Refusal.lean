import Patchboard.Cli.Session
import Patchboard.Proofs.Package.Staging
import Patchboard.Proofs.Plan.Effects

set_option autoImplicit false

namespace Patchboard.Cli
open Path Tree StateLayout

attribute [local irreducible] fileStem

variable {s : Surroundings} {i : Invocation} {a : PackageArguments} {expected : Option String}
  {session : Session} {p : Planned} {root : Path} {l : StateLayout} {m : Manifest} {t t' : Tree}

theorem reads_stateRoot (s : Surroundings) (given : Option Path) : Reads (stateRoot s given) := by
  unfold stateRoot
  split
  · exact .pure lasting_reads _
  · exact .pure lasting_reads _
  · exact follows_doing (.throw lasting_reads _) _

theorem reads_load (p : Path) : Reads (Config.load p) :=
  .bind lasting_reads (follows_on (.ask lasting_reads _) _ _) fun _ =>
    follows_doing (follows_ofExcept lasting_reads _) _

theorem openSession_cases (hroot : ((stateRoot s i.stateRoot).run.run t).1 = .ok root) :
    (∃ f, (openSession s i).run.run t = (.error f, t)) ∨ ∃ config,
      (openSession s i).run.run t =
        (((StateLayout.mk root).ensureBase.run.run t).1.map fun _ => ⟨config, ⟨root⟩⟩,
          ((StateLayout.mk root).ensureBase.run.run t).2) := by
  unfold openSession openLayout
  rw [run_bind, (reads_load _).run]
  cases ((Config.load (i.config.getD ⟨Config.fileName⟩)).run.run t).1 with
  | error f => exact .inl ⟨f, rfl⟩
  | ok config =>
    refine .inr ⟨config, ?_⟩
    dsimp only
    rw [run_bind, run_bind, (reads_stateRoot s i.stateRoot).run, hroot]
    dsimp only
    rw [run_bind]
    rcases (StateLayout.mk root).ensureBase.run.run t with ⟨_ | _, t'⟩ <;> rfl

theorem confined_openSession {inside : Place → Prop}
    (hroot : ((stateRoot s i.stateRoot).run.run t).1 = .ok root) (h : Held ⟨root⟩ t) :
    Confined inside [t.lexicalPlace (StateLayout.mk root).receipts,
      t.lexicalPlace (StateLayout.mk root).staging] t ((openSession s i).run.run t).2 := by
  rcases openSession_cases hroot with ⟨f, hrun⟩ | ⟨config, hrun⟩
  · rw [hrun]
    exact .refl t
  · rw [hrun]
    exact confined_ensureBase h

theorem openSession_ok (hroot : ((stateRoot s i.stateRoot).run.run t).1 = .ok root)
    (hopen : (openSession s i).run.run t = (.ok session, t')) :
    session.layout = ⟨root⟩ ∧ Based ⟨root⟩ t' ∧ Outgrown t t' := by
  rcases openSession_cases hroot with ⟨f, hrun⟩ | ⟨config, hrun⟩
  · rw [hopen] at hrun
    cases hrun
  · rw [hopen] at hrun
    obtain ⟨hresult, rfl⟩ := Prod.mk.inj hrun
    cases hbase : ((StateLayout.mk root).ensureBase.run.run t).1 with
    | error f => rw [hbase] at hresult; cases hresult
    | ok u =>
      rw [hbase] at hresult
      cases hresult
      exact ⟨rfl, based_of_ensureBase (Prod.ext hbase rfl), outgrown_ensureBase _ t⟩

theorem reads_previousVersion (l : StateLayout) (package : String) (mode : Mode)
    (explicit : Option String) : Reads (Package.previousVersion l package mode explicit) := by
  unfold Package.previousVersion
  split
  · exact .pure lasting_reads _
  · split
    · refine .bind lasting_reads (.bind lasting_reads ?_ fun _ => .pure lasting_reads _) fun _ =>
        .pure lasting_reads _
      unfold History.read?
      refine .bind lasting_reads (.get lasting_reads) fun t => ?_
      split
      · exact .pure lasting_reads _
      · exact follows_doing (.throw lasting_reads _) _
      · exact .bind lasting_reads (follows_doing (follows_ofExcept lasting_reads _) _) fun _ =>
          .pure lasting_reads _
    · exact .pure lasting_reads _

def planStaged (session : Session) (a : PackageArguments) (staged : Manifest × Path) :
    Job Planned := do
  let previous ←
    Package.previousVersion session.layout staged.1.id a.mode a.previous
  let vars := session.config.pathVariables staged.2
  let actions ← Plan.actions staged.1
    ⟨a.mode, session.config.productVersion, previous, staged.2⟩ vars .byMode
  return ⟨staged.1, a.mode, vars, actions⟩

theorem plan_eq (session : Session) (a : PackageArguments) :
    plan session a = (Package.stage session.layout a.package >>= planStaged session a) := rfl

theorem follows_planStaged {R : Tree → Tree → Prop} (hR : Lasting R) (session : Session)
    (a : PackageArguments) (staged : Manifest × Path)
    (ha : ∀ request : PlanRequest, request.staging = staged.2 →
      ∀ vars, Follows R (Plan.actions staged.1 request vars .byMode)) :
    Follows R (planStaged session a staged) :=
  .bind hR (.of_reads hR (reads_previousVersion _ _ _ _)) fun _ =>
    .bind hR (ha _ rfl _) fun _ => .pure hR _

theorem held_of_plan (h : Held session.layout t)
    (hid : ∀ m, ((Package.readManifest a.package).run.run t).1 = .ok m → m.id ≠ "..")
    (hp : (plan session a).run.run t = (.ok p, t')) : Held session.layout t' := by
  rw [plan_eq, run_bind] at hp
  rcases hs : (Package.stage session.layout a.package).run.run t with ⟨_ | staged, t₁⟩
  · rw [hs] at hp
    cases hp
  · rw [hs] at hp
    dsimp only at hp
    obtain ⟨written, hgrown⟩ := follows_planStaged lasting_outgrown session a staged
      (fun _ _ _ => Plan.outgrown_actions _ _ _ _) t₁
    rw [hp] at hgrown
    exact (Package.held_of_stage h hid hs).of_grown hgrown

theorem run_plan_of_no_manifest {f : Failure}
    (hm : ((Package.readManifest a.package).run.run t).1 = .error f) :
    (plan session a).run.run t = (.error f, t) := by
  unfold plan Package.stage
  rw [run_bind, run_bind, (Package.reads_readManifest a.package).run, hm]

theorem confined_plan (hm : ((Package.readManifest a.package).run.run t).1 = .ok m)
    (hn : IsName (fileStem m.id)) (h : Package.Stageable session.layout a.package m.id t) :
    Confined (t.lexicalPlace (session.layout.packageStaging m.id) <+: ·)
      (t.way session.layout.staging) t ((plan session a).run.run t).2 := by
  have hstaged := h.confined_stage hm hn
  rw [plan_eq, run_bind]
  rcases hs : (Package.stage session.layout a.package).run.run t with ⟨_ | staged, t₁⟩
  · rw [hs] at hstaged
    exact hstaged
  · rw [hs] at hstaged
    obtain rfl := Package.stage_eq_ok hm hn hs
    have hactions (request : PlanRequest)
        (hr : request.staging = session.layout.packageStaging m.id) (vars : PathVariables) :
        Confines t (t.lexicalPlace (session.layout.packageStaging m.id) <+: ·)
          (t.way (session.layout.packageStaging m.id)) (Plan.actions m request vars .byMode) := by
      rw [← hr]
      exact Plan.confines_actions t m request vars .byMode
    have hplanned : Confines t (t.lexicalPlace (session.layout.packageStaging m.id) <+: ·)
        (t.way (session.layout.packageStaging m.id))
        (planStaged session a (m, session.layout.packageStaging m.id)) :=
      follows_planStaged lasting_confined session a _ hactions
    have hrest := hplanned t₁ hstaged.working
    refine hstaged.trans (hrest.mono (fun _ => id) fun place hp => ?_)
    rw [packageStaging_eq, mem_way_join hn, ← lexicalPlace_packageStaging _ hn] at hp
    rcases hp with hp | rfl
    · exact .inr hp
    · exact .inl List.prefix_rfl

theorem parent?_activeMarker (l : StateLayout) : l.activeMarker.parent? = some l.runs :=
  parent?_join isName_active (endsSolid_join isName_runs l.root)

theorem run_claim_of_held (h : Held l t) (run : String) : (Run.claim l run).run.run t =
    (.error (Failure.ofCause (.runActive (Run.holder? l t))), t) := by
  obtain ⟨hfits, hruns, hmarker⟩ := held_iff.1 h
  have hplace : t.lexicalPlace l.activeMarker = t.lexicalPlace l.root ++ ["runs", "active"] := by
    rw [activeMarker_eq, lexicalPlace_join isName_active, lexicalPlace_runs, List.append_assoc]
    rfl
  have hlocate : t.locate l.activeMarker = .ok (t.lexicalPlace l.activeMarker) :=
    (locate_join_iff isName_active).2
      ⟨hfits, enters_of_isDirectory hruns, lexicalPlace_join isName_active t l.runs⟩
  have hcreate : (createNew l.activeMarker).run.run t = (.error .exists, t) := by
    unfold createNew
    rw [run_bind, run_ask, hlocate]
    dsimp only
    rw [run_bind, run_get]
    dsimp only
    rw [if_pos (by rw [hplace]; exact hmarker)]
    rfl
  unfold Run.claim Run.claimUnder Run.prepare Run.create
  rw [run_bind, FileTree.ensureParent, parent?_activeMarker]
  dsimp only
  rw [run_ensure hruns]
  dsimp only
  rw [run_bind, run_bind, run_get]
  dsimp only
  rw [hcreate]
  rfl

theorem run_applyPlanned_of_held (h : Held session.layout t) :
    ∃ f, (applyPlanned s session p expected).run.run t = (.error f, t) := by
  have hcheck : (checkFingerprint p expected).run.run t = (.ok (), t) ∨
      ∃ f, (checkFingerprint p expected).run.run t = (.error f, t) := by
    unfold checkFingerprint
    split
    · exact .inl rfl
    · dsimp only
      split
      · exact .inl rfl
      · exact .inr ⟨_, rfl⟩
  unfold applyPlanned
  rw [run_bind]
  rcases hcheck with hcheck | ⟨f, hcheck⟩ <;> rw [hcheck]
  · dsimp only
    rw [run_bind, run_claim_of_held h]
    exact ⟨_, rfl⟩
  · exact ⟨f, rfl⟩

def planPackage (s : Surroundings) (i : Invocation) (a : PackageArguments) : Job Planned := do
  let session ← openSession s i
  plan session a

/-- Reads the manifest of a package in a session. -/
def readPackage (s : Surroundings) (i : Invocation) (a : PackageArguments) : Job Manifest := do
  let _ ← openSession s i
  Package.readManifest a.package

/-- The base directories that can be missing next to a marker. -/
def missingBase (l : StateLayout) (t : Tree) : List Place :=
  [t.lexicalPlace l.receipts, t.lexicalPlace l.staging]

theorem stageable_of_base {directory : Path} {package : String} (hheld : Held l t)
    (hbase : Confined (fun _ => False) (missingBase l t) t t') (hgrown : Outgrown t t')
    (h : Package.Stageable l directory package t) : Package.Stageable l directory package t' := by
  obtain ⟨written, hgrown⟩ := hgrown
  have hplaces (p : Path) : t'.lexicalPlace p = t.lexicalPlace p :=
    lexicalPlace_congr hbase.working p
  have hmade : ∀ place ∈ missingBase l t, ∃ name mode, place = t.lexicalPlace l.root ++ [name] ∧
      IsName name ∧ t.at? (t.lexicalPlace l.root) = some (.directory mode) := by
    obtain ⟨mode, hd⟩ := hheld.enters.directory
    intro place hp
    rw [missingBase, lexicalPlace_receipts, lexicalPlace_staging, List.mem_pair] at hp
    rcases hp with rfl | rfl
    · exact ⟨_, mode, rfl, isName_installed, hd⟩
    · exact ⟨_, mode, rfl, isName_staging, hd⟩
  have hway : t'.way l.root = t.way l.root := by rw [way, way, origin, origin, hbase.working]
  refine ⟨⟨fun place name hs => ?_⟩, fun place name hs => ?_, ?_, ?_, ?_⟩
  · rcases hbase.outside (place ++ [name]) id with hk | ⟨hm, -, -⟩
    · rw [hk] at hs
      obtain ⟨mode, hd⟩ := h.closed.parent place name hs
      exact at?_of_look_directory (hgrown.directory _ (look_directory hd))
    · obtain ⟨name', mode, he, -, hd⟩ := hmade _ hm
      rw [List.append_inj_left' he rfl]
      exact at?_of_look_directory (hgrown.directory _ (look_directory hd))
  · rcases hbase.outside (place ++ [name]) id with hk | ⟨hm, -, -⟩
    · rw [hk] at hs
      exact h.named place name hs
    · obtain ⟨name', mode, he, hn, -⟩ := hmade _ hm
      obtain rfl : name = name' := by simpa using List.append_inj_right' he rfl
      exact hn
  · have horigin : t'.origin l.root = t.origin l.root := by rw [origin, origin, hbase.working]
    unfold Steady
    rw [horigin]
    exact h.steady.mono fun place => isSome_at?_of_grown hgrown
  · rw [hplaces, hplaces]
    exact h.outside
  · rw [hway, hplaces, hplaces]
    exact h.way

theorem id_ne_empty_of_readPackage (hm : ((readPackage s i a).run.run t).1 = .ok m) :
    m.id ≠ "" := by
  unfold readPackage at hm
  rw [run_bind] at hm
  rcases hopen : (openSession s i).run.run t with ⟨_ | session, t₁⟩
  · rw [hopen] at hm
    cases hm
  · rw [hopen] at hm
    exact Package.id_ne_empty hm

theorem run_planPackage_of_no_manifest {f : Failure}
    (hm : ((readPackage s i a).run.run t).1 = .error f) :
    ((planPackage s i a).run.run t).2 = ((openSession s i).run.run t).2 := by
  unfold readPackage at hm
  unfold planPackage
  rw [run_bind] at hm ⊢
  rcases hopen : (openSession s i).run.run t with ⟨_ | session, t₁⟩
  · rfl
  · rw [hopen] at hm
    dsimp only at hm ⊢
    rw [run_plan_of_no_manifest hm]

theorem confined_planPackage (hroot : ((stateRoot s i.stateRoot).run.run t).1 = .ok root)
    (hheld : Held ⟨root⟩ t) (hm : ((readPackage s i a).run.run t).1 = .ok m)
    (hn : IsName (fileStem m.id)) (h : Package.Stageable ⟨root⟩ a.package m.id t) :
    Confined (t.lexicalPlace ((StateLayout.mk root).packageStaging m.id) <+: ·)
      (missingBase ⟨root⟩ t) t ((planPackage s i a).run.run t).2 := by
  have hopened (inside : Place → Prop) :
      Confined inside (missingBase ⟨root⟩ t) t ((openSession s i).run.run t).2 :=
    confined_openSession hroot hheld
  unfold readPackage at hm
  unfold planPackage
  rw [run_bind] at hm ⊢
  rcases hopen : (openSession s i).run.run t with ⟨_ | session, t₁⟩
  · rw [hopen] at hm
    cases hm
  rw [hopen] at hm hopened
  dsimp only at hm hopened ⊢
  obtain ⟨hlayout, hbase, hgrown⟩ := openSession_ok hroot hopen
  have hstageable := stageable_of_base hheld (hopened _) hgrown h
  rw [← hlayout] at hstageable hbase hopened ⊢
  have hplanned := confined_plan hm hn hstageable
  rw [lexicalPlace_congr (hopened fun _ => False).working] at hplanned
  refine (hopened _).trans (hplanned.narrow fun place hp hnone => ?_)
  obtain ⟨mode, hd⟩ := directory_of_mem_way (enters_of_isDirectory hbase.staging) hp
  rw [hnone] at hd
  cases hd

theorem run_plan_command (s : Surroundings) (i : Invocation) (a : PackageArguments) (t : Tree) :
    ((runCommand s { i with command := .plan a }).run.run t).2 =
      ((planPackage s i a).run.run t).2 := by
  have hcommand : runCommand s { i with command := .plan a } =
      (openSession s i >>= fun session => plan session a >>= fun p =>
        pure ⟨planText p a.json, true⟩) := rfl
  rw [hcommand, planPackage, run_bind, run_bind]
  rcases (openSession s i).run.run t with ⟨_ | session, t₁⟩
  · rfl
  · dsimp only
    rw [run_bind]
    rcases (plan session a).run.run t₁ with ⟨_ | p, t₂⟩ <;> rfl

theorem run_apply_command (hc : i.command = .apply a expected)
    (hroot : ((stateRoot s i.stateRoot).run.run t).1 = .ok root) (hheld : Held ⟨root⟩ t)
    (hid : ∀ m, ((readPackage s i a).run.run t).1 = .ok m → m.id ≠ "..") :
    ∃ f, (runCommand s i).run.run t = (.error f, ((planPackage s i a).run.run t).2) := by
  have hcommand : runCommand s i = (openSession s i >>= fun session => plan session a >>= fun p =>
      applyPlanned s session p expected >>= fun report =>
        pure ⟨reportText p report a.json, !report.failed⟩) := by
    unfold runCommand
    rw [hc]
  rw [hcommand, planPackage, run_bind, run_bind]
  unfold readPackage at hid
  rw [run_bind] at hid
  rcases hopen : (openSession s i).run.run t with ⟨f | session, t₁⟩
  · exact ⟨f, rfl⟩
  rw [hopen] at hid
  dsimp only at hid ⊢
  obtain ⟨hlayout, -, written, hgrown⟩ := openSession_ok hroot hopen
  have hheld := hheld.of_grown hgrown
  rw [← hlayout] at hheld
  rw [run_bind]
  rcases hplan : (plan session a).run.run t₁ with ⟨f | p, t₂⟩
  · exact ⟨f, rfl⟩
  dsimp only
  obtain ⟨f, hrefused⟩ :=
    run_applyPlanned_of_held (s := s) (p := p) (held_of_plan hheld hid hplan)
  rw [run_bind, hrefused]
  exact ⟨f, rfl⟩

/-- While a run holds the marker, a package is not applied unless its id is two dots: the tree is left
as planning leaves it. Next to the staging directory of the package at most missing base directories
were made, and if they were there and the package has no manifest that can be read, nothing has
changed. -/
theorem apply_refused (hc : i.command = .apply a expected)
    (hroot : ((stateRoot s i.stateRoot).run.run t).1 = .ok root) (hheld : Held ⟨root⟩ t) :
    ((∀ m, ((readPackage s i a).run.run t).1 = .ok m → m.id ≠ "..") →
      (∃ f, ((runCommand s i).run.run t).1 = .error f) ∧
      ((runCommand s i).run.run t).2 =
        ((runCommand s { i with command := .plan a }).run.run t).2) ∧
    (∀ f, ((readPackage s i a).run.run t).1 = .error f →
      Confined (fun _ => False) (missingBase ⟨root⟩ t) t ((runCommand s i).run.run t).2 ∧
      (Based ⟨root⟩ t → ((runCommand s i).run.run t).2 = t)) ∧
    ∀ m, ((readPackage s i a).run.run t).1 = .ok m → m.id ≠ "." → m.id ≠ ".." →
      Package.Stageable ⟨root⟩ a.package m.id t →
      Confined (t.lexicalPlace (StateLayout.mk root).staging ++ [fileStem m.id] <+: ·)
        (missingBase ⟨root⟩ t) t ((runCommand s i).run.run t).2 := by
  have hrefused := run_apply_command hc hroot hheld
  refine ⟨fun hid => ?_, fun f hm => ?_, fun m hm hdot hdots hstageable => ?_⟩
  · obtain ⟨f, hrun⟩ := hrefused hid
    rw [hrun, run_plan_command]
    exact ⟨⟨f, rfl⟩, rfl⟩
  · obtain ⟨f', hrun⟩ := hrefused fun m hm' => by rw [hm] at hm'; cases hm'
    rw [hrun, run_planPackage_of_no_manifest hm]
    refine ⟨confined_openSession hroot hheld, fun hb => ?_⟩
    rcases openSession_cases hroot with ⟨f, hopen⟩ | ⟨config, hopen⟩
    · rw [hopen]
    · rw [hopen, run_ensureBase hb]
  · have hn : IsName (fileStem m.id) := isName_fileStem (id_ne_empty_of_readPackage hm) hdot hdots
    obtain ⟨f, hrun⟩ := hrefused fun m' hm' => by
      rw [hm] at hm'
      exact Except.ok.inj hm' ▸ hdots
    rw [hrun, ← lexicalPlace_packageStaging _ hn]
    exact confined_planPackage hroot hheld hm hn hstageable

/-- An apply that is refused keeps a package that is staged under another id. -/
theorem apply_refused_elsewhere : ∃ (t : Tree) (i : Invocation), t = ⟨[
      (["modsmith.toml"], .file (.text "product_version = \"2.1\"\nboard_dir = '/b'\n") 0o644),
      (["p"], .directory 0o755),
      (["p", "package-info.toml"], .file (.text "id = \"x\"\n[[install]]\n") 0o644),
      (["s"], .directory 0o755), (["s", "staging"], .directory 0o755),
      (["s", "staging", "y"], .directory 0o755),
      (["s", "staging", "y", "patch"], .file (.text "z") 0o644),
      (["s", "runs"], .directory 0o755),
      (["s", "runs", "active"], .file (.text "run-1\n") 0o644)], []⟩ ∧
    (∃ f, ((runCommand ⟨none, none, 0, 0⟩ i).run.run t).1 = .error f) ∧
    ((runCommand ⟨none, none, 0, 0⟩ i).run.run t).2.at? ["s", "staging", "y", "patch"] =
      some (.file (.text "z") 0o644) := by
  obtain ⟨t, ht⟩ : ∃ t : Tree, t = ⟨[
      (["modsmith.toml"], .file (.text "product_version = \"2.1\"\nboard_dir = '/b'\n") 0o644),
      (["p"], .directory 0o755),
      (["p", "package-info.toml"], .file (.text "id = \"x\"\n[[install]]\n") 0o644),
      (["s"], .directory 0o755), (["s", "staging"], .directory 0o755),
      (["s", "staging", "y"], .directory 0o755),
      (["s", "staging", "y", "patch"], .file (.text "z") 0o644),
      (["s", "runs"], .directory 0o755),
      (["s", "runs", "active"], .file (.text "run-1\n") 0o644)], []⟩ := ⟨_, rfl⟩
  obtain ⟨i, hi⟩ : ∃ i : Invocation, i =
      ⟨some ⟨"/modsmith.toml"⟩, some ⟨"/s"⟩, .apply ⟨⟨"/p"⟩, .install, none, false⟩ none⟩ := ⟨_, rfl⟩
  have hheld : Held ⟨⟨"/s"⟩⟩ t := by
    subst ht
    decide +kernel
  have hread : ((readPackage ⟨none, none, 0, 0⟩ i ⟨⟨"/p"⟩, .install, none, false⟩).run.run
      t).1.toOption.map (·.id) = some "x" := by
    subst ht hi
    decide +kernel
  obtain ⟨m, hm, hid⟩ : ∃ m, ((readPackage ⟨none, none, 0, 0⟩ i
      ⟨⟨"/p"⟩, .install, none, false⟩).run.run t).1 = .ok m ∧ m.id = "x" := by
    cases hm : ((readPackage ⟨none, none, 0, 0⟩ i
        ⟨⟨"/p"⟩, .install, none, false⟩).run.run t).1 with
    | error f => rw [hm] at hread; cases hread
    | ok m => rw [hm] at hread; exact ⟨m, rfl, Option.some.inj hread⟩
  have hstageable : Package.Stageable ⟨⟨"/s"⟩⟩ ⟨"/p"⟩ m.id t := by
    rw [hid]
    subst ht
    exact Package.stageable_of_straight (by decide +kernel) (closed_of_entries (by decide))
      (named_of_entries (by decide)) (by decide) (by decide)
  have hroot : ((stateRoot ⟨none, none, 0, 0⟩ i.stateRoot).run.run t).1 = .ok ⟨"/s"⟩ := by
    rw [hi]
    rfl
  have hcommand : i.command = .apply ⟨⟨"/p"⟩, .install, none, false⟩ none := by rw [hi]
  obtain ⟨hrefused, -, hconfined⟩ := apply_refused hcommand hroot hheld
  have hid' (m' : Manifest) (hm' : ((readPackage ⟨none, none, 0, 0⟩ i
      ⟨⟨"/p"⟩, .install, none, false⟩).run.run t).1 = .ok m') : m'.id ≠ ".." := by
    rw [hm] at hm'
    rw [← Except.ok.inj hm', hid]
    decide
  refine ⟨t, i, ht, (hrefused hid').1, (hconfined m hm (by rw [hid]; decide) (by rw [hid]; decide)
    hstageable).kept ?_ ?_⟩
  · rw [hid]
    subst ht
    decide +kernel
  · subst ht
    decide +kernel

/-- A run reads its patches from the staging directory of its package; an apply of this package that
is refused has put other files there. A package whose id is two dots is not even refused: staging it
has removed the marker. -/
theorem apply_restages :
    let t (id : String) : Tree := ⟨[
      (["modsmith.toml"], .file (.text "product_version = \"2.1\"\nboard_dir = '/b'\n") 0o644),
      (["p"], .directory 0o755), (["p", "package-info.toml"], .file (.text id) 0o644),
      (["s"], .directory 0o755), (["s", "installed"], .directory 0o755),
      (["s", "staging"], .directory 0o755), (["s", "staging", "x"], .directory 0o755),
      (["s", "staging", "x", "patch"], .file (.text "z") 0o644),
      (["s", "runs"], .directory 0o755),
      (["s", "runs", "active"], .file (.text "run-1\n") 0o644)], []⟩
    let i : Invocation :=
      ⟨some ⟨"/modsmith.toml"⟩, some ⟨"/s"⟩, .apply ⟨⟨"/p"⟩, .install, none, false⟩ none⟩
    let apply (id : String) := (runCommand ⟨none, none, 0, 0⟩ i).run.run (t id)
    let x := "id = \"x\"\n[[install]]\n"
    let dots := "id = \"..\"\n[[install]]\n"
    Held ⟨⟨"/s"⟩⟩ (t x) ∧
      (match (apply x).1 with
        | .error f => some f.cause
        | .ok _ => none) = some (.runActive (some "run-1")) ∧
      ((t x).at? ["s", "staging", "x", "patch"]).isSome ∧
      (apply x).2.at? ["s", "staging", "x", "patch"] = none ∧
      Held ⟨⟨"/s"⟩⟩ (t dots) ∧ (apply dots).1.isOk = true ∧
      (apply dots).2.at? ["s", "runs", "active"] = none := by
  decide +kernel

end Patchboard.Cli
