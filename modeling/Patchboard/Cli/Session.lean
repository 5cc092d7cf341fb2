import Patchboard.Cli.Arguments
import Patchboard.Config
import Patchboard.Cursor
import Patchboard.Package
import Patchboard.Plan
import Patchboard.Render
import Patchboard.Run

set_option autoImplicit false

namespace Patchboard.Cli

/-- What a command learns from its surroundings. -/
structure Surroundings where
  home : Option String
  shell : Option String
  /-- Seconds since 1970. -/
  now : Nat
  process : Nat

structure Session where
  config : Config
  layout : StateLayout

/-- A package that is staged and planned. -/
structure Planned where
  manifest : Manifest
  mode : Mode
  vars : PathVariables
  actions : List Action

def Planned.fingerprint (p : Planned) : String := Plan.fingerprint p.actions

def stateRoot (s : Surroundings) (given : Option Path) : Job Path :=
  match given, s.home with
  | some root, _ => return root
  | none, some home => return (Path.mk home).join ⟨".modsmith"⟩
  | none, none => Job.doing "HOME is not set; cannot resolve state root" (Job.fail .noVariable)

def openLayout (s : Surroundings) (given : Option Path) : Job StateLayout := do
  let l : StateLayout := ⟨← stateRoot s given⟩
  l.ensureBase
  return l

def openSession (s : Surroundings) (i : Invocation) : Job Session := do
  let config ← Config.load (i.config.getD ⟨Config.fileName⟩)
  let layout ← openLayout s i.stateRoot
  return ⟨config, layout⟩

def plan (s : Session) (a : PackageArguments) : Job Planned := do
  let (manifest, staging) ← Package.stage s.layout a.package
  let previous ← Package.previousVersion s.layout manifest.id a.mode a.previous
  let vars := s.config.pathVariables staging
  let actions ← Plan.actions manifest ⟨a.mode, s.config.productVersion, previous, staging⟩
    vars .byMode
  return ⟨manifest, a.mode, vars, actions⟩

def context (s : Session) (p : Planned) (testing : Bool) : RunContext :=
  { board := ⟨p.vars, s.config.themes, some s.config.settingsPath, s.config.makeBackups⟩
    history := History.view s.layout
    options := ⟨p.mode, testing, s.config.language⟩ }

def onSite {α : Type} (f : Site → α × Cursor) : Job (α × Cursor) := do
  let (a, cursor) := f ⟨← get, .byMode⟩
  set cursor.site.tree
  return (a, cursor)

def test (s : Session) (p : Planned) : Job RunReport := do
  let (report, _) ← onSite (Cursor.runAllActions (context s p true) p.actions)
  return report

/-- Writes the results of a step to the journal, numbered from `seq` on. -/
def journalStep (l : StateLayout) (run : String) (kind : ActionKind) :
    Nat → List StepResult → Job Nat
  | seq, [] => return seq
  | seq, r :: rest => do
    let _ ← Run.appendJournal l run ⟨seq, kind.name, r.target, r.status.name⟩
    journalStep l run kind (seq + 1) rest

/-- Carries out the rest of a plan and keeps the journal after each action. -/
def executeFrom (s : Session) (p : Planned) (run : String) :
    Nat → Nat → Cursor → Job (List ActionStep × Cursor)
  | 0, _, cursor => return ([], cursor)
  | fuel + 1, seq, cursor => do
    let site : Site := { cursor.site with tree := ← get }
    let (step, cursor) ← onSite fun _ => Cursor.next (context s p false) p.actions { cursor with site }
    match step with
    | none => return ([], cursor)
    | some step => do
      let seq ← journalStep s.layout run step.kind seq step.results
      let (steps, cursor) ← executeFrom s p run fuel seq cursor
      return (step :: steps, cursor)

def execute (s : Session) (p : Planned) (run : String) : Job RunReport := do
  let start := Cursor.start ⟨← get, .byMode⟩
  let (steps, cursor) ← executeFrom s p run p.actions.length 1 start
  return Cursor.report steps cursor

def themesInstalled (r : RunReport) : List Nat :=
  insertOnce Theme.defaultId r.themesTouched
where
  insertOnce (id : Nat) : List Nat → List Nat
    | [] => [id]
    | t :: rest =>
      if id = t then t :: rest else if id < t then id :: t :: rest else t :: insertOnce id rest

def receiptOf (p : Planned) (r : RunReport) (now : Nat) : Receipt :=
  { package := p.manifest.id
    name := p.manifest.name
    version := p.manifest.version
    themes := themesInstalled r
    databaseChanges := (r.deferred.filter fun a => a.kind = .database).map (·.filename)
    state := if p.mode = .uninstall then .uninstalled else .installed
    installedAt := now }

def metadataOf (p : Planned) (run : String) (now : Nat) : RunMetadata :=
  { version := 1
    run
    package := p.manifest.id
    mode := p.mode.name
    status := "running"
    startedAt := now
    fingerprint := some p.fingerprint }

/-- What a job comes to, without ending the surrounding one when it fails. -/
def outcomeOf {α : Type} (job : Job α) : Job (Except Failure α) := do
  let (result, t) := job.run.run (← get)
  set t
  return result

/-- The run proper; its marker is held by the caller. -/
def runClaimed (s : Session) (p : Planned) (run : String) (now : Nat) : Job RunReport := do
  let _ ← Run.writeMetadata s.layout (metadataOf p run now)
  match ← outcomeOf (execute s p run) with
  | .error f => do
    let _ ← outcomeOf (Run.updateStatus s.layout run "failed")
    throw f
  | .ok report => do
    Run.updateStatus s.layout run (if report.failed then "failed" else "done")
    if !report.failed then History.record s.layout (receiptOf p report now)
    return report

def runId (s : Surroundings) : String :=
  "run-" ++ Text.decimal s.now ++ "-" ++ Text.decimal s.process

def checkFingerprint (p : Planned) (expected : Option String) : Job Unit :=
  match expected with
  | none => return ()
  | some expected =>
    let expected := Text.trimmed expected
    if Text.lowered expected = Text.lowered p.fingerprint then return ()
    else Job.fail (.fingerprintMismatch expected p.fingerprint)

/-- Applies a planned package while holding the marker of the active run, which is cleared whatever
comes of it. -/
def applyPlanned (surroundings : Surroundings) (s : Session) (p : Planned)
    (expected : Option String) : Job RunReport := do
  checkFingerprint p expected
  let run := runId surroundings
  let _ ← Run.claim s.layout run
  let outcome ← outcomeOf (runClaimed s p run surroundings.now)
  let cleared ← outcomeOf (Run.clear s.layout)
  let report ← Job.ofExcept outcome
  Job.ofExcept cleared
  return report

def jsonText (fields : List (String × Json)) : String :=
  (Json.sortKeys (.object fields)).renderIndented ++ "\n"

def header (p : Planned) : List (String × Json) :=
  [("package", .text p.manifest.id), ("mode", .text p.mode.name),
   ("fingerprint", .text p.fingerprint)]

def linesText (lines : List String) : String := String.join (lines.map fun s => s ++ "\n")

def fingerprintLine (p : Planned) : String := "fingerprint: " ++ p.fingerprint

def planText (p : Planned) (json : Bool) : String :=
  if json then jsonText (header p ++ [("actions", Json.ofList Action.json p.actions)])
  else linesText (Render.actionLines p.vars p.actions ++ [fingerprintLine p])

def summaryLine (p : Planned) (r : RunReport) : String :=
  p.mode.name ++ " " ++ p.manifest.id ++ (if r.failed then " failed" else " passed")

def reportLines (p : Planned) (r : RunReport) : List String :=
  r.steps.flatMap (Render.stepLines .plain) ++
    r.chmodPaths.map (fun path => "needs write permission: " ++ p.vars.display path) ++
    r.deferred.map (fun a => a.kind.name ++ " " ++ a.filename) ++
    [summaryLine p r, fingerprintLine p]

def reportText (p : Planned) (r : RunReport) (json : Bool) : String :=
  if json then jsonText (header p ++ [("report", r.json)]) else linesText (reportLines p r)

def historyLines (package : Option String) (receipts : List Receipt) : List String :=
  match receipts.filter fun r => package.all fun id => r.package = id with
  | [] =>
    match package with
    | some id => ["No history for package: " ++ id]
    | none => ["No packages recorded"]
  | receipts => receipts.map Render.receiptLine

/-- What a command prints, and whether nothing failed in it. -/
structure Answer where
  output : String
  passed : Bool

def runCommand (s : Surroundings) (i : Invocation) : Job Answer := do
  match i.command with
  | .plan a => do
    let session ← openSession s i
    let p ← plan session a
    return ⟨planText p a.json, true⟩
  | .test a => do
    let session ← openSession s i
    let p ← plan session a
    let report ← test session p
    return ⟨reportText p report a.json, !report.failed⟩
  | .apply a expected => do
    let session ← openSession s i
    let p ← plan session a
    let report ← applyPlanned s session p expected
    return ⟨reportText p report a.json, !report.failed⟩
  | .history package => do
    let l ← openLayout s i.stateRoot
    return ⟨linesText (historyLines package (← History.entries l)), true⟩
  | .completions shell =>
    return ⟨(Shell.resolve shell s.shell false).completions ++ "\n", true⟩

/-- How the program ends. -/
structure Ending where
  exit : Nat
  output : String
  error : Option String

def run (s : Surroundings) (args : List String) (t : Tree) : Ending × Tree :=
  match parse args with
  | .misuse => (⟨2, "", none⟩, t)
  | .help => (⟨0, usage, none⟩, t)
  | .run i =>
    let (result, t) := (runCommand s i).run.run t
    match result with
    | .ok a => (⟨if a.passed then 0 else 1, a.output, none⟩, t)
    | .error f => (⟨1, "", some ("error: " ++ f.message)⟩, t)

end Patchboard.Cli
