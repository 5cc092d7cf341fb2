import Patchboard.FileTree
import Patchboard.Manifest
import Patchboard.Patch.Boardmod
import Patchboard.Patch.Modification
import Patchboard.Receipt
import Patchboard.Step
import Patchboard.Version.Select

set_option autoImplicit false

namespace Patchboard

abbrev PackageHistory := Tree → String → Except Failure (Option Receipt)

def History.view (l : StateLayout) : PackageHistory :=
  fun t package => ((History.lookup l package).run.run t).1

structure RunOptions where
  mode : Mode
  testing : Bool
  language : String

/-- What stays the same during a run. -/
structure RunContext where
  board : Board
  history : PackageHistory
  options : RunOptions

structure Cursor where
  position : Nat
  site : Site
  failed : Bool
  chmodPaths : List Path
  files : List (String × FileSummary)
  themeResults : List (Nat × List StepResult)
  deferred : List Action
  alternates : List Action

namespace Cursor

def start (site : Site) : Cursor := ⟨0, site, false, [], [], [], [], []⟩

def result (a : Action) (status : Status) : StepResult := .make a.kind a.filename status

def runChmod (c : RunContext) (a : Action) (s : Cursor) : List StepResult × Cursor :=
  match a.destination with
  | none => ([], s)
  | some p =>
    let target := c.board.vars.display p
    let needed (s : Cursor) : List StepResult × Cursor :=
      ([(StepResult.make a.kind target .chmodNeeded).withMessage "needs write permission"],
        { s with chmodPaths := s.chmodPaths ++ [p] })
    if c.options.testing then needed s
    else
      let (ok, site) := s.site.makeWritable p
      let s := { s with site }
      if ok then ([.make a.kind target .passed], s) else needed s

structure Folded where
  path : Path
  theme : Nat
  result : StepResult

def Folded.isFor (f : Folded) (path : Path) (theme : Nat) : Bool :=
  f.path.same path && f.theme = theme

def applyEvent (path : Path) (kind : EventKind) (r : StepResult) : StepResult :=
  match kind with
  | .opened => r
  | .replace outcome => { r with operations := r.operations ++ [outcome] }
  | .failure outcome =>
    { r with
      operations := r.operations ++ [outcome]
      status := .failed
      problem := r.problem.or outcome.problem }
  | .saved => if r.isFailure then r else { r with status := .saved }
  | .missing => { r with status := .missing, problem := some (.targetMissing path) }
  | .skipped => { r with status := .skipped }
  | .chmodNeeded => if r.status = .opened then { r with status := .chmodNeeded } else r
  | .error problem => { r with status := .failed, problem := some problem }

def foldInto (c : RunContext) (a : Action) (path : Path) (theme : Nat) (kind : EventKind) :
    List Folded → List Folded
  | [] =>
    let fresh := (StepResult.make a.kind (c.board.vars.display path) .opened).withTheme theme
    [⟨path, theme, applyEvent path kind fresh⟩]
  | f :: rest =>
    if f.isFor path theme then { f with result := applyEvent path kind f.result } :: rest
    else f :: foldInto c a path theme kind rest

/-- An error that belongs to no file is a result of its own. -/
def looseResult? (a : Action) (e : Event) : Option StepResult :=
  match e.path, e.kind with
  | none, .error problem => some (((result a .failed).withTheme e.theme).withProblem problem)
  | _, _ => none

def foldEvents (c : RunContext) (a : Action) (events : List Event) : List Folded :=
  events.foldl
    (fun folded e =>
      match e.path with
      | some path => foldInto c a path e.theme e.kind folded
      | none => folded)
    []

def settleMessage (r : StepResult) : StepResult :=
  match r.problem with
  | some p => { r with message := p.message }
  | none => r

def chmodPathsOf (events : List Event) (paths : List Path) : List Path :=
  events.foldl
    (fun paths e =>
      match e.path, e.kind with
      | some p, .chmodNeeded => if paths.any p.same then paths else paths ++ [p]
      | _, _ => paths)
    paths

def lowerName (name : List Char) : List Char := Text.lowerAscii name

/-- The lowered name of a file; a template keeps the name of its directory, so that copies of it
in several themes stay apart. -/
def indexName (p : Path) : List Char :=
  let name := lowerName (p.fileName?.getD [])
  let suffix := ".template.php".toList
  if suffix.isSuffixOf name then
    match p.parent?.bind Path.fileName? with
    | some directory => lowerName directory ++ '/' :: name
    | none => name
  else name

def indexKey (a : Action) (p : Path) : String :=
  String.ofList (indexName p ++ ['|', '|'] ++ a.filename.toList)

def FileSummary.extend (f : FileSummary) (r : StepResult) : FileSummary :=
  { f with
    operations := f.operations ++ r.operations
    status := if f.status.isFailure then f.status else r.status }

def addToIndex (key : String) (path : Path) (r : StepResult) :
    List (String × FileSummary) → List (String × FileSummary)
  | [] => [(key, ⟨path, r.theme, r.status, r.operations⟩)]
  | (k, f) :: rest =>
    if key = k then (k, FileSummary.extend f r) :: rest
    else if key < k then (key, ⟨path, r.theme, r.status, r.operations⟩) :: (k, f) :: rest
    else (k, f) :: addToIndex key path r rest

def indexFolded (a : Action) (files : List (String × FileSummary)) (f : Folded) :
    List (String × FileSummary) :=
  addToIndex (indexKey a f.path) f.path f.result files

def foldReport (c : RunContext) (a : Action) (report : Report) (s : Cursor) :
    List StepResult × Cursor :=
  let folded := (foldEvents c a report.events).map fun f =>
    { f with result := settleMessage f.result }
  (report.events.filterMap (looseResult? a) ++ folded.map (·.result),
    { s with
      chmodPaths := chmodPathsOf report.events s.chmodPaths
      files := folded.foldl (indexFolded a) s.files })

def runPatch (c : RunContext) (a : Action) (raw : String) (s : Cursor) :
    Except Problem Progress :=
  let options : PatchOptions := ⟨c.options.testing, a.reverse⟩
  if a.isBoardmod then .ok (Boardmod.applyTo c.board options raw s.site)
  else
    match Document.parse raw with
    | .ok d => .ok (Modification.applyTo c.board options d s.site)
    | .error f => .error (.malformedPatch f.message)

def runModification (c : RunContext) (a : Action) (s : Cursor) : List StepResult × Cursor :=
  let source := a.source.getD ⟨a.filename⟩
  match s.site.tree.text? source with
  | .error _ => ([(result a .missing).withProblem (.targetMissing source)], s)
  | .ok raw =>
    match runPatch c a raw s with
    | .error problem => ([(result a .failed).withProblem problem], s)
    | .ok progress =>
      let (results, s) := foldReport c a progress.report { s with site := progress.site }
      if !progress.report.everythingFound && !results.any StepResult.isFailure then
        (results ++ [(result a .failed).withMessage "not every search was found"], s)
      else (results, s)

def requirement (a : Action) (id : String) (version : Option String)
    (found : Except Failure (Option Receipt)) : StepResult :=
  let make (status : Status) (message : String) : StepResult :=
    (StepResult.make a.kind id status).withMessage message
  match found, version with
  | .error f, _ => make .failed f.message
  | .ok none, some expression =>
    make .failed (id ++ " " ++ expression ++ " is required but not installed")
  | .ok none, none => make .failed (id ++ " is required but not installed")
  | .ok (some r), some expression =>
    if Version.isMatch r.version expression then
      make .passed (id ++ " " ++ r.version ++ " is installed")
    else
      make .failed (id ++ " " ++ r.version ++ " is installed but " ++ expression ++ " is required")
  | .ok (some r), none => make .passed (id ++ " " ++ r.version ++ " is installed")

def runRequires (c : RunContext) (a : Action) (s : Cursor) : StepResult :=
  match a.detail with
  | .requires id version => requirement a id version (c.history s.site.tree id)
  | _ => (result a .failed).withProblem (.unknownActionType a.kind.name)

def sameLanguage (a b : String) : Bool := Text.lowered (Text.trimmed a) = Text.lowered b

/-- The document of a kind that is shown: the first in the language, or else the first without
one. -/
def selectedOf (actions : List Action) (language : String) (kind : ActionKind) : Option Nat :=
  let candidates := actions.zipIdx.filter fun n => n.1.kind = kind
  ((candidates.find? fun n => n.1.language?.any fun l => sameLanguage l language).or
    (candidates.find? fun n => n.1.language?.isNone)).map (·.2)

def selected (actions : List Action) (language : String) : List Nat :=
  [ActionKind.readme, .license].filterMap (selectedOf actions language)

def runDocument (c : RunContext) (actions : List Action) (index : Nat) (a : Action) (s : Cursor) :
    StepResult × Cursor :=
  if (selected actions c.options.language).contains index then
    match a.source with
    | some source =>
      if s.site.tree.isFile source then (result a .opened, s)
      else ((result a .missing).withProblem (.targetMissing source), s)
    | none => (result a .opened, s)
  else
    ((result a .skipped).withMessage ("alternate language: " ++ a.language?.getD "default"),
      { s with alternates := s.alternates ++ [a] })

def runDeferred (c : RunContext) (a : Action) (s : Cursor) : StepResult × Cursor :=
  if a.kind = .database && c.options.mode = .uninstall then
    ((result a .skipped).withMessage "database changes are not reverted on uninstall", s)
  else (result a .deferred, { s with deferred := s.deferred ++ [a] })

def createFile (p : Path) : Job Unit := do
  if (← get).pathExists p then return () else FileTree.write p ""

def execute (a : Action) (destination : Path) : Job Unit :=
  let source := a.source.getD destination
  match a.kind with
  | .createFile => createFile destination
  | .createDir => Job.ofAction (Tree.makeDirectories destination)
  | .requireFile => FileTree.copyFile source destination
  | .requireDir => FileTree.copyDirectory source destination
  | .moveFile => FileTree.move source destination
  | .moveDir => FileTree.move source destination
  | .removeFile => FileTree.remove destination
  | .removeDir => FileTree.remove destination
  | kind => Job.fail (.noFileTreeAction kind.name)

/-- The source of an action is there and is of the kind that the action takes. -/
def sourcePresent (a : Action) (t : Tree) : Bool :=
  a.source.any fun source => if a.kind.isDirectory then t.isDirectory source else t.isFile source

/-- What keeps an action from being tried. -/
def absent? (a : Action) (destination : Path) (t : Tree) : Option Path :=
  if a.kind.takesSource && !sourcePresent a t then some (a.source.getD ⟨""⟩)
  else if a.kind.isRemoval && !t.pathExists destination then some destination
  else none

def runAt (c : RunContext) (a : Action) (destination : Path) (theme : Nat) (s : Cursor) :
    StepResult × Cursor :=
  let make (status : Status) : StepResult :=
    (StepResult.make a.kind (c.board.vars.display destination) status).withTheme theme
  match absent? a destination s.site.tree with
  | some p => ((make .missing).withProblem (.targetMissing p), s)
  | none =>
    if c.options.testing then (make .passed, s)
    else
      let (outcome, site) := s.site.run (execute a destination)
      let s := { s with site }
      match outcome with
      | .ok () => (make .saved, s)
      | .error f =>
        (((make .failed).withProblem (.permissionDenied destination)).withMessage f.message, s)

def runAll (c : RunContext) (a : Action) : List ThemeCopy → Cursor → List StepResult × Cursor
  | [], s => ([], s)
  | place :: places, s =>
    let (r, s) := runAt c a place.path place.theme s
    let (rs, s) := runAll c a places s
    (r :: rs, s)

/-- The copies of a destination are looked up after the action itself was carried out. -/
def runTree (c : RunContext) (a : Action) (s : Cursor) : List StepResult × Cursor :=
  match a.destination with
  | none =>
    ([(result a .failed).withProblem (.malformedPatch (a.kind.name ++ " has no destination"))], s)
  | some destination =>
    let (r, s) := runAt c a destination Theme.noCustom s
    let (rs, s) := runAll c a (ThemeCopy.ofAction c.board.themes s.site.tree a) s
    (r :: rs, s)

def single (r : StepResult × Cursor) : List StepResult × Cursor := ([r.1], r.2)

def runAction (c : RunContext) (actions : List Action) (index : Nat) (a : Action) (s : Cursor) :
    List StepResult × Cursor :=
  match a.kind with
  | .chmod => runChmod c a s
  | .modification => runModification c a s
  | .requires => ([runRequires c a s], s)
  | .readme | .license => single (runDocument c actions index a s)
  | .error => ([(result a .failed).withProblem (.unknownActionType a.filename)], s)
  | .code | .database | .hook | .credits | .redirect => single (runDeferred c a s)
  | _ => runTree c a s

def displayTarget (c : RunContext) (a : Action) : String :=
  match a.destination with
  | some p => c.board.vars.display p
  | none => a.filename

def addThemeResult (r : StepResult) : List (Nat × List StepResult) → List (Nat × List StepResult)
  | [] => [(r.theme, [r])]
  | (id, rs) :: rest =>
    if r.theme = id then (id, rs ++ [r]) :: rest
    else if r.theme < id then (r.theme, [r]) :: (id, rs) :: rest
    else (id, rs) :: addThemeResult r rest

def record (results : List StepResult) (s : Cursor) : Cursor :=
  { s with
    failed := s.failed || results.any StepResult.isFailure
    themeResults :=
      (results.filter StepResult.isCustom).foldl (fun all r => addThemeResult r all)
        s.themeResults }

def next (c : RunContext) (actions : List Action) (s : Cursor) : Option ActionStep × Cursor :=
  match actions[s.position]? with
  | none => (none, s)
  | some a =>
    let index := s.position
    let (results, s) := runAction c actions index a { s with position := index + 1 }
    (some ⟨index, a.kind, displayTarget c a, a.description, results⟩, record results s)

def isDone (actions : List Action) (s : Cursor) : Bool := actions.length ≤ s.position

def summaries (s : Cursor) : List FileSummary := s.files.map (·.2)

def resultsOf (s : Cursor) (theme : Nat) : List StepResult :=
  ((s.themeResults.find? fun e => e.1 = theme).map (·.2)).getD []

def themesTouched (s : Cursor) : List Nat := s.themeResults.map (·.1)

def walk (c : RunContext) (actions : List Action) : Nat → Cursor → List ActionStep × Cursor
  | 0, s => ([], s)
  | n + 1, s =>
    match next c actions s with
    | (none, s) => ([], s)
    | (some step, s) =>
      let (steps, s) := walk c actions n s
      (step :: steps, s)

def report (steps : List ActionStep) (s : Cursor) : RunReport :=
  ⟨steps, s.failed, s.chmodPaths, s.deferred, s.themesTouched⟩

def runAllActions (c : RunContext) (actions : List Action) (site : Site) : RunReport × Cursor :=
  let (steps, s) := walk c actions actions.length (start site)
  (report steps s, s)

end Cursor

end Patchboard
