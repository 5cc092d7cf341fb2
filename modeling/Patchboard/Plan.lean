import Patchboard.Action
import Patchboard.Digest
import Patchboard.FileTree
import Patchboard.Manifest
import Patchboard.PathVariables
import Patchboard.Permissions
import Patchboard.Version.Select

set_option autoImplicit false

namespace Patchboard

structure PlanRequest where
  mode : Mode
  product : String
  previous : Option String
  staging : Path

namespace Plan

def admitsProduct (r : PlanRequest) (block : Document) : Bool :=
  (block.fetch? "@for").all fun expression => Version.isMatch r.product expression

def admitsPrevious (r : PlanRequest) (block : Document) : Bool :=
  if r.mode = .upgrade then
    (block.fetch? "@from").all fun expression =>
      r.previous.any fun previous => Version.isMatch previous expression
  else true

def applies (r : PlanRequest) (block : Document) : Bool :=
  admitsProduct r block && admitsPrevious r block

def selectBlock? (m : Manifest) (r : PlanRequest) : Option Document :=
  (m.methodBlocks r.mode).find? (applies r)

/-- What the planning of a node needs to know. -/
structure Context where
  vars : PathVariables
  staging : Path

/-- A name below the staging directory, unless it begins with a variable. -/
def Context.stagingPath (c : Context) (name : String) : Path :=
  let name := Text.trim name.toList
  if name.head? = some '$' then c.vars.resolve (String.ofList name)
  else c.staging.join (Path.ofChars (name.dropWhile PathVariables.isSlash))

def inlineName (number : Nat) (extension : String) : String :=
  "$auto_" ++ Text.decimal number ++ "." ++ extension

/-- An action with the file it works on: a file of the package, or an inline text under a numbered
name. The number of inline texts so far is carried along. -/
def attach (c : Context) (a : Action) (node : Document) (extension : String) (count : Nat) :
    Job (Action × Nat) := do
  let text := node.fetch "."
  if node.flag "@inline" then
    let filename := inlineName count extension
    let path := c.staging.join ⟨filename⟩
    FileTree.ensureDirectory c.staging
    Job.on "failed to write inline payload: " path (Tree.writeText path text)
    return ({ a with filename, source := some path }, count + 1)
  else
    let filename := Text.trimmed text
    return ({ a with filename, source := some (c.stagingPath filename) }, count)

def notBlank (s : String) : Bool := !Text.allBlank s

def creditsUrl (url : String) : String :=
  let url := Text.trimmed url
  if url.isEmpty || Text.contains "://".toList url.toList then url else "http://" ++ url

def timeout? (s : String) : Option Nat :=
  (Text.natural? UInt32.size (Text.trim s.toList)).toOption

def themeChoice (node : Document) : ThemeChoice :=
  ((node.fetch? "@theme").map ThemeChoice.parse).getD .auto

def isBoardmodFormat (s : String) : Bool := Text.lowered (Text.trimmed s) = "boardmod"

def modificationOf (a : Action) (node : Document) : Action :=
  { a with isBoardmod := (node.fetch? "@format").any isBoardmodFormat, reverse := node.flag "@reverse" }

def hookOf (a : Action) (node : Document) : Action :=
  let hook := node.fetch "@hook"
  { a with
    filename := hook
    reverse := node.flag "@reverse"
    detail := .hook hook (node.fetch "@function") (node.fetch "@file") (node.flag "@object") }

def creditsOf (a : Action) (node : Document) : Action :=
  { a with
    detail := .credits (node.fetch ".") (creditsUrl (node.fetch "@url")) (node.fetch "@license")
      (node.fetch "@licenseurl") (node.fetch "@copyright") }

def requiresOf (a : Action) (node : Document) : Action :=
  let id := Text.trimmed (node.fetch "@id")
  { a with filename := id, detail := .requires id ((node.fetch? "@version").filter notBlank) }

def createOf (c : Context) (a : Action) (node : Document) : Action :=
  let name := node.fetch "@name"
  { a with
    filename := name
    destination := some ((c.vars.resolve (node.fetch "@destination")).join ⟨name⟩) }

def requireOf (c : Context) (a : Action) (node : Document) : Action :=
  let name := node.fetch "@name"
  let base := Path.ofChars ((Path.fileName? ⟨name⟩).getD [])
  { a with
    filename := name
    source := some (match node.fetch? "@from" with
      | some source => c.vars.resolve source
      | none => c.stagingPath name)
    destination := some ((c.vars.resolve (node.fetch "@destination")).join base)
    detail := .tree (themeChoice node) }

def moveOf (c : Context) (a : Action) (node : Document) : Action :=
  let source := node.fetch "@from"
  { a with
    filename := (node.fetch? "@name").getD source
    source := some (c.vars.resolve source)
    destination := some (c.vars.resolve (node.fetch "@destination")) }

def removeOf (c : Context) (a : Action) (node : Document) : Action :=
  let name := node.fetch "@name"
  { a with
    filename := name
    destination := some (c.vars.resolve name)
    detail := .tree (themeChoice node) }

def actionOf (c : Context) (kind : ActionKind) (node : Document) (count : Nat) :
    Job (Action × Nat) := do
  let a := { Action.make kind "" with description := node.fetch "@description" }
  match kind with
  | .readme | .license => do
    let (a, count) ← attach c a node "txt" count
    let detail := .document ((node.fetch? "@lang").filter notBlank) (node.flag "@parsebbc")
    return ({ a with detail }, count)
  | .redirect => do
    let (a, count) ← attach c a node "txt" count
    let detail := .redirect (node.fetch "@url") ((node.fetch? "@timeout").bind timeout?)
    return ({ a with detail }, count)
  | .code | .database => attach c a node "php" count
  | .modification => do
    let a := modificationOf a node
    attach c a node (if a.isBoardmod then "mod" else "toml") count
  | .hook => return (hookOf a node, count)
  | .credits => return (creditsOf a node, count)
  | .requires => return (requiresOf a node, count)
  | .createFile | .createDir => return (createOf c a node, count)
  | .requireFile | .requireDir => return (requireOf c a node, count)
  | .moveFile | .moveDir => return (moveOf c a node, count)
  | .removeFile | .removeDir => return (removeOf c a node, count)
  | .error | .chmod => return (a, count)

/-- Plans one node. A kind that may not be named, or a file-tree action without a name, becomes an
action that reports itself. -/
def planNode (c : Context) (node : Document) (count : Nat) : Job (Action × Nat) := do
  let tag := node.fetch "@kind"
  match ActionKind.parse? tag with
  | none => return (Action.unknown tag, count)
  | some .error => return (Action.unknown tag, count)
  | some kind => do
    let (a, count) ← actionOf c kind node count
    if kind.isFileTree && Text.allBlank a.filename then
      return (Action.unknown (tag ++ " (missing name)"), count)
    else return (a, count)

def obstacle? (s : Site) (a : Action) : Option Path :=
  if a.kind.addsContent then
    (a.destination.bind s.tree.probe?).filter fun p => !s.isWritable p
  else none

def addPath (paths : List Path) (p : Option Path) : List Path :=
  match p with
  | none => paths
  | some p => if paths.any p.same then paths else paths ++ [p]

/-- Plans the nodes of a block in order, and gathers the paths that need write access. -/
def planNodes (c : Context) (permissions : Permissions) :
    List Document → Nat → List Path → Job (List Action × List Path)
  | [], _, blocked => return ([], blocked)
  | node :: nodes, count, blocked => do
    let (a, count) ← planNode c node count
    let blocked := addPath blocked (obstacle? ⟨← get, permissions⟩ a)
    let (actions, blocked) ← planNodes c permissions nodes count blocked
    return (a :: actions, blocked)

def actions (m : Manifest) (r : PlanRequest) (vars : PathVariables)
    (permissions : Permissions) : Job (List Action) := do
  match selectBlock? m r with
  | none => Job.fail (.noInstructions m.id r.mode.name r.product)
  | some block => do
    let nodes := block.children "." "action"
    let (actions, blocked) ← planNodes ⟨vars, r.staging⟩ permissions nodes 0 []
    return blocked.map Action.chmod ++ actions

/-- The text whose digest stands for a plan. -/
def canonical (actions : List Action) : String := (Json.ofList Action.json actions).render

def fingerprint (actions : List Action) : String :=
  Digest.sha256 (canonical actions).toUTF8.toList

end Plan

end Patchboard
