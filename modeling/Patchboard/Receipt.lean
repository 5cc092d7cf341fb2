import Patchboard.Json.Basic
import Patchboard.StateLayout

set_option autoImplicit false

namespace Patchboard

inductive InstallState where
  | installed
  | uninstalled
deriving DecidableEq, Inhabited

namespace InstallState

def name : InstallState → String
  | .installed => "installed"
  | .uninstalled => "uninstalled"

def parse (s : String) : Except Failure InstallState :=
  match s with
  | "installed" => .ok .installed
  | "uninstalled" => .ok .uninstalled
  | other => .error (Failure.ofCause (.unknownState other))

end InstallState

structure Receipt where
  package : String
  name : String
  version : String
  themes : List Nat
  databaseChanges : List String
  state : InstallState
  installedAt : Nat
deriving DecidableEq, Inhabited

namespace Receipt

def line (key value : String) : String := key ++ "=" ++ value ++ "\n"

def lines (r : Receipt) : List String :=
  [line "package_id" r.package, line "name" r.name, line "version" r.version] ++
    r.themes.map (fun id => line "theme_installed" (Text.decimal id)) ++
    r.databaseChanges.map (line "db_change") ++
    [line "install_state" r.state.name, line "installed_at_unix" (Text.decimal r.installedAt)]

def render (r : Receipt) : String := String.join r.lines

/-- What the lines read so far say. -/
structure Draft where
  package : Option String
  name : Option String
  version : Option String
  themes : List Nat
  databaseChanges : List String
  state : Option InstallState
  installedAt : Option Nat

def Draft.empty : Draft := ⟨none, none, none, [], [], none, none⟩

def number (context : String) (bound : Nat) (value : String) : Except Failure Nat :=
  (Text.natural? bound value.toList).mapError fun e =>
    (Failure.ofCause (.numeral e)).within context

/-- Takes one field in; a later one of the same name wins, but for those that may repeat. -/
def Draft.take (d : Draft) (key value : String) : Except Failure Draft :=
  match key with
  | "package_id" => .ok { d with package := some value }
  | "name" => .ok { d with name := some value }
  | "version" => .ok { d with version := some value }
  | "theme_installed" => do
    let id ← number "theme_installed must be u32" UInt32.size value
    return { d with themes := d.themes ++ [id] }
  | "db_change" => .ok { d with databaseChanges := d.databaseChanges ++ [value] }
  | "install_state" => do return { d with state := some (← InstallState.parse value) }
  | "installed_at_unix" => do
    let time ← number "installed_at_unix must be u64" UInt64.size value
    return { d with installedAt := some time }
  | _ => .ok d

/-- A line without an equals sign says nothing. -/
def Draft.takeLine (d : Draft) (s : List Char) : Except Failure Draft :=
  match Text.splitOnce? '=' (Text.trim s) with
  | none => .ok d
  | some (key, value) => d.take (String.ofList key) (String.ofList value)

def required {α : Type} (name : String) : Option α → Except Failure α
  | some a => .ok a
  | none => .error (Failure.ofCause (.missingReceiptField name))

def Draft.finish (d : Draft) : Except Failure Receipt := do
  let package ← required "package_id" d.package
  let version ← required "version" d.version
  let installedAt ← required "installed_at_unix" d.installedAt
  return {
    package
    name := d.name.getD package
    version
    themes := d.themes
    databaseChanges := d.databaseChanges
    state := d.state.getD .installed
    installedAt }

def parse (raw : String) : Except Failure Receipt := do
  let d ← (Text.lines raw.toList).foldlM Draft.takeLine Draft.empty
  d.finish

def json (r : Receipt) : Json :=
  .object
    [("package_id", .text r.package), ("name", .text r.name), ("version", .text r.version),
     ("themes_installed", Json.ofList Json.natural r.themes),
     ("db_changes", Json.ofList .text r.databaseChanges), ("state", .text r.state.name),
     ("installed_at_unix", Json.natural r.installedAt)]

end Receipt

namespace History

def parseAt (p : Path) (raw : String) : Job Receipt :=
  Job.doing ("failed to parse receipt: " ++ p.text) (Job.ofExcept (Receipt.parse raw))

def read? (l : StateLayout) (package : String) : Job (Option Receipt) := do
  let p := l.receipt package
  match (← get).text? p with
  | .error .notFound => return none
  | .error e => Job.doing ("failed to read receipt: " ++ p.text) (Job.fail (.file e))
  | .ok raw => return some (← parseAt p raw)

def lookup (l : StateLayout) (package : String) : Job (Option Receipt) := do
  return (← read? l package).filter fun r => r.state = .installed

def record (l : StateLayout) (r : Receipt) : Job Unit := do
  let p := l.receipt r.package
  FileTree.ensureParent p
  Job.on "failed to write receipt: " p (Tree.writeText p r.render)

def isReceipt (t : Tree) (p : Path) : Bool :=
  t.isFile p && p.extension? = some "receipt".toList

def readAt (p : Path) : Job Receipt := do
  let raw ← Job.on "failed to read receipt: " p (Tree.readText p)
  parseAt p raw

/-- Every receipt, those of uninstalled packages included, in the order of the package ids. -/
def entries (l : StateLayout) : Job (List Receipt) := do
  if (← get).pathExists l.receipts then
    let names ← Job.on "failed to read history directory: " l.receipts
      (Tree.listDirectory l.receipts)
    let t ← get
    let paths := (names.map fun name => l.receipts.join ⟨name⟩).filter (isReceipt t)
    let receipts ← paths.mapM readAt
    return receipts.mergeSort fun a b => compare a.package b.package != .gt
  else return []

end History

end Patchboard
