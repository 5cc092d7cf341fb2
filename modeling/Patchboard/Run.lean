import Patchboard.Json.Parser
import Patchboard.StateLayout

set_option autoImplicit false

namespace Patchboard

structure RunMetadata where
  version : Nat
  run : String
  package : String
  mode : String
  status : String
  startedAt : Nat
  fingerprint : Option String
deriving DecidableEq, Inhabited

structure JournalEntry where
  seq : Nat
  action : String
  target : String
  status : String
deriving DecidableEq, Inhabited

namespace Record

def hasDuplicate (known : List String) (fields : List (String × Json)) : Bool :=
  known.any fun key => (fields.filter fun f => f.1 = key).length > 1

def values? (known : List String) (least : Nat) (j : Json) : Option (List (Option Json)) :=
  match j with
  | .object fields =>
    if hasDuplicate known fields then none
    else some (known.map fun key => (fields.find? fun f => f.1 = key).map (·.2))
  | .list items =>
    if least ≤ items.length && items.length ≤ known.length then
      some (items.map some ++ List.replicate (known.length - items.length) none)
    else none
  | _ => none

def text? : Option Json → Option String
  | some (.text s) => some s
  | _ => none

def natural? (bound : Nat) : Option Json → Option Nat
  | some (.integer n) => if 0 ≤ n && n < bound then some n.toNat else none
  | _ => none

def optionalText? : Option Json → Option (Option String)
  | none => some none
  | some .null => some none
  | some (.text s) => some (some s)
  | some _ => none

end Record

namespace RunMetadata

def json (m : RunMetadata) : Json :=
  .object <|
    [("version", Json.natural m.version), ("run_id", .text m.run), ("package_id", .text m.package),
     ("mode", .text m.mode), ("status", .text m.status),
     ("started_at_unix", Json.natural m.startedAt)] ++
    Json.field? "fingerprint" (m.fingerprint.map Json.text)

def keys : List String :=
  ["version", "run_id", "package_id", "mode", "status", "started_at_unix", "fingerprint"]

def ofJson? (j : Json) : Option RunMetadata := do
  match ← Record.values? keys 6 j with
  | [version, run, package, mode, status, startedAt, fingerprint] =>
    return {
      version := ← Record.natural? UInt32.size version
      run := ← Record.text? run
      package := ← Record.text? package
      mode := ← Record.text? mode
      status := ← Record.text? status
      startedAt := ← Record.natural? UInt64.size startedAt
      fingerprint := ← Record.optionalText? fingerprint }
  | _ => none

end RunMetadata

namespace JournalEntry

def json (e : JournalEntry) : Json :=
  .object
    [("seq", Json.natural e.seq), ("action", .text e.action), ("target", .text e.target),
     ("status", .text e.status)]

def keys : List String := ["seq", "action", "target", "status"]

def ofJson? (j : Json) : Option JournalEntry := do
  match ← Record.values? keys 4 j with
  | [seq, action, target, status] =>
    return {
      seq := ← Record.natural? UInt64.size seq
      action := ← Record.text? action
      target := ← Record.text? target
      status := ← Record.text? status }
  | _ => none

end JournalEntry

namespace Run

def readIfThere (context : String) (p : Path) : Job (Option String) := do
  match (← get).text? p with
  | .ok raw => return some raw
  | .error .notFound => return none
  | .error e => Job.doing (context ++ p.text) (Job.fail (.file e))

def active (l : StateLayout) : Job (Option String) := do
  let raw ← readIfThere "failed to read active run file: " l.activeMarker
  return (raw.map Text.trimmed).filter fun run => !run.isEmpty

/-- The run that holds the marker, as far as it can be read. -/
def holder? (l : StateLayout) (t : Tree) : Option String :=
  match ((active l).run.run t).1 with
  | .ok run => run
  | .error _ => none

def prepare (l : StateLayout) : Job Unit := FileTree.ensureParent l.activeMarker

/-- Makes the marker, empty at first, unless another run has made one. -/
def create (l : StateLayout) : Job Place := do
  match (Tree.createNew l.activeMarker).run.run (← get) with
  | (.ok place, t) =>
    set t
    return place
  | (.error .exists, t) => Job.fail (.runActive (holder? l t))
  | (.error e, _) =>
    Job.doing ("failed to claim active run file: " ++ l.activeMarker.text) (Job.fail (.file e))

def fill (l : StateLayout) (place : Place) (run : String) (fault : Option Tree.Fault) : Job Unit :=
  Job.on "failed to write active run file: " l.activeMarker
    (Tree.writeOpened place (run ++ "\n") fault)

def flush (l : StateLayout) (fault : Option FileError) : Job Unit :=
  match fault with
  | none => return ()
  | some e => Job.on "failed to flush active run file: " l.activeMarker (throw e)

/-- What goes wrong on the disk while a marker is written. -/
structure Faults where
  write : Option Tree.Fault
  flush : Option FileError

def Faults.none : Faults := ⟨.none, .none⟩

/-- Takes the marker for a run. When it cannot be written it stays, though the claim fails. -/
def claimUnder (faults : Faults) (l : StateLayout) (run : String) : Job Path := do
  prepare l
  let place ← create l
  fill l place run faults.write
  flush l faults.flush
  return l.activeMarker

def claim (l : StateLayout) (run : String) : Job Path := claimUnder .none l run

def look (l : StateLayout) : Job Bool := return (← get).pathExists l.activeMarker

def remove (l : StateLayout) : Job Unit :=
  Job.on "failed to clear active run file: " l.activeMarker (Tree.removeFile l.activeMarker)

def clear (l : StateLayout) : Job Unit := do
  if ← look l then remove l

def writeMetadata (l : StateLayout) (m : RunMetadata) : Job Path := do
  let p := l.metadata m.run
  FileTree.ensureParent p
  Job.on "failed to write run metadata file: " p (Tree.writeText p m.json.renderIndented)
  return p

def readMetadata (l : StateLayout) (run : String) : Job (Option RunMetadata) := do
  let p := l.metadata run
  match ← readIfThere "failed to read run metadata file: " p with
  | none => return none
  | some raw =>
    match (Json.parse? raw).bind RunMetadata.ofJson? with
    | some m => return some m
    | none => Job.doing ("failed parsing run metadata file: " ++ p.text) (Job.fail .json)

def updateStatus (l : StateLayout) (run status : String) : Job Unit := do
  match ← readMetadata l run with
  | none => Job.fail (.noMetadata run)
  | some m =>
    let _ ← writeMetadata l { m with status }
    return ()

def appendJournal (l : StateLayout) (run : String) (e : JournalEntry) : Job Path := do
  let p := l.journal run
  FileTree.ensureParent p
  Job.on "failed to open run journal: " p (Tree.appendText p (e.json.render ++ "\n"))
  return p

def readLine (p : Path) (s : List Char) : Except Failure JournalEntry :=
  match (Json.parse? (String.ofList s)).bind JournalEntry.ofJson? with
  | some e => .ok e
  | none => .error ((Failure.ofCause .json).within ("invalid run journal line in " ++ p.text))

def readJournal (l : StateLayout) (run : String) : Job (List JournalEntry) := do
  let p := l.journal run
  match ← readIfThere "failed to read run journal: " p with
  | none => return []
  | some raw =>
    Job.ofExcept
      (((Text.lines raw.toList).filter fun s => !s.all Text.isBlank).mapM (readLine p))

end Run

end Patchboard
