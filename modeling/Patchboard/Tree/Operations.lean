import Patchboard.Tree.Basic

set_option autoImplicit false

namespace Patchboard.Tree

abbrev Action (α : Type) := ExceptT FileError (StateM Tree) α

def ask {α : Type} (f : Tree → Except FileError α) : Action α := do
  match f (← get) with
  | .ok a => return a
  | .error e => throw e

def contents? (t : Tree) (p : Path) : Except FileError Contents :=
  match t.find p with
  | .error e => .error e
  | .ok (_, .directory _) => .error .isDirectory
  | .ok (_, .file contents _) => .ok contents

def text? (t : Tree) (p : Path) : Except FileError String :=
  match t.contents? p with
  | .error e => .error e
  | .ok (.bytes _) => .error .notText
  | .ok (.text s) => .ok s

def readText (p : Path) : Action String := ask fun t => t.text? p

/-- The place that a file opened for writing stands at, and the mode it has if it exists. -/
def writable? (t : Tree) (p : Path) : Except FileError (Place × Option Nat) :=
  match t.locate p with
  | .error e => .error e
  | .ok place =>
    if endsInSeparator p || !endsInName p then .error .isDirectory
    else
      match t.at? place with
      | some (.directory _) => .error .isDirectory
      | some (.file _ mode) => .ok (place, some mode)
      | none => .ok (place, none)

def writeContents (p : Path) (contents : Contents) : Action Unit := do
  let (place, mode) ← ask fun t => t.writable? p
  modify fun t => t.put place (.file contents (mode.getD modeOfNewFile))

def writeText (p : Path) (s : String) : Action Unit := writeContents p (.text s)

def createNew (p : Path) : Action Place := do
  let place ← ask fun t => t.locate p
  if ((← get).at? place).isSome then throw .exists
  else
    writeText p ""
    return place

/-- Why no more of a text gets into a file than its first bytes. -/
structure Fault where
  bytes : Nat
  error : FileError

def taken (s : String) : Option Fault → Contents
  | none => .text s
  | some fault => .ofBytes (s.toUTF8.extract 0 fault.bytes)

/-- Writes to an open file that is empty; one that is gone by now does not come back. -/
def writeOpened (place : Place) (s : String) (fault : Option Fault) : Action Unit := do
  modify fun t =>
    match t.at? place with
    | some (.file _ mode) => t.put place (.file (taken s fault) mode)
    | _ => t
  match fault with
  | none => return ()
  | some fault => throw fault.error

def appended (contents : Contents) (s : String) : Contents :=
  match contents with
  | .text old => .text (old ++ s)
  | .bytes old => .bytes (old ++ s.toUTF8.toList)

def appendText (p : Path) (s : String) : Action Unit := do
  let (place, _) ← ask fun t => t.writable? p
  let old := match (← get).at? place with
    | some (.file contents _) => contents
    | _ => .text ""
  writeContents p (appended old s)

def makeDirectory (p : Path) : Action Unit := do
  let place ← ask fun t => t.locate p
  if ((← get).at? place).isSome then throw .exists
  else modify fun t => t.put place (.directory modeOfNewDirectory)

def ensureDirectory (p : Path) : Action Unit := do
  let t ← get
  match (makeDirectory p).run.run t with
  | (.ok (), t) => set t
  | (.error e, _) => if t.isDirectory p then return () else throw e

def makeDirectoriesFrom : Nat → Path → Action Unit
  | 0, _ => throw .wholeTree
  | fuel + 1, p => do
    if p.text.isEmpty then return ()
    else
      let t ← get
      match (makeDirectory p).run.run t with
      | (.ok (), t) => set t
      | (.error .notFound, _) =>
        match p.parent? with
        | none => throw .wholeTree
        | some parent =>
          makeDirectoriesFrom fuel parent
          ensureDirectory p
      | (.error e, _) => if t.isDirectory p then return () else throw e

def makeDirectories (p : Path) : Action Unit := makeDirectoriesFrom (p.chars.length + 1) p

def makeParents (p : Path) : Action Unit :=
  match p.parent? with
  | some parent => makeDirectories parent
  | none => return ()

def listDirectory (p : Path) : Action (List String) := ask fun t =>
  match t.find p with
  | .error e => .error e
  | .ok (_, .file _ _) => .error .notDirectory
  | .ok (place, .directory _) => .ok (t.names place)

/-- Copies contents and mode. A file copied onto itself comes out empty, since it is opened for
writing before it is read. -/
def copyFile (source target : Path) : Action Unit := do
  let (origin, entry) ← ask fun t => t.find source
  match entry with
  | .directory _ => throw .notRegular
  | .file contents mode =>
    let (place, _) ← ask fun t => t.writable? target
    let contents := if place = origin then .text "" else contents
    modify fun t => t.put place (.file contents mode)

def removeFile (p : Path) : Action Unit := do
  let (place, entry) ← ask fun t => t.find p
  if entry.isDirectory then throw .isDirectory
  else modify fun t => t.removeBelow place

def climbs (segment : List Char) : Bool := Path.isIdle segment || segment = ['.', '.']

/-- Walks a path once more when something on it may be gone. The steps up before its first name need
nothing that is still there. -/
def retrace (t : Tree) (p : Path) : Except FileError Place :=
  t.walk (((route p).takeWhile climbs).foldl stepInto (if p.isAbsolute then [] else t.working))
    ((route p).dropWhile climbs)

/-- Removes the directory at a place, which is empty by now. It stays without an error when the path
led through something that was removed from it. -/
def removeEmptied (p : Path) (place : Place) : Action Unit := do
  match (← get).retrace p with
  | .error .notFound => return ()
  | .error e => throw e
  | .ok _ =>
    match (route p).getLast? with
    | some ['.'] => throw .invalidArgument
    | some ['.', '.'] => throw .notEmpty
    | none => throw .busy
    | some _ => modify fun t => t.removeBelow place

/-- Removes what is below a directory, and then the directory itself unless the path names it by a
dot or two. -/
def removeDirectory (p : Path) : Action Unit := do
  let (place, entry) ← ask fun t => t.find p
  if entry.isFile then throw .notDirectory
  else
    modify fun t => (t.removeBelow place).put place entry
    removeEmptied p place

def rebase (source target place : Place) : Place := target ++ place.drop source.length

def relocate (t : Tree) (source target : Place) : Tree :=
  { t with entries := t.entries.map fun e =>
      if within e.1 source then (rebase source target e.1, e.2) else e }

def replaceable (t : Tree) (source target : Place) (entry : Entry) (old : Option Entry) :
    Except FileError Unit :=
  if within target source then .error .invalidArgument
  else if within source target then .error .notEmpty
  else
    match entry, old with
    | _, none => .ok ()
    | .directory _, some (.file _ _) => .error .notDirectory
    | .file _ _, some (.directory _) => .error .isDirectory
    | .file _ _, some (.file _ _) => .ok ()
    | .directory _, some (.directory _) =>
      if (t.names target).isEmpty then .ok () else .error .notEmpty

def rename (source target : Path) : Action Unit := do
  let start ← ask fun t => t.locate source
  let goal ← ask fun t => t.locate target
  if !endsInName source || !endsInName target then throw .busy
  else
    let t ← get
    match t.at? start with
    | none => throw .notFound
    | some entry =>
      if entry.isFile && (endsInSeparator source || endsInSeparator target) then
        throw .notDirectory
      else if start = goal then return ()
      else
        let _ ← ask fun t => t.replaceable start goal entry (t.at? goal)
        modify fun t => (t.removeBelow goal).relocate start goal

def setMode (p : Path) (mode : Nat) : Action Unit := do
  let (place, entry) ← ask fun t => t.find p
  modify fun t => t.put place (entry.withMode mode)

end Patchboard.Tree
