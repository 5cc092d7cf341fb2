import Std.Time.DateTime.Timestamp
import Patchboard.Cli.Reach
import Patchboard.Tree.Changes

set_option autoImplicit false

namespace Patchboard.Disk

def entryAt (place : Place) : IO.FS.DirEntry := ⟨"/", String.intercalate "/" place⟩

def bytesOf : Contents → ByteArray
  | .text s => s.toUTF8
  | .bytes bytes => ⟨bytes.toArray⟩

def modeOf (place : Place) : IO Nat := do
  try
    let _ ← IO.FS.Handle.mk (entryAt place).path .append
    return Tree.modeOfNewFile
  catch _ => return 0o444

partial def readBelow (place : Place) (t : Tree) : IO Tree := do
  let path := (entryAt place).path
  if ← path.isDir then
    let mut t := t.put place (.directory Tree.modeOfNewDirectory)
    for child in ← path.readDir do
      t ← readBelow (place ++ [child.fileName]) t
    return t
  else if ← path.pathExists then
    return t.put place (.file (.ofBytes (← IO.FS.readBinFile path)) (← modeOf place))
  else return t

/-- Reads the directories above a place, without what else is in them. -/
def readAbove (place : Place) (t : Tree) : IO Tree := do
  let mut t := t
  for n in List.range place.length do
    let above := place.take n
    if n ≠ 0 && (t.at? above).isNone then
      if ← (entryAt above).path.isDir then
        t := t.put above (.directory Tree.modeOfNewDirectory)
  return t

/-- Reads what the paths name, but for places that were read already and the root. -/
def readPaths (paths : List Path) (done : List Place) (t : Tree) : IO (List Place × Tree) := do
  let mut done := done
  let mut t := t
  for p in paths do
    let place := t.lexicalPlace p
    if !place.isEmpty && !done.any (Tree.within place) then
      t ← readBelow place (← readAbove place t)
      done := place :: done
  return (done, t)

def readReach (s : Cli.Surroundings) (i : Cli.Invocation) (t : Tree) : IO Tree := do
  let (done, t) ← readPaths (Cli.reach s i t) [] t
  let (done, t) ← readPaths (Cli.reach s i t) done t
  let (_, t) ← readPaths (Cli.reach s i t) done t
  return t

def rights (bits : Nat) : IO.AccessRight :=
  { read := bits.testBit 2, write := bits.testBit 1, execution := bits.testBit 0 }

def fileRights (mode : Nat) : IO.FileRight :=
  { user := rights (mode / 64), group := rights (mode / 8), other := rights mode }

def byDepth (entries : List (Place × Entry)) : List (Place × Entry) :=
  entries.mergeSort fun a b => a.1.length ≤ b.1.length

def remove (place : Place) (e : Entry) : IO Unit :=
  if e.isFile then IO.FS.removeFile (entryAt place).path
  else IO.FS.removeDir (entryAt place).path

def write (before : Tree) (place : Place) (e : Entry) : IO Unit := do
  let path := (entryAt place).path
  match e with
  | .directory _ => if !(← path.isDir) then IO.FS.createDir path
  | .file contents _ =>
    if (before.at? place).isNone && (← path.pathExists) then
      throw (IO.userError ("refusing to overwrite " ++ path.toString))
    else IO.FS.writeBinFile path (bytesOf contents)

def writeBack (before after : Tree) : IO Unit := do
  for e in (byDepth (before.removed after)).reverse do
    remove e.1 e.2
  for e in byDepth (before.written after) do
    write before e.1 e.2
  for e in before.modeChanges after do
    IO.setAccessRights (entryAt e.1).path (fileRights e.2.mode)

def startingTree : IO Tree := do
  let working := (← IO.currentDir).toString
  return ⟨[], (Text.pieces '/' working).filter fun s => !s.isEmpty⟩

def surroundings : IO Cli.Surroundings := do
  return {
    home := ← IO.getEnv "HOME"
    shell := ← IO.getEnv "SHELL"
    now := (← Std.Time.Timestamp.now).toSecondsSinceUnixEpoch.val.toNat
    process := ← IO.rand 1 4194303 }

def finish (e : Cli.Ending) : IO UInt32 := do
  IO.print e.output
  if let some message := e.error then IO.eprintln message
  if e.exit = 2 then IO.eprint Cli.usage
  return e.exit.toUInt32

end Patchboard.Disk

def main (args : List String) : IO UInt32 := do
  let s ← Patchboard.Disk.surroundings
  let start ← Patchboard.Disk.startingTree
  let before ← match Patchboard.Cli.parse args with
    | .run i => Patchboard.Disk.readReach s i start
    | _ => pure start
  let (ending, after) := Patchboard.Cli.run s args before
  Patchboard.Disk.writeBack before after
  Patchboard.Disk.finish ending
