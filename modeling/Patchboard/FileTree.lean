import Patchboard.Failure

set_option autoImplicit false

namespace Patchboard.FileTree

def ensureDirectory (p : Path) : Job Unit :=
  Job.on "failed to create " p (Tree.makeDirectories p)

def ensureParent (p : Path) : Job Unit :=
  match p.parent? with
  | some parent => ensureDirectory parent
  | none => return ()

def write (p : Path) (s : String) : Job Unit := do
  ensureParent p
  Job.on "failed to write " p (Tree.writeText p s)

def fromTo (verb : String) (source target : Path) : String :=
  "failed to " ++ verb ++ " " ++ source.text ++ " to " ++ target.text

def copyEntry (source target : Path) : Job Unit :=
  Job.doing (fromTo "copy" source target) (Job.ofAction (Tree.copyFile source target))

def copyFile (source target : Path) : Job Unit := do
  ensureParent target
  copyEntry source target

def move (source target : Path) : Job Unit := do
  ensureParent target
  Job.doing (fromTo "move" source target) (Job.ofAction (Tree.rename source target))

/-- Copies a directory over another one, which keeps what the first does not have. Each level of
the recursion makes the path longer, and paths are bounded. -/
def copyDirectoryFrom : Nat → Path → Path → Job Unit
  | 0, _, _ => Job.fail (.file .nameTooLong)
  | fuel + 1, source, target => do
    ensureDirectory target
    let names ← Job.on "failed to read directory: " source (Tree.listDirectory source)
    names.forM fun name => do
      let origin := source.join ⟨name⟩
      let goal := target.join ⟨name⟩
      if (← get).isDirectory origin then copyDirectoryFrom fuel origin goal
      else copyEntry origin goal

def copyDirectory (source target : Path) : Job Unit :=
  copyDirectoryFrom (Tree.pathLimit + 1) source target

def removeFileIfThere (p : Path) : Tree.Action Unit := do
  if (← get).pathExists p then Tree.removeFile p

def remove (p : Path) : Job Unit := do
  if (← get).isDirectory p then
    Job.on "failed to remove directory: " p (Tree.removeDirectory p)
  else Job.on "failed to remove file: " p (removeFileIfThere p)

end Patchboard.FileTree
