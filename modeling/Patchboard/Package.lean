import Patchboard.Manifest
import Patchboard.Receipt

set_option autoImplicit false

namespace Patchboard.Package

def manifestName : String := "package-info.toml"

def readManifest (directory : Path) : Job Manifest := do
  let p := directory.join ⟨manifestName⟩
  let raw ← Job.on "failed to read package manifest: " p (Tree.readText p)
  Job.doing ("invalid package manifest: " ++ p.text) (Job.ofExcept (Manifest.parse raw))

def clearStaging (p : Path) : Job Unit := do
  if (← get).pathExists p then
    Job.on "failed to clear staging directory: " p (Tree.removeDirectory p)

def stage (l : StateLayout) (directory : Path) : Job (Manifest × Path) := do
  let m ← readManifest directory
  let staging := l.packageStaging m.id
  clearStaging staging
  FileTree.copyDirectory directory staging
  return (m, staging)

/-- The version that an upgrade starts from: the one given, or else the installed one. -/
def previousVersion (l : StateLayout) (package : String) (mode : Mode) (explicit : Option String) :
    Job (Option String) := do
  match explicit with
  | some version => return some (Text.trimmed version)
  | none =>
    if mode = .upgrade then return (← History.lookup l package).map (·.version)
    else return none

end Patchboard.Package
