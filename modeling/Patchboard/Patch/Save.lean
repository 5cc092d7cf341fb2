import Patchboard.Patch.Backup
import Patchboard.Patch.Report
import Patchboard.PathVariables
import Patchboard.Permissions
import Patchboard.ThemeCopies

set_option autoImplicit false

namespace Patchboard

/-- The board that is patched. -/
structure Board where
  vars : PathVariables
  themes : List Theme
  settings : Option Path
  makeBackups : Bool

structure PatchOptions where
  testing : Bool
  undo : Bool
deriving DecidableEq

/-- What a patch has done so far: the site and the events. -/
structure Progress where
  site : Site
  report : Report

namespace Progress

def note (p : Progress) (path : Path) (theme : Nat) (kind : EventKind) : Progress :=
  { p with report := p.report.note path theme kind }

def fail (p : Progress) (path : Option Path) (theme : Nat) (kind : EventKind) : Progress :=
  { p with report := p.report.fail path theme kind }

end Progress

namespace Save

def write (path : Path) (s : List Char) : Tree.Action Unit := do
  Tree.makeParents path
  Tree.writeText path (String.ofList s)

def copyTo (source target : Path) : Tree.Action Unit := do
  Tree.makeParents target
  Tree.copyFile source target

def isSettingsBackup (b : Board) (path : Path) : Bool :=
  b.settings.any fun settings => path.same (Backup.ofSettings settings)

/-- A backup that cannot be written stops nothing. -/
def backUp (b : Board) (path : Path) (existed : Bool) (s : Site) : Site :=
  if b.makeBackups && existed then (s.run (copyTo path (Backup.ofFile path b.settings))).2 else s

def store (b : Board) (path : Path) (theme : Nat) (text : List Char) (existed : Bool)
    (p : Progress) : Progress :=
  let (result, site) := (backUp b path existed p.site).run (write path text)
  let p := { p with site }
  match result with
  | .ok () => p.note path theme .saved
  | .error _ => p.fail (some path) theme (.error (.permissionDenied path))

/-- The backup of the settings file is never patched. A test only asks for write access. -/
def save (b : Board) (o : PatchOptions) (path : Path) (theme : Nat) (text : List Char)
    (existed : Bool) (p : Progress) : Progress :=
  if isSettingsBackup b path then p.note path theme .skipped
  else if o.testing then
    let p := if p.site.isWritable path then p else p.note path theme .chmodNeeded
    p.note path theme .saved
  else
    let (writable, site) := p.site.ensureWritable path
    let p := { p with site }
    if writable then store b path theme text existed p
    else
      (p.note path theme .chmodNeeded).fail (some path) theme (.error (.permissionDenied path))

end Save

end Patchboard
