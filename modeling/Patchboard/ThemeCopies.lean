import Patchboard.Action
import Patchboard.Theme
import Patchboard.Tree.Basic

set_option autoImplicit false

namespace Patchboard

structure ThemeCopy where
  theme : Nat
  path : Path
deriving DecidableEq

namespace ThemeCopy

/-- The same place in each custom theme, for a path in the default theme. -/
def candidates (themes : List Theme) (p : Path) : List ThemeCopy :=
  match Theme.default? themes with
  | none => []
  | some main =>
    match p.stripPrefix? main.directory with
    | none => []
    | some relative =>
      (Theme.custom themes).map fun t => ⟨t.id, t.directory.join relative⟩

def ofFile (themes : List Theme) (t : Tree) (p : Path) : List ThemeCopy :=
  (candidates themes p).filter fun c => t.isFile c.path

def carriesOver (main : Theme) (a : Action) (destination : Path) : Bool :=
  match a.themeChoice with
  | .no => false
  | .yes => true
  | .auto => destination.startsWith (main.directory.join ⟨"images"⟩)

/-- A copied directory or file needs its parent to be there, a removal the thing itself. -/
def isTarget (a : Action) (t : Tree) (c : ThemeCopy) : Bool :=
  if a.kind.isRequire then c.path.parent?.any t.isDirectory else t.pathExists c.path

def ofAction (themes : List Theme) (t : Tree) (a : Action) : List ThemeCopy :=
  if !(a.kind.isRequire || a.kind.isRemoval) then []
  else
    match a.destination, Theme.default? themes with
    | some destination, some main =>
      if (destination.stripPrefix? main.directory).isSome && carriesOver main a destination then
        (candidates themes destination).filter (isTarget a t)
      else []
    | _, _ => []

end ThemeCopy

/-- The copies of the targets of a patch, looked up before it starts. -/
structure CopyIndex where
  entries : List (Path × List ThemeCopy)

namespace CopyIndex

def ofTargets (themes : List Theme) (t : Tree) (targets : List Path) : CopyIndex :=
  ⟨(targets.map fun p => (p, ThemeCopy.ofFile themes t p)).filter fun e => !e.2.isEmpty⟩

/-- Paths with the same components have the same copies. -/
def copiesOf (index : CopyIndex) (p : Path) : List ThemeCopy :=
  ((index.entries.find? fun e => e.1.same p).map (·.2)).getD []

def isEmpty (index : CopyIndex) : Bool := index.entries.isEmpty

end CopyIndex

end Patchboard
