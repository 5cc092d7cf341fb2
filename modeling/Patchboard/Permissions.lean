import Patchboard.Tree.Operations

set_option autoImplicit false

namespace Patchboard

inductive Permissions where
  /-- A path is writable when it, or the nearest one above it, has a write bit. -/
  | byMode
  /-- A path is writable unless it is listed; `everything` denies all. -/
  | listed (denied : List Path) (everything repairs : Bool)
deriving DecidableEq

/-- What an installation works on. -/
structure Site where
  tree : Tree
  permissions : Permissions
deriving DecidableEq

namespace Tree

def writeBits : Nat := 0o222

/-- The path whose mode decides about a path. -/
def probe? (t : Tree) (p : Path) : Option Path :=
  if t.pathExists p then some p else t.firstExisting? p

def hasWriteBit (t : Tree) (p : Path) : Bool :=
  (t.mode? p).any fun mode => mode &&& writeBits ≠ 0

def isWritable (t : Tree) (p : Path) : Bool := (t.probe? p).any t.hasWriteBit

/-- The modes tried in turn to make a path writable. -/
def escalation (isDirectory : Bool) : List Nat :=
  if isDirectory then [0o755, 0o777] else [0o644, 0o666]

def tryModes (p : Path) : List Nat → Tree → Bool × Tree
  | [], t => (false, t)
  | mode :: modes, t =>
    match (setMode p mode).run.run t with
    | (.error _, t) => (false, t)
    | (.ok (), t) => if t.isWritable p then (true, t) else tryModes p modes t

def makeWritable (t : Tree) (p : Path) : Bool × Tree :=
  match t.probe? p with
  | none => (false, t)
  | some target => tryModes target (escalation (t.isDirectory target)) t

end Tree

namespace Site

def isWritable (s : Site) (p : Path) : Bool :=
  match s.permissions with
  | .byMode => s.tree.isWritable p
  | .listed denied everything _ => !everything && !denied.any (Path.same p)

def makeWritable (s : Site) (p : Path) : Bool × Site :=
  match s.permissions with
  | .byMode =>
    let (ok, tree) := s.tree.makeWritable p
    (ok, { s with tree })
  | .listed denied everything repairs =>
    if repairs then
      (true, { s with
        permissions := .listed (denied.filter fun d => !d.same p) everything repairs })
    else (false, s)

def ensureWritable (s : Site) (p : Path) : Bool × Site :=
  if s.isWritable p then (true, s) else s.makeWritable p

def run {ε α : Type} (s : Site) (action : ExceptT ε (StateM Tree) α) : Except ε α × Site :=
  let (result, tree) := action.run.run s.tree
  (result, { s with tree })

end Site

end Patchboard
