import Patchboard.Tree.Basic

set_option autoImplicit false

namespace Patchboard.Tree

def sameKind (a b : Entry) : Bool := a.isFile = b.isFile

/-- The same kind and, for files, the same contents; modes do not count. -/
def sameContents : Entry → Entry → Bool
  | .file a _, .file b _ => a = b
  | .directory _, .directory _ => true
  | _, _ => false

def written (before after : Tree) : List (Place × Entry) :=
  after.entries.filter fun e => !(before.at? e.1).any (sameContents e.2)

/-- What is gone, or has become a thing of the other kind. -/
def removed (before after : Tree) : List (Place × Entry) :=
  before.entries.filter fun e => !(after.at? e.1).any (sameKind e.2)

/-- What has another mode than before, or is new with a mode that new things do not have. -/
def modeChanges (before after : Tree) : List (Place × Entry) :=
  after.entries.filter fun e =>
    let usual := if e.2.isFile then modeOfNewFile else modeOfNewDirectory
    ((before.at? e.1).map Entry.mode).getD usual ≠ e.2.mode

end Patchboard.Tree
