import Patchboard.Path

set_option autoImplicit false

namespace Patchboard

structure Theme where
  id : Nat
  name : String
  directory : Path
deriving DecidableEq

namespace Theme

def defaultId : Nat := 1

/-- The id of results that belong to no custom theme. -/
def noCustom : Nat := 0

def isDefault (t : Theme) : Bool := t.id = defaultId

def contains (t : Theme) (p : Path) : Bool := p.startsWith t.directory

def default? (themes : List Theme) : Option Theme := themes.find? isDefault

def custom (themes : List Theme) : List Theme := themes.filter fun t => !t.isDefault

def owner (themes : List Theme) (p : Path) : Nat :=
  (((custom themes).find? fun t => t.contains p).map fun t => t.id).getD noCustom

end Theme

end Patchboard
