import Patchboard.Text.Basic

set_option autoImplicit false

namespace Patchboard

structure Path where
  text : String
deriving DecidableEq, Inhabited

namespace Path

inductive Component where
  | root
  | current
  | parent
  | name (name : List Char)
deriving DecidableEq

def chars (p : Path) : List Char := p.text.toList

def ofChars (s : List Char) : Path := ⟨String.ofList s⟩

def isAbsolute (p : Path) : Bool := p.chars.head? = some '/'

/-- The pieces between the separators, past the leading one of an absolute path. -/
def segments (p : Path) : List (List Char) :=
  match p.chars with
  | '/' :: s => Text.splitOn '/' s
  | s => Text.splitOn '/' s

def isIdle (segment : List Char) : Bool := segment.isEmpty || segment = ['.']

def component (segment : List Char) : Component :=
  if segment = ['.', '.'] then .parent else .name segment

/-- Empty pieces and single dots do not count, but for a dot at the very start. -/
def bodyComponents (absolute : Bool) : List (List Char) → List Component
  | [] => []
  | segment :: rest =>
    (if segment = ['.'] && !absolute then [.current]
      else if isIdle segment then [] else [component segment]) ++
    (rest.filter fun s => !isIdle s).map component

def components (p : Path) : List Component :=
  if p.isAbsolute then .root :: bodyComponents true p.segments
  else bodyComponents false p.segments

def same (a b : Path) : Bool := a.components = b.components

def startsWith (p base : Path) : Bool := base.components.isPrefixOf p.components

def joinSegments : List (List Char) → List Char
  | [] => []
  | [s] => s
  | s :: rest => s ++ '/' :: joinSegments rest

/-- One separator stands between the two, unless the left side is empty or ends in one; an
absolute right side stands alone. -/
def join (a b : Path) : Path :=
  if b.isAbsolute then b
  else if a.text.isEmpty || a.chars.getLast? = some '/' then ⟨a.text ++ b.text⟩
  else ⟨a.text ++ "/" ++ b.text⟩

def dropIdleEnd (absolute : Bool) (segments : List (List Char)) : List (List Char) :=
  match segments with
  | [] => []
  | first :: rest =>
    match (rest.reverse.dropWhile isIdle).reverse with
    | [] => if first.isEmpty || (absolute && isIdle first) then [] else [first]
    | kept => first :: kept

def ofSegments (absolute : Bool) (segments : List (List Char)) : Path :=
  ofChars ((if absolute then ['/'] else []) ++ joinSegments segments)

/-- The path without its last component; the root and the empty path have none. -/
def parent? (p : Path) : Option Path :=
  match dropIdleEnd p.isAbsolute p.segments with
  | [] => none
  | kept => some (ofSegments p.isAbsolute (dropIdleEnd p.isAbsolute kept.dropLast))

def fileName? (p : Path) : Option (List Char) :=
  match p.components.getLast? with
  | some (.name n) => some n
  | _ => none

/-- The part of a name before its last dot, and the part after it; a dot at the start of a name
does not divide it. -/
def splitName (name : List Char) : List Char × Option (List Char) :=
  let extension := (name.reverse.takeWhile (· ≠ '.')).reverse
  let stem := name.take (name.length - extension.length - 1)
  if !name.contains '.' || stem.isEmpty then (name, none) else (stem, some extension)

def stem? (p : Path) : Option (List Char) := p.fileName?.map fun n => (splitName n).1

def extension? (p : Path) : Option (List Char) := p.fileName?.bind fun n => (splitName n).2

def withFileName (p : Path) (name : List Char) : Path :=
  match p.fileName? with
  | some _ => (p.parent?.getD p).join (ofChars name)
  | none => p.join (ofChars name)

def dropSegments : Nat → List (List Char) → List (List Char)
  | 0, s => s
  | n + 1, s => dropSegments n ((s.dropWhile isIdle).drop 1)

/-- The rest of a path that lies under `base`, without idle pieces at its ends. -/
def stripPrefix? (p base : Path) : Option Path :=
  if p.startsWith base then
    match base.components with
    | [] => some (ofSegments p.isAbsolute (dropIdleEnd p.isAbsolute p.segments))
    | .root :: rest =>
      some (ofSegments false
        (dropIdleEnd true ((dropSegments rest.length p.segments).dropWhile isIdle)))
    | .current :: rest =>
      some (ofSegments false
        (dropIdleEnd true ((dropSegments rest.length (p.segments.drop 1)).dropWhile isIdle)))
    | rest =>
      some (ofSegments false
        (dropIdleEnd true ((dropSegments rest.length p.segments).dropWhile isIdle)))
  else none

def ancestorsFrom : Nat → Path → List Path
  | 0, p => [p]
  | fuel + 1, p =>
    match p.parent? with
    | some parent => p :: ancestorsFrom fuel parent
    | none => [p]

def ancestors (p : Path) : List Path := ancestorsFrom p.chars.length p

end Path

end Patchboard
