import Patchboard.Path

set_option autoImplicit false

namespace Patchboard

structure PathVariables where
  entries : List (String × Path)
deriving DecidableEq, Inhabited

namespace PathVariables

def empty : PathVariables := ⟨[]⟩

/-- Longer names come first, and names of one length in order. -/
def precedes (a b : String) : Bool :=
  b.utf8ByteSize < a.utf8ByteSize || (a.utf8ByteSize = b.utf8ByteSize && a < b)

def insert (name : String) (path : Path) : List (String × Path) → List (String × Path)
  | [] => [(name, path)]
  | e :: rest =>
    if name = e.1 then (name, path) :: rest
    else if precedes name e.1 then (name, path) :: e :: rest
    else e :: insert name path rest

def set (v : PathVariables) (name : String) (path : Path) : PathVariables :=
  ⟨insert name path v.entries⟩

def get? (v : PathVariables) (name : String) : Option Path :=
  (v.entries.find? fun e => e.1 = name).map (·.2)

def board : String := "boarddir"

def source : String := "sourcedir"

def theme : String := "themedir"

def themes : String := "themes_dir"

def images : String := "imagesdir"

def language : String := "languagedir"

def package : String := "package"

def boardDirectory? (v : PathVariables) : Option Path := v.get? board

def isSlash (c : Char) : Bool := c = '/' || c = '\\'

def restAfter? (name : String) (s : List Char) : Option (List Char) :=
  match Text.after? name.toList s with
  | none => none
  | some [] => some []
  | some (c :: rest) => if isSlash c then some (c :: rest) else none

def expand (base : Path) (rest : List Char) : Path :=
  match rest.dropWhile isSlash with
  | [] => base
  | rest => base.join (Path.ofChars rest)

def resolveIn : List (String × Path) → List Char → Option Path
  | [], _ => none
  | (name, base) :: entries, s =>
    match restAfter? name s with
    | some rest => some (expand base rest)
    | none => resolveIn entries s

def resolve (v : PathVariables) (raw : String) : Path :=
  match Text.trim raw.toList with
  | '$' :: s => (resolveIn v.entries s).getD (Path.ofChars ('$' :: s))
  | s => Path.ofChars s

/-- A path below the board directory is shown from there. -/
def display (v : PathVariables) (p : Path) : String :=
  match v.boardDirectory?.bind fun board => p.stripPrefix? board with
  | some relative => if relative.text.isEmpty then "." else "./" ++ relative.text
  | none => p.text

end PathVariables

end Patchboard
