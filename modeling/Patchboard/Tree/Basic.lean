import Patchboard.Path

set_option autoImplicit false

namespace Patchboard

/-- What a file holds: text, or bytes that are no text in UTF-8. -/
inductive Contents where
  | text (value : String)
  | bytes (value : List UInt8)
deriving DecidableEq, Inhabited

def Contents.ofBytes (bytes : ByteArray) : Contents :=
  match String.fromUTF8? bytes with
  | some s => .text s
  | none => .bytes bytes.toList

inductive Entry where
  | file (contents : Contents) (mode : Nat)
  | directory (mode : Nat)
deriving DecidableEq

def Entry.isFile : Entry → Bool
  | .file _ _ => true
  | .directory _ => false

def Entry.isDirectory (e : Entry) : Bool := !e.isFile

def Entry.mode : Entry → Nat
  | .file _ mode => mode
  | .directory mode => mode

def Entry.withMode (mode : Nat) : Entry → Entry
  | .file contents _ => .file contents mode
  | .directory _ => .directory mode

abbrev Place := List String

/-- The entries of a tree, one for each place but the root, and the place that relative paths
start from. -/
structure Tree where
  entries : List (Place × Entry)
  working : Place
deriving DecidableEq

/-- Why an operation on files fails. -/
inductive FileError where
  | notFound
  | exists
  | notDirectory
  | isDirectory
  | notEmpty
  | invalidArgument
  | nameTooLong
  | busy
  | noSpace
  | nullInPath
  | notText
  | notRegular
  | wholeTree
deriving DecidableEq

def FileError.message : FileError → String
  | .notFound => "No such file or directory (os error 2)"
  | .exists => "File exists (os error 17)"
  | .notDirectory => "Not a directory (os error 20)"
  | .isDirectory => "Is a directory (os error 21)"
  | .notEmpty => "Directory not empty (os error 39)"
  | .invalidArgument => "Invalid argument (os error 22)"
  | .nameTooLong => "File name too long (os error 36)"
  | .busy => "Device or resource busy (os error 16)"
  | .noSpace => "No space left on device (os error 28)"
  | .nullInPath => "file name contained an unexpected NUL byte"
  | .notText => "stream did not contain valid UTF-8"
  | .notRegular => "the source path is neither a regular file nor a symlink to a regular file"
  | .wholeTree => "failed to create whole tree"

namespace Tree

def modeOfNewFile : Nat := 0o644

def modeOfNewDirectory : Nat := 0o755

def at? (t : Tree) (place : Place) : Option Entry :=
  if place.isEmpty then some (.directory modeOfNewDirectory)
  else (t.entries.find? fun e => e.1 = place).map (·.2)

def insertAt (place : Place) (entry : Entry) : List (Place × Entry) → List (Place × Entry)
  | [] => [(place, entry)]
  | e :: rest => if e.1 = place then (place, entry) :: rest else e :: insertAt place entry rest

def put (t : Tree) (place : Place) (entry : Entry) : Tree :=
  { t with entries := insertAt place entry t.entries }

theorem find?_insertAt (place : Place) (entry : Entry) (entries : List (Place × Entry)) :
    (insertAt place entry entries).find? (fun e => e.1 = place) = some (place, entry) := by
  induction entries with
  | nil => simp [insertAt]
  | cons e rest ih =>
    by_cases h : e.1 = place
    · simp [insertAt, h]
    · simp [insertAt, h, ih]

theorem find?_insertAt_of_ne {place other : Place} (h : other ≠ place) (entry : Entry)
    (entries : List (Place × Entry)) :
    (insertAt place entry entries).find? (fun e => e.1 = other) =
      entries.find? (fun e => e.1 = other) := by
  induction entries with
  | nil => simp [insertAt, Ne.symm h]
  | cons e rest ih =>
    by_cases he : e.1 = place
    · simp [insertAt, he, Ne.symm h]
    · rw [insertAt, if_neg he]
      by_cases ho : e.1 = other
      · simp [ho]
      · simp [ho, ih]

theorem at?_put_of_ne (t : Tree) {place other : Place} (h : other ≠ place) (entry : Entry) :
    (t.put place entry).at? other = t.at? other := by
  simp [at?, put, find?_insertAt_of_ne h]

/-- Whether one place is the other or lies below it. -/
def within (place base : Place) : Bool := base.isPrefixOf place

def removeBelow (t : Tree) (place : Place) : Tree :=
  { t with entries := t.entries.filter fun e => !within e.1 place }

def names (t : Tree) (place : Place) : List String :=
  (t.entries.filterMap fun e =>
    if e.1.length = place.length + 1 && within e.1 place then e.1.getLast? else none).mergeSort
    fun a b => compare a b != .gt

def nameLimit : Nat := 255

def pathLimit : Nat := 4095

def stepInto (place : Place) (segment : List Char) : Place :=
  if segment = ['.', '.'] then place.dropLast
  else if Path.isIdle segment then place
  else place ++ [String.ofList segment]

/-- Goes down to the place that the last piece names; all places before it must be directories. -/
def walk (t : Tree) : Place → List (List Char) → Except FileError Place
  | place, [] => .ok place
  | place, segment :: rest =>
    match t.at? place with
    | none => .error .notFound
    | some (.file _ _) => .error .notDirectory
    | some (.directory _) =>
      if nameLimit < (String.ofList segment).utf8ByteSize then .error .nameTooLong
      else walk t (stepInto place segment) rest

/-- The pieces of a path without the empty ones at its end. -/
def route (p : Path) : List (List Char) :=
  (p.segments.reverse.dropWhile List.isEmpty).reverse

/-- The place a path names when nothing in the tree is asked. -/
def lexicalPlace (t : Tree) (p : Path) : Place :=
  (route p).foldl stepInto (if p.isAbsolute then [] else t.working)

def endsInSeparator (p : Path) : Bool := p.chars.getLast? = some '/'

/-- A path whose last piece is no name leads to a directory that is there already. -/
def endsInName (p : Path) : Bool :=
  match (route p).getLast? with
  | some s => s ≠ ['.'] && s ≠ ['.', '.']
  | none => false

/-- The place a path leads to. Only the last piece may name something that is not there. -/
def locate (t : Tree) (p : Path) : Except FileError Place :=
  if p.chars.contains '\x00' then .error .nullInPath
  else if p.text.isEmpty then .error .notFound
  else if pathLimit < p.text.utf8ByteSize then .error .nameTooLong
  else t.walk (if p.isAbsolute then [] else t.working) (route p)

/-- What a path leads to. -/
def find (t : Tree) (p : Path) : Except FileError (Place × Entry) :=
  match t.locate p with
  | .error e => .error e
  | .ok place =>
    match t.at? place with
    | none => .error .notFound
    | some entry =>
      if endsInSeparator p && entry.isFile then .error .notDirectory else .ok (place, entry)

def find? (t : Tree) (p : Path) : Option Entry := ((t.find p).toOption).map (·.2)

def pathExists (t : Tree) (p : Path) : Bool := (t.find? p).isSome

def isFile (t : Tree) (p : Path) : Bool := (t.find? p).any Entry.isFile

def isDirectory (t : Tree) (p : Path) : Bool := (t.find? p).any Entry.isDirectory

def mode? (t : Tree) (p : Path) : Option Nat := (t.find? p).map Entry.mode

/-- The path itself or the nearest one above it that exists; the empty path is passed over. -/
def firstExisting? (t : Tree) (p : Path) : Option Path :=
  (p.ancestors.filter fun a => !a.text.isEmpty).find? t.pathExists

end Tree

end Patchboard
