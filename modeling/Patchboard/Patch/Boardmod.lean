import Patchboard.Patch.Save
import Patchboard.Patch.Token

set_option autoImplicit false

namespace Patchboard.Boardmod

structure OpenFile where
  path : Path
  theme : Nat
  text : List Char
  failed : Bool
deriving DecidableEq

/-- The open file, the search that waits for its edit, and what was done so far. -/
structure State where
  file : Option OpenFile
  search : Option (List Char)
  progress : Progress

namespace State

def malformed (s : State) (path : Option Path) (theme : Nat) (reason : String) : State :=
  { s with progress := s.progress.fail path theme (.error (.malformedPatch reason)) }

def spoil (s : State) (f : OpenFile) (reason : String) : State :=
  { s with file := some { f with failed := true } }.malformed (some f.path) f.theme reason

def close (b : Board) (o : PatchOptions) (s : State) : State :=
  match s.file with
  | none => s
  | some f =>
    { s with
      file := none
      progress :=
        if f.failed then s.progress
        else Save.save b o f.path f.theme f.text true s.progress }

def openFile (path : Path) (theme : Nat) (s : State) : State :=
  let missing : State :=
    { file := none, search := none, progress := s.progress.fail (some path) theme .missing }
  if s.progress.site.tree.isFile path then
    match s.progress.site.tree.text? path with
    | .ok text =>
      { file := some ⟨path, theme, text.toList, false⟩
        search := none
        progress := s.progress.note path theme .opened }
    | .error _ => missing
  else missing

def beginSearch (t : Token) (s : State) : State :=
  match s.file with
  | none => s.malformed none t.theme "search before any file"
  | some f =>
    let s := if s.search.isSome then s.spoil f "two searches without a replacement" else s
    { s with search := some t.text }

end State

def edited (kind : TokenKind) (text search : List Char) : List Char :=
  match kind with
  | .insertBefore => text ++ '\n' :: search
  | .insertAfter => search ++ '\n' :: text
  | _ => text

/-- What is looked for and what takes its place; undoing exchanges the two. -/
def exchange (undo : Bool) (t : Token) (search : List Char) : List Char × List Char :=
  if undo then (edited t.kind t.text search, search) else (search, edited t.kind t.text search)

def canEdit (needle text : List Char) : Bool := !needle.isEmpty && Text.contains needle text

namespace State

/-- Carries out an edit at every place of the file where the text is found. -/
def applyEdit (o : PatchOptions) (t : Token) (search : List Char) (f : OpenFile) (s : State) :
    State :=
  let (needle, replacement) := exchange o.undo t search
  let shown := String.ofList search
  let add := String.ofList t.text
  if canEdit needle f.text then
    { s with
      file := some { f with text := Text.replaceAll needle replacement f.text }
      progress := s.progress.note f.path f.theme
        (.replace (.succeeded shown add t.kind.position)) }
  else
    { s with
      file := some { f with failed := true }
      progress := s.progress.fail (some f.path) f.theme
        (.failure (.ofProblem shown add t.kind.position (.notFound (String.ofList needle)))) }

def edit (o : PatchOptions) (t : Token) (s : State) : State :=
  let search := s.search
  let s := { s with search := none }
  match s.file, search with
  | none, _ => s.malformed none t.theme "replacement before any file"
  | some f, none => s.spoil f "replacement without a search"
  | some f, some search => s.applyEdit o t search f

end State

/-- Where a relative target is looked for when it is not below the board directory. -/
def fallbacks (b : Board) : List Path :=
  (b.vars.get? PathVariables.source).toList ++
    (match Theme.default? b.themes with
      | some t => [t.directory, t.directory.join ⟨"languages"⟩]
      | none => [])

/-- A relative target lies below the board directory, or else where it is found. -/
def resolveTarget (b : Board) (t : Tree) (raw : String) : Path :=
  let resolved := b.vars.resolve raw
  if resolved.isAbsolute then resolved
  else
    match b.vars.boardDirectory? with
    | none => resolved
    | some board =>
      let primary := board.join resolved
      if t.pathExists primary then primary
      else
        (((fallbacks b).map fun base => base.join resolved).find? t.pathExists).getD primary

def locate (b : Board) (tree : Tree) (t : Token) : Token :=
  if t.kind = .file then
    let path := resolveTarget b tree (Text.trimmed (String.ofList t.text))
    { t with path := some path, theme := Theme.owner b.themes path }
  else t

/-- Splits a stream before each file token. -/
def groups : List Token → List (List Token)
  | [] => []
  | t :: rest =>
    match groups rest with
    | [] => [[t]]
    | group :: more =>
      if (group.head?.map (·.kind)) = some .file then [t] :: group :: more
      else (t :: group) :: more

def copyGroup (c : ThemeCopy) (group : List Token) : List Token :=
  group.map fun t =>
    { t with theme := c.theme, path := if t.kind = .file then some c.path else t.path }

def copiesOf (index : CopyIndex) (group : List Token) : List Token :=
  match group with
  | [] => []
  | head :: _ =>
    match head.kind, head.path with
    | .file, some path => (index.copiesOf path).flatMap fun c => copyGroup c group
    | _, _ => []

/-- The groups of all copies, after the stream itself. -/
def fannedOut (b : Board) (tree : Tree) (tokens : List Token) : List Token :=
  let index := CopyIndex.ofTargets b.themes tree (tokens.filterMap (·.path))
  tokens ++ (groups tokens).flatMap (copiesOf index)

def advance (b : Board) (o : PatchOptions) (s : State) (t : Token) : State :=
  match t.kind with
  | .file =>
    let s := s.close b o
    let path := t.path.getD
      (resolveTarget b s.progress.site.tree (Text.trimmed (String.ofList t.text)))
    s.openFile path t.theme
  | .search => s.beginSearch t
  | _ => s.edit o t

/-- Every opening tag that is never closed is an error of the whole patch. -/
def reportProblems (p : Progress) (problems : List Problem) : Progress :=
  problems.foldl (fun p problem => p.fail none Theme.noCustom (.error problem)) p

def applyTo (b : Board) (o : PatchOptions) (raw : String) (s : Site) : Progress :=
  let tokens := Token.tokens raw.toList
  let start := reportProblems ⟨s, .empty⟩ (Token.problems raw.toList)
  if tokens.any fun t => t.kind = .file then
    let tokens := fannedOut b s.tree (tokens.map (locate b s.tree))
    ((tokens.foldl (advance b o) ⟨none, none, start⟩).close b o).progress
  else start.fail none Theme.noCustom (.error (.malformedPatch "boardmod patch names no files"))

end Patchboard.Boardmod
