import Patchboard.Patch.Save
import Patchboard.Search

set_option autoImplicit false

namespace Patchboard.Modification

/-- What happens when the file of a block is missing. -/
inductive MissingFile where
  | fatal
  | skip
  | ignore
deriving DecidableEq

def MissingFile.parse (s : Option String) : MissingFile :=
  match s.map fun s => Text.lowered (Text.trimmed s) with
  | some "skip" => .skip
  | some "ignore" => .ignore
  | _ => .fatal

/-- A search as it is written, and as it is carried out: the same, or reversed. -/
structure Step where
  written : Search
  effective : Except Problem Search

def Step.ofNode (undo : Bool) (add : String) (node : Document) : Step :=
  let written := Search.ofNode node add
  ⟨written, if undo then written.reversed else .ok written⟩

def Step.isReplace (s : Step) : Bool :=
  match s.effective with
  | .ok search => search.position = .replace
  | .error _ => false

/-- Replacing searches come first; otherwise the order of the document holds. -/
def ordered (steps : List Step) : List Step :=
  (steps.filter Step.isReplace) ++ steps.filter fun s => !s.isReplace

structure Operation where
  policy : ErrorPolicy
  steps : List Step

def Operation.ofNode (undo : Bool) (node : Document) : Operation :=
  { policy := ((node.fetch? "@error").map ErrorPolicy.parse).getD .fatal
    steps := ordered ((node.children "." "search").map (Step.ofNode undo (node.fetch "add"))) }

/-- The text of a file as it is being changed, with what was recorded on the way. -/
structure Work where
  text : List Char
  failed : Bool
  report : Report

def outcomeOf (s : Step) : Outcome :=
  .succeeded s.written.search s.written.add s.written.position

def outcomeWith (s : Step) (problem : Problem) : Outcome :=
  .ofProblem s.written.search s.written.add s.written.position problem

def applySearch (policy : ErrorPolicy) (s : Step) (search : Search) (text : List Char) :
    Outcome × List Char :=
  match search.compile with
  | .error problem =>
    ({ outcomeWith s problem with ignoreFailure := policy = .ignore }, text)
  | .ok compiled =>
    match policy, compiled.isFound text with
    | .fatal, false => (outcomeWith s (.notFound search.search), text)
    | .required, true => (outcomeWith s (.alreadyPresent search.search), text)
    | .ignore, false =>
      ({ outcomeWith s (.notFound search.search) with ignoreFailure := true }, text)
    | _, true => (outcomeOf s, compiled.applyOnce text)
    | _, false => (outcomeOf s, text)

def Work.record (w : Work) (path : Path) (theme : Nat) (outcome : Outcome) (text : List Char) :
    Work :=
  if outcome.countsAsFailure then
    ⟨text, true, w.report.fail (some path) theme (.failure outcome)⟩
  else { w with text, report := w.report.note path theme (.replace outcome) }

def runStep (path : Path) (theme : Nat) (policy : ErrorPolicy) (w : Work) (s : Step) : Work :=
  match s.effective with
  | .error problem =>
    if policy = .fatal then w.record path theme (outcomeWith s problem) w.text else w
  | .ok search =>
    if search.isNoop then w
    else
      let (outcome, text) := applySearch policy s search w.text
      w.record path theme outcome text

def runOperation (path : Path) (theme : Nat) (w : Work) (operation : Operation) : Work :=
  operation.steps.foldl (runStep path theme operation.policy) w

def operations (undo : Bool) (block : Document) : List Operation :=
  (block.children "." "operation").map (Operation.ofNode undo)

def patchText (b : Board) (o : PatchOptions) (block : Document) (path : Path) (theme : Nat)
    (text : List Char) (existed : Bool) (p : Progress) : Progress :=
  let start : Work := ⟨text, false, p.report.note path theme .opened⟩
  let w := (operations o.undo block).foldl (runOperation path theme) start
  let p := { p with report := w.report }
  if w.failed then p else Save.save b o path theme (Search.revealed w.text) existed p

def missing (p : Progress) (path : Path) (theme : Nat) : Progress :=
  p.fail (some path) theme .missing

def applyBlock (b : Board) (o : PatchOptions) (block : Document) (path : Path) (theme : Nat)
    (p : Progress) : Progress :=
  if p.site.tree.isFile path then
    match p.site.tree.text? path with
    | .ok text => patchText b o block path theme text.toList true p
    | .error _ => missing p path theme
  else
    match MissingFile.parse (block.fetch? "@error") with
    | .skip => p.note path theme .skipped
    | .ignore => patchText b o block path theme [] false p
    | .fatal => missing p path theme

/-- A block with the path it names, resolved. -/
structure Target where
  block : Document
  path : Option Path

def targets (b : Board) (d : Document) : List Target :=
  (d.children "" "file").map fun block =>
    ⟨block, (block.fetch? "@name").map b.vars.resolve⟩

def malformed (p : Progress) (reason : String) : Progress :=
  p.fail none Theme.noCustom (.error (.malformedPatch reason))

/-- The file a block names, and then the copies of it. -/
def variants (b : Board) (index : CopyIndex) (path : Path) : List ThemeCopy :=
  ⟨Theme.owner b.themes path, path⟩ :: index.copiesOf path

def applyTarget (b : Board) (o : PatchOptions) (index : CopyIndex) (p : Progress)
    (numbered : Target × Nat) : Progress :=
  match numbered.1.path with
  | none =>
    malformed p ("file block #" ++ Text.decimal (numbered.2 + 1) ++ " has no name")
  | some path =>
    (variants b index path).foldl
      (fun p v => applyBlock b o numbered.1.block v.path v.theme p) p

def applyTo (b : Board) (o : PatchOptions) (d : Document) (s : Site) : Progress :=
  let start : Progress := ⟨s, .empty⟩
  match targets b d with
  | [] => malformed start "modification has no file blocks"
  | targets =>
    let index := CopyIndex.ofTargets b.themes s.tree (targets.filterMap (·.path))
    targets.zipIdx.foldl (applyTarget b o index) start

end Patchboard.Modification
