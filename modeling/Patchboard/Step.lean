import Patchboard.Action
import Patchboard.Patch.Report

set_option autoImplicit false

namespace Patchboard

inductive Status where
  | opened
  | saved
  | failed
  | missing
  | skipped
  | chmodNeeded
  | passed
  | deferred
deriving DecidableEq, Inhabited

namespace Status

def name : Status → String
  | .opened => "opened"
  | .saved => "saved"
  | .failed => "failed"
  | .missing => "missing"
  | .skipped => "skipped"
  | .chmodNeeded => "chmod-needed"
  | .passed => "passed"
  | .deferred => "deferred"

def all : List Status :=
  [.opened, .saved, .failed, .missing, .skipped, .chmodNeeded, .passed, .deferred]

def isFailure : Status → Bool
  | .failed => true
  | .missing => true
  | _ => false

end Status

/-- What an action did to one target. -/
structure StepResult where
  action : ActionKind
  target : String
  status : Status
  theme : Nat
  operations : List Outcome
  problem : Option Problem
  message : String
deriving DecidableEq

namespace StepResult

def make (action : ActionKind) (target : String) (status : Status) : StepResult :=
  ⟨action, target, status, Theme.noCustom, [], none, ""⟩

def withTheme (r : StepResult) (theme : Nat) : StepResult := { r with theme }

def withMessage (r : StepResult) (message : String) : StepResult := { r with message }

def withProblem (r : StepResult) (p : Problem) : StepResult :=
  { r with problem := some p, message := if r.message.isEmpty then p.message else r.message }

def isFailure (r : StepResult) : Bool := r.status.isFailure

def isCustom (r : StepResult) : Bool := r.theme ≠ Theme.noCustom

def json (r : StepResult) : Json :=
  .object <|
    [("action", .text r.action.name), ("target", .text r.target), ("status", .text r.status.name),
     ("theme_id", Json.natural r.theme)] ++
    (if r.operations.isEmpty then []
      else [("operations", Json.ofList Outcome.json r.operations)]) ++
    Json.field? "error" (r.problem.map Problem.json) ++
    (if r.message.isEmpty then [] else [("message", .text r.message)])

end StepResult

/-- One action with all its results. -/
structure ActionStep where
  index : Nat
  kind : ActionKind
  target : String
  description : String
  results : List StepResult
deriving DecidableEq

namespace ActionStep

def failed (s : ActionStep) : Bool := s.results.any StepResult.isFailure

def fields (s : ActionStep) : List (String × Json) :=
  [("index", Json.natural s.index), ("kind", .text s.kind.name), ("target", .text s.target)] ++
    (if s.description.isEmpty then [] else [("description", .text s.description)]) ++
    [("results", Json.ofList StepResult.json s.results)]

def json (s : ActionStep) : Json := .object s.fields

end ActionStep

/-- The operations on one file in the whole run. -/
structure FileSummary where
  path : Path
  theme : Nat
  status : Status
  operations : List Outcome
deriving DecidableEq

def FileSummary.json (f : FileSummary) : Json :=
  .object
    [("path", .text f.path.text), ("theme_id", Json.natural f.theme),
     ("status", .text f.status.name), ("operations", Json.ofList Outcome.json f.operations)]

structure RunReport where
  steps : List ActionStep
  failed : Bool
  chmodPaths : List Path
  deferred : List Action
  themesTouched : List Nat

def RunReport.json (r : RunReport) : Json :=
  .object
    [("steps", Json.ofList ActionStep.json r.steps), ("failed", .bool r.failed),
     ("chmod_paths", Json.ofList (fun p => .text p.text) r.chmodPaths),
     ("deferred", Json.ofList Action.json r.deferred),
     ("themes_touched", Json.ofList Json.natural r.themesTouched)]

end Patchboard
