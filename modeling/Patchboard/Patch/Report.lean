import Patchboard.Problem
import Patchboard.Theme

set_option autoImplicit false

namespace Patchboard

/-- What became of one search. -/
structure Outcome where
  search : String
  add : String
  position : Position
  failed : Bool
  ignoreFailure : Bool
  problem : Option Problem
deriving DecidableEq

namespace Outcome

def succeeded (search add : String) (position : Position) : Outcome :=
  ⟨search, add, position, false, false, none⟩

def ofProblem (search add : String) (position : Position) (p : Problem) : Outcome :=
  ⟨search, add, position, true, false, some p⟩

def countsAsFailure (o : Outcome) : Bool := o.failed && !o.ignoreFailure

def json (o : Outcome) : Json :=
  .object <|
    [("search", .text o.search), ("add", .text o.add), ("position", .text o.position.name),
     ("failed", .bool o.failed), ("ignore_failure", .bool o.ignoreFailure)] ++
    Json.field? "error" (o.problem.map Problem.json)

end Outcome

inductive EventKind where
  | opened
  | replace (outcome : Outcome)
  | failure (outcome : Outcome)
  | saved
  | missing
  | skipped
  | chmodNeeded
  | error (problem : Problem)
deriving DecidableEq

namespace EventKind

def name : EventKind → String
  | .opened => "opened"
  | .replace _ => "replace"
  | .failure _ => "failure"
  | .saved => "saved"
  | .missing => "missing"
  | .skipped => "skipped"
  | .chmodNeeded => "chmod-needed"
  | .error _ => "error"

def details : EventKind → List (String × Json)
  | .replace outcome => [("outcome", outcome.json)]
  | .failure outcome => [("outcome", outcome.json)]
  | .error problem => [("error", problem.json)]
  | _ => []

end EventKind

/-- Only an error may belong to no path. -/
structure Event where
  path : Option Path
  theme : Nat
  kind : EventKind
deriving DecidableEq

def Event.json (e : Event) : Json :=
  .object <|
    [("type", .text e.kind.name), ("path", Json.ofOption (fun p => .text p.text) e.path),
     ("theme_id", Json.natural e.theme)] ++ e.kind.details

structure Report where
  events : List Event
  everythingFound : Bool
deriving DecidableEq

namespace Report

def empty : Report := ⟨[], true⟩

def note (r : Report) (path : Path) (theme : Nat) (kind : EventKind) : Report :=
  { r with events := r.events ++ [⟨some path, theme, kind⟩] }

def fail (r : Report) (path : Option Path) (theme : Nat) (kind : EventKind) : Report :=
  ⟨r.events ++ [⟨path, theme, kind⟩], false⟩

def json (r : Report) : Json :=
  .object [("events", Json.ofList Event.json r.events),
    ("everything_found", .bool r.everythingFound)]

end Report

end Patchboard
