import Patchboard.Version.Term

set_option autoImplicit false

namespace Patchboard.Version

/-- An exact candidate must lie in a term; a wildcard or range must overlap one. -/
def admits (candidate : Term) (terms : List Term) : Bool :=
  terms.any fun term =>
    match candidate with
    | .exact version => term.contains version
    | other => term.overlaps other

def isMatch (version expression : String) : Bool :=
  match Term.parse? version with
  | some candidate => admits candidate (parseExpression expression)
  | none => false

def candidate? : Term → Option String
  | .any => none
  | .exact version => some version
  | .range lower _ => some lower

/-- Keeps the first of equal candidates and passes over those above the ceiling. -/
def improve (ceiling : String) (best : Option String) (candidate : String) : Option String :=
  if order candidate ceiling == .gt then best
  else
    match best with
    | none => some candidate
    | some current => if order candidate current == .gt then some candidate else best

def bestUpperBound (expressions : List String) (ceiling : String) : Option String :=
  ((expressions.flatMap parseExpression).filterMap candidate?).foldl (improve ceiling) none

end Patchboard.Version
