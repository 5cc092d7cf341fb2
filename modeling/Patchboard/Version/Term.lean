import Patchboard.Version.Order

set_option autoImplicit false

namespace Patchboard.Version

inductive Term where
  | any
  | exact (version : String)
  | range (lower upper : String)
deriving DecidableEq, Inhabited

namespace Term

/-- A wildcard star as the lowest and as the highest segment. -/
def starLow : List Char := ['0']

def starHigh : List Char := ['9', '9', '9']

def fill (star s : List Char) : List Char :=
  s.flatMap fun c => if c = '*' then star else [c]

def startsNumeric : List Char → Bool
  | c :: _ => c.isDigit || c = '*'
  | [] => false

/-- The two ends of `lower-upper`, both of which look like versions; a pre-release suffix does
not make a range. -/
def splitRange? (term : List Char) : Option (List Char × List Char) :=
  match Text.splitOnce? '-' term with
  | some (lower, upper) =>
    if startsNumeric lower && startsNumeric upper && !upper.contains '-' then some (lower, upper)
    else none
  | none => none

def ofNormal? (term : List Char) : Option Term :=
  if term.isEmpty then none
  else if term = ['a', 'l', 'l'] || term = ['*'] then some .any
  else
    match splitRange? term with
    | some (lower, upper) =>
      if lower.contains '*' || upper.contains '*' then none
      else some (.range (String.ofList lower) (String.ofList upper))
    | none =>
      if term.contains '*' then
        some (.range (String.ofList (fill starLow term)) (String.ofList (fill starHigh term)))
      else some (.exact (String.ofList term))

def parse? (raw : String) : Option Term := ofNormal? (normalize raw)

def bounds? : Term → Option (String × String)
  | .any => none
  | .exact v => some (v, v)
  | .range lower upper => some (lower, upper)

def contains (t : Term) (version : String) : Bool :=
  match t.bounds? with
  | none => true
  | some (lower, upper) => le lower version && le version upper

def overlaps (a b : Term) : Bool :=
  match a.bounds?, b.bounds? with
  | some (l, u), some (l', u') => le l u' && le l' u
  | _, _ => true

end Term

def parseExpression (expression : String) : List Term :=
  (Text.pieces ',' expression).filterMap Term.parse?

end Patchboard.Version
