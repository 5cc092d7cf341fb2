import Patchboard.Text.Basic

set_option autoImplicit false

namespace Patchboard.Version

/-- One dot-separated identifier; leading zeros of a number count only between equal values. -/
inductive Identifier where
  | numeric (value width : Nat)
  | textual (text : List Char)
deriving DecidableEq

def Identifier.compare : Identifier → Identifier → Ordering
  | .numeric v w, .numeric v' w' => (Ord.compare v v').then (Ord.compare w w')
  | .numeric _ _, .textual _ => .lt
  | .textual _, .numeric _ _ => .gt
  | .textual t, .textual t' => Ord.compare t t'

structure Semantic where
  major : Nat
  minor : Nat
  patch : Nat
  pre : List Identifier
  build : List Identifier
deriving DecidableEq

namespace Semantic

def comparePre (a b : List Identifier) : Ordering :=
  match a, b with
  | [], [] => .eq
  | [], _ :: _ => .gt
  | _ :: _, [] => .lt
  | a, b => List.compareLex Identifier.compare a b

def compare (a b : Semantic) : Ordering :=
  (Ord.compare a.major b.major).then <|
  (Ord.compare a.minor b.minor).then <|
  (Ord.compare a.patch b.patch).then <|
  (comparePre a.pre b.pre).then <|
  List.compareLex Identifier.compare a.build b.build

def bound : Nat := UInt64.size

/-- Digits without a leading zero, below the bound, and the text after them. -/
def number? (s : List Char) : Option (Nat × List Char) :=
  let digits := s.takeWhile Char.isDigit
  let value := Text.numeral digits
  if digits.isEmpty || (digits.length > 1 && digits.head? = some '0') || bound ≤ value then none
  else some (value, s.dropWhile Char.isDigit)

def isIdentifierChar (c : Char) : Bool := c.isAlphanum || c = '-'

def identifier? (leadingZeros : Bool) (s : List Char) : Option Identifier :=
  if s.isEmpty || !s.all isIdentifierChar then none
  else if s.all Char.isDigit then
    if s.length > 1 && s.head? = some '0' && !leadingZeros then none
    else some (.numeric (Text.numeral s) s.length)
  else some (.textual s)

def identifiers? (leadingZeros : Bool) (s : List Char) : Option (List Identifier) :=
  (Text.splitOn '.' s).mapM (identifier? leadingZeros)

def build? : List Char → Option (List Identifier)
  | [] => some []
  | '+' :: s => identifiers? true s
  | _ => none

def tail? : List Char → Option (List Identifier × List Identifier)
  | '-' :: s => do
    let pre ← identifiers? false (s.takeWhile (· ≠ '+'))
    let build ← build? (s.dropWhile (· ≠ '+'))
    return (pre, build)
  | s => (build? s).map fun build => ([], build)

def dot? : List Char → Option (List Char)
  | '.' :: s => some s
  | _ => none

def parse? (s : List Char) : Option Semantic := do
  let (major, s) ← number? s
  let (minor, s) ← number? (← dot? s)
  let (patch, s) ← number? (← dot? s)
  let (pre, build) ← tail? s
  return ⟨major, minor, patch, pre, build⟩

end Semantic

end Patchboard.Version
