import Patchboard.Version.Semantic

set_option autoImplicit false

namespace Patchboard.Version

/-- Spelling that does not matter: blanks and the case of ASCII letters. -/
def normalize (version : String) : List Char :=
  Text.lowerAscii (version.toList.filter fun c => !Text.isBlank c)

/-- The leading number of a segment, held at the largest 64-bit word, and the rest. -/
def splitSegment (segment : List Char) : Nat × List Char :=
  (min (Text.numeral (segment.takeWhile Char.isDigit)) (UInt64.size - 1),
   segment.dropWhile Char.isDigit)

def compareSegment (a b : List Char) : Ordering :=
  let x := splitSegment a
  let y := splitSegment b
  (compare x.1 y.1).then (compare x.2 y.2)

/-- Lexicographic order of segments, the shorter side padded by the segment `0`. -/
def compareSegments : List (List Char) → List (List Char) → Ordering
  | [], [] => .eq
  | [], b :: bs => (compareSegment ['0'] b).then (compareSegments [] bs)
  | a :: as, [] => (compareSegment a ['0']).then (compareSegments as [])
  | a :: as, b :: bs => (compareSegment a b).then (compareSegments as bs)

def compareNormal (a b : List Char) : Ordering :=
  match Semantic.parse? a, Semantic.parse? b with
  | some x, some y => x.compare y
  | _, _ => compareSegments (Text.splitOn '.' a) (Text.splitOn '.' b)

def order (a b : String) : Ordering := compareNormal (normalize a) (normalize b)

def le (a b : String) : Bool := order a b != .gt

end Patchboard.Version
