import Patchboard.Text.Basic

set_option autoImplicit false

namespace Patchboard

inductive Binary64 where
  /-- `mantissa * 2 ^ exponent`. -/
  | finite (negative : Bool) (mantissa : Nat) (exponent : Int)
  | infinite (negative : Bool)
  | notANumber
deriving DecidableEq

namespace Binary64

def mantissaBits : Nat := 53

def leastExponent : Int := -1074

def greatestExponent : Int := 971

/-- The nearest natural number to a quotient; a tie goes to the even neighbour. -/
def roundEven (num den : Nat) : Nat :=
  let q := num / den
  let r := num % den
  if 2 * r < den then q
  else if den < 2 * r then q + 1
  else if q % 2 = 0 then q else q + 1

/-- The quotient `num / den * 2 ^ (-exponent)` as a quotient of naturals. -/
def scaled (num den : Nat) (exponent : Int) : Nat × Nat :=
  if exponent < 0 then (num <<< exponent.natAbs, den) else (num, den <<< exponent.natAbs)

/-- The exponent at which the mantissa of a positive quotient has its full number of bits, but no
less than the least one. -/
def exponentOf (num den : Nat) : Int :=
  let guess : Int := (num.log2 : Int) - (den.log2 : Int) - mantissaBits
  let fits (e : Int) : Bool :=
    let q := scaled num den e
    q.1 < q.2 <<< mantissaBits
  let e := if fits guess then guess else if fits (guess + 1) then guess + 1 else guess + 2
  max e leastExponent

def ofQuotient (negative : Bool) (num den : Nat) : Binary64 :=
  if num = 0 then .finite negative 0 0
  else
    let e := exponentOf num den
    let q := scaled num den e
    let m := roundEven q.1 q.2
    let (m, e) := if m = 1 <<< mantissaBits then (1 <<< (mantissaBits - 1), e + 1) else (m, e)
    if greatestExponent < e then .infinite negative
    else if m = 0 then .finite negative 0 0
    else .finite negative m e

/-- The number nearest to `digits * 10 ^ exponent`. Far outside the range the answer is known
without computing the power. -/
def ofDecimal (negative : Bool) (digits : List Char) (exponent : Int) : Binary64 :=
  let value := Text.numeral digits
  let magnitude : Int := (value.log2 : Int) / 4 + exponent
  if value = 0 then .finite negative 0 0
  else if 400 < magnitude then .infinite negative
  else if (digits.length : Int) + exponent < -400 then .finite negative 0 0
  else if exponent < 0 then ofQuotient negative value (Nat.pow 10 exponent.natAbs)
  else ofQuotient negative (value * Nat.pow 10 exponent.natAbs) 1

/-- The two ends of the interval of reals that round to `m * 2 ^ e`, in units of `2 ^ (e - 2)`;
below a power of two the gap is half as wide. -/
def interval (m : Nat) (e : Int) : Nat × Nat :=
  let narrow := m = 1 <<< (mantissaBits - 1) && leastExponent < e
  (4 * m - (if narrow then 1 else 2), 4 * m + 2)

/-- Whether `n * 10 ^ k` lies in the interval of `m * 2 ^ e`; its ends belong to it when `m` is
even. -/
def readsBack (m : Nat) (e : Int) (n : Nat) (k : Int) : Bool :=
  let (lo, hi) := interval m e
  -- compare n * 10 ^ k with bound * 2 ^ (e - 2)
  let left := if k < 0 then n else n * Nat.pow 10 k.natAbs
  let right (bound : Nat) := if k < 0 then bound * Nat.pow 10 k.natAbs else bound
  let e' := e - 2
  let left' := if e' < 0 then left <<< e'.natAbs else left
  let right' (bound : Nat) := if e' < 0 then right bound else right bound <<< e'.natAbs
  if m % 2 = 0 then right' lo ≤ left' && left' ≤ right' hi
  else right' lo < left' && left' < right' hi

/-- The grid points of step `10 ^ k` below and above `m * 2 ^ e`, the nearer one first; of two
equally near ones the upper. -/
def neighbours (m : Nat) (e k : Int) : List Nat :=
  let num := (if e < 0 then m else m <<< e.natAbs) * (if k < 0 then Nat.pow 10 k.natAbs else 1)
  let den := (if e < 0 then 1 <<< e.natAbs else 1) * (if k < 0 then 1 else Nat.pow 10 k.natAbs)
  let q := num / den
  let r := num % den
  if r = 0 then [q] else if 2 * r < den then [q, q + 1] else [q + 1, q]

/-- Searches the grids from the coarsest to the finest for a point that reads back. -/
def shortestFrom (m : Nat) (e : Int) : Nat → Int → Nat × Int
  | 0, k => ((neighbours m e k).headD 0, k)
  | fuel + 1, k =>
    match (neighbours m e k).find? fun n => readsBack m e n k with
    | some n => (n, k)
    | none => shortestFrom m e fuel (k - 1)

/-- A power of ten above the number. -/
def coarsest (m : Nat) (e : Int) : Int := ((m.log2 : Int) + 1 + e) * 31 / 100 + 2

def shortest (m : Nat) (e : Int) : Nat × Int := shortestFrom m e 25 (coarsest m e)

/-- Positional notation of `n * 10 ^ k`, without exponent and without a needless point. -/
def positional (n : Nat) (k : Int) : List Char :=
  let digits := Nat.toDigits 10 n
  if 0 ≤ k then digits ++ List.replicate k.natAbs '0'
  else
    let places := k.natAbs
    let padded := List.replicate (places + 1 - digits.length) '0' ++ digits
    padded.take (padded.length - places) ++ '.' :: padded.drop (padded.length - places)

def dropTrailingZeros (n : Nat) (k : Int) : Nat → Nat × Int
  | 0 => (n, k)
  | fuel + 1 => if n % 10 = 0 && n ≠ 0 then dropTrailingZeros (n / 10) (k + 1) fuel else (n, k)

def sign (negative : Bool) : List Char := if negative then ['-'] else []

def render : Binary64 → List Char
  | .notANumber => "NaN".toList
  | .infinite negative => sign negative ++ "inf".toList
  | .finite negative 0 _ => sign negative ++ ['0']
  | .finite negative m e =>
    let (n, k) := shortest m e
    let (n, k) := dropTrailingZeros n k 400
    sign negative ++ positional n k

end Binary64

end Patchboard
