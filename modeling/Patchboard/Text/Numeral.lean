import Patchboard.Text.Basic

set_option autoImplicit false

namespace Patchboard

inductive NumeralError where
  | empty
  | invalidDigit
  | tooLarge
deriving DecidableEq

def NumeralError.message : NumeralError → String
  | .empty => "cannot parse integer from empty string"
  | .invalidDigit => "invalid digit found in string"
  | .tooLarge => "number too large to fit in target type"

namespace Text

def hexDigit (n : Nat) : Char := (Nat.toDigits 16 n).headD '0'

def hexValue? (c : Char) : Option Nat :=
  if c.isDigit then some (c.toNat - '0'.toNat)
  else if 'a' ≤ c && c ≤ 'f' then some (c.toNat - 'a'.toNat + 10)
  else if 'A' ≤ c && c ≤ 'F' then some (c.toNat - 'A'.toNat + 10)
  else none

def hexNumeral? (digits : List Char) : Option Nat :=
  digits.foldlM (fun n c => (hexValue? c).map (16 * n + ·)) 0

def ofInteger (n : Int) : List Char :=
  if n < 0 then '-' :: Nat.toDigits 10 n.natAbs else Nat.toDigits 10 n.natAbs

def dropPlus : List Char → List Char
  | '+' :: s => s
  | s => s

/-- A natural number below a bound; a plus sign may stand before it. The text is read from the
left, so a number that has grown too large is reported before a wrong digit after it. -/
def natural? (bound : Nat) (s : List Char) : Except NumeralError Nat :=
  let body := dropPlus s
  let digits := body.takeWhile Char.isDigit
  if s.isEmpty then .error .empty
  else if bound ≤ numeral digits then .error .tooLarge
  else if body.isEmpty || digits.length < body.length then .error .invalidDigit
  else .ok (numeral digits)

end Text

end Patchboard
