import Patchboard.Text.Numeral
import Patchboard.Toml.Basic

set_option autoImplicit false

namespace Patchboard.Toml

def radixDigit? (radix : Nat) (c : Char) : Option Nat :=
  (Text.hexValue? c).filter fun v => v < radix

def digits? (radix : Nat) : List Char → Option (List Nat)
  | [] => none
  | [c] => (radixDigit? radix c).map fun d => [d]
  | c :: '_' :: s => do return (← radixDigit? radix c) :: (← digits? radix s)
  | c :: s => do return (← radixDigit? radix c) :: (← digits? radix s)

def valueOf (radix : Nat) (digits : List Nat) : Nat := digits.foldl (fun n d => radix * n + d) 0

def inRange (n : Int) : Bool := Int64.minValue.toInt ≤ n && n ≤ Int64.maxValue.toInt

def integer? (n : Int) : Option Toml := if inRange n then some (.integer n) else none

def splitSign : List Char → Bool × List Char
  | '-' :: s => (true, s)
  | '+' :: s => (false, s)
  | s => (false, s)

def noLeadingZero (digits : List Nat) : Bool := digits.length = 1 || digits.head? ≠ some 0

def decimalInteger? (s : List Char) : Option Toml := do
  let (negative, body) := splitSign s
  let digits ← digits? 10 body
  if noLeadingZero digits then
    let n : Int := valueOf 10 digits
    integer? (if negative then -n else n)
  else none

def radixInteger? : List Char → Option Toml
  | '0' :: 'x' :: s => do integer? (valueOf 16 (← digits? 16 s))
  | '0' :: 'o' :: s => do integer? (valueOf 8 (← digits? 8 s))
  | '0' :: 'b' :: s => do integer? (valueOf 2 (← digits? 2 s))
  | _ => none

def digitChars (digits : List Nat) : List Char := digits.map Nat.digitChar

def isExponentMark (c : Char) : Bool := c = 'e' || c = 'E'

/-- A float has a fraction, an exponent, or both; one beyond the largest number is refused. -/
def numericFloat? (s : List Char) : Option Toml := do
  let (negative, body) := splitSign s
  let base := body.takeWhile fun c => !isExponentMark c
  let exponent : Int ←
    match body.drop base.length with
    | [] => some 0
    | _ :: e => do
      let (negative, e) := splitSign e
      let n : Int := valueOf 10 (← digits? 10 e)
      some (if negative then -n else n)
  let (whole, decimals) ←
    match Text.splitOnce? '.' base with
    | some (whole, decimals) => do some (← digits? 10 whole, ← digits? 10 decimals)
    | none => if base.length = body.length then none else do some (← digits? 10 base, [])
  if !noLeadingZero whole then none
  else
    match Binary64.ofDecimal negative (digitChars (whole ++ decimals))
        (exponent - decimals.length) with
    | .finite negative m e => some (.float (.finite negative m e))
    | _ => none

def specialFloat? (s : List Char) : Option Toml :=
  let (negative, body) := splitSign s
  if body = ['i', 'n', 'f'] then some (.float (.infinite negative))
  else if body = ['n', 'a', 'n'] then some (.float .notANumber)
  else none

/-- Exactly `width` digits, as a number, and the rest. -/
def fixed? (width : Nat) (s : List Char) : Option (Nat × List Char) :=
  let digits := s.take width
  if digits.length = width && digits.all Char.isDigit then
    some (Text.numeral digits, s.drop width)
  else none

def isLeap (year : Nat) : Bool := year % 4 = 0 && (year % 100 ≠ 0 || year % 400 = 0)

def daysIn (year month : Nat) : Nat :=
  if month = 2 then (if isLeap year then 29 else 28)
  else if [4, 6, 9, 11].contains month then 30 else 31

def date? (s : List Char) : Option (Date × List Char) := do
  let (year, s) ← fixed? 4 s
  let (month, s) ← fixed? 2 (← Text.after? ['-'] s)
  let (day, s) ← fixed? 2 (← Text.after? ['-'] s)
  if 1 ≤ month && month ≤ 12 && 1 ≤ day && day ≤ daysIn year month then
    some (⟨year, month, day⟩, s)
  else none

def fraction? (s : List Char) : Option (Option (List Char) × List Char) :=
  match s with
  | '.' :: s =>
    let digits := s.takeWhile Char.isDigit
    if digits.isEmpty then none else some (some (digits.take 9), s.drop digits.length)
  | s => some (none, s)

def time? (s : List Char) : Option (Time × List Char) := do
  let (hour, s) ← fixed? 2 s
  let (minute, s) ← fixed? 2 (← Text.after? [':'] s)
  if 23 < hour || 59 < minute then none
  else
    match s with
    | ':' :: s => do
      let (second, s) ← fixed? 2 s
      if 60 < second then none
      else
        let (decimals, s) ← fraction? s
        some (⟨hour, minute, some second, decimals⟩, s)
    | s => some (⟨hour, minute, none, none⟩, s)

def offset? (s : List Char) : Option (Option Offset) :=
  match s with
  | [] => some none
  | ['Z'] => some (some .utc)
  | ['z'] => some (some .utc)
  | c :: s =>
    if c = '+' || c = '-' then do
      let (hours, s) ← fixed? 2 s
      let (minutes, s) ← fixed? 2 (← Text.after? [':'] s)
      let total : Int := hours * 60 + minutes
      if !s.isEmpty || 23 < hours || 59 < minutes then none
      else some (some (.minutes (if c = '-' then -total else total)))
    else none

def isDateDelimiter (c : Char) : Bool := c = 'T' || c = 't' || c = ' '

def datetime? (s : List Char) : Option Toml :=
  match date? s with
  | some (date, []) => some (.datetime ⟨some date, none, none⟩)
  | some (date, c :: s) =>
    if isDateDelimiter c then do
      let (time, s) ← time? s
      return .datetime ⟨some date, some time, ← offset? s⟩
    else none
  | none =>
    match time? s with
    | some (time, []) => some (.datetime ⟨none, some time, none⟩)
    | _ => none

def isDate (s : List Char) : Bool :=
  match date? s with
  | some (_, []) => true
  | _ => false

def scalar? (s : List Char) : Option Toml :=
  if s = "true".toList then some (.boolean true)
  else if s = "false".toList then some (.boolean false)
  else
    (decimalInteger? s).or <| (radixInteger? s).or <| (numericFloat? s).or <|
      (specialFloat? s).or (datetime? s)

end Patchboard.Toml
