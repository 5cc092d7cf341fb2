import Patchboard.Json.Basic

set_option autoImplicit false

namespace Patchboard.Json

def skipBlank : List Char → List Char
  | ' ' :: s => skipBlank s
  | '\n' :: s => skipBlank s
  | '\t' :: s => skipBlank s
  | '\r' :: s => skipBlank s
  | s => s

def isHighSurrogate (n : Nat) : Bool := 0xD800 ≤ n && n ≤ 0xDBFF

def isLowSurrogate (n : Nat) : Bool := 0xDC00 ≤ n && n ≤ 0xDFFF

def simpleEscape? : Char → Option Char
  | '"' => some '"'
  | '\\' => some '\\'
  | '/' => some '/'
  | 'b' => some '\x08'
  | 'f' => some '\x0c'
  | 'n' => some '\n'
  | 'r' => some '\r'
  | 't' => some '\t'
  | _ => none

/-- The character of a `\u` escape whose letter has been read; a high surrogate takes the low one
that must follow it. -/
def unicodeEscape? (s : List Char) : Option (Char × List Char) := do
  let n ← Text.hexNumeral? (s.take 4)
  let rest := s.drop 4
  if s.length < 4 then none
  else if isLowSurrogate n then none
  else if isHighSurrogate n then
    match rest with
    | '\\' :: 'u' :: low =>
      let m ← Text.hexNumeral? (low.take 4)
      if low.length < 4 || !isLowSurrogate m then none
      else some (Char.ofNat (0x10000 + (n - 0xD800) * 0x400 + (m - 0xDC00)), low.drop 4)
    | _ => none
  else some (Char.ofNat n, rest)

def string? : Nat → List Char → Option (List Char × List Char)
  | 0, _ => none
  | _ + 1, [] => none
  | _ + 1, '"' :: s => some ([], s)
  | fuel + 1, '\\' :: 'u' :: s => do
    let (c, rest) ← unicodeEscape? s
    let (chars, rest) ← string? fuel rest
    return (c :: chars, rest)
  | fuel + 1, '\\' :: e :: s => do
    let c ← simpleEscape? e
    let (chars, rest) ← string? fuel s
    return (c :: chars, rest)
  | fuel + 1, c :: s =>
    if c.toNat < 0x20 || c = '\\' then none
    else do
      let (chars, rest) ← string? fuel s
      return (c :: chars, rest)

def digits1? (s : List Char) : Option (List Char × List Char) :=
  let digits := s.takeWhile Char.isDigit
  if digits.isEmpty then none else some (digits, s.dropWhile Char.isDigit)

def fractionPart? : List Char → Option (List Char × List Char)
  | '.' :: s => (digits1? s).map fun halves => ('.' :: halves.1, halves.2)
  | s => some ([], s)

def exponentSign : List Char → List Char × List Char
  | '+' :: s => (['+'], s)
  | '-' :: s => (['-'], s)
  | s => ([], s)

def exponentPart? : List Char → Option (List Char × List Char)
  | c :: s =>
    if c = 'e' || c = 'E' then
      let (sign, rest) := exponentSign s
      (digits1? rest).map fun halves => (c :: sign ++ halves.1, halves.2)
    else some ([], c :: s)
  | [] => some ([], [])

def number? (s : List Char) : Option (Json × List Char) := do
  let (negative, body) := match s with
    | '-' :: rest => (true, rest)
    | rest => (false, rest)
  let (whole, rest) ← digits1? body
  if whole.length > 1 && whole.head? = some '0' then none
  else
    let (decimals, rest) ← fractionPart? rest
    let (exponent, rest) ← exponentPart? rest
    let value := Text.numeral whole
    if !decimals.isEmpty || !exponent.isEmpty || (negative && value = 0) then
      some (.fraction ((if negative then ['-'] else []) ++ whole ++ decimals ++ exponent), rest)
    else some (.integer (if negative then -(value : Int) else value), rest)

mutual

def value? : Nat → List Char → Option (Json × List Char)
  | 0, _ => none
  | fuel + 1, s =>
    match skipBlank s with
    | '"' :: s => (string? (s.length + 1) s).map fun halves =>
        (.text (String.ofList halves.1), halves.2)
    | '[' :: s =>
      match skipBlank s with
      | ']' :: rest => some (.list [], rest)
      | s => (items? fuel s).map fun halves => (.list halves.1, halves.2)
    | '{' :: s =>
      match skipBlank s with
      | '}' :: rest => some (.object [], rest)
      | s => (fields? fuel s).map fun halves => (.object halves.1, halves.2)
    | s =>
      match Text.after? (word "null") s, Text.after? (word "true") s,
        Text.after? (word "false") s with
      | some rest, _, _ => some (.null, rest)
      | _, some rest, _ => some (.bool true, rest)
      | _, _, some rest => some (.bool false, rest)
      | none, none, none => number? s

def items? : Nat → List Char → Option (List Json × List Char)
  | 0, _ => none
  | fuel + 1, s => do
    let (item, rest) ← value? fuel s
    match skipBlank rest with
    | ']' :: rest => some ([item], rest)
    | ',' :: rest => do
      let (items, rest) ← items? fuel rest
      return (item :: items, rest)
    | _ => none

def fields? : Nat → List Char → Option (List (String × Json) × List Char)
  | 0, _ => none
  | fuel + 1, s =>
    match skipBlank s with
    | '"' :: s => do
      let (key, rest) ← string? (s.length + 1) s
      match skipBlank rest with
      | ':' :: rest => do
        let (value, rest) ← value? fuel rest
        match skipBlank rest with
        | '}' :: rest => some ([(String.ofList key, value)], rest)
        | ',' :: rest => do
          let (fields, rest) ← fields? fuel rest
          return ((String.ofList key, value) :: fields, rest)
        | _ => none
      | _ => none
    | _ => none

end

def parse? (s : String) : Option Json := do
  let (value, rest) ← value? (2 * s.length + 2) s.toList
  if (skipBlank rest).isEmpty then some value else none

end Patchboard.Json
