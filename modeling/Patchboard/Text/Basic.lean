set_option autoImplicit false

namespace Patchboard.Text

def blankRanges : List (Nat × Nat) :=
  [(0x9, 0xD), (0x20, 0x20), (0x85, 0x85), (0xA0, 0xA0), (0x1680, 0x1680), (0x2000, 0x200A),
   (0x2028, 0x2029), (0x202F, 0x202F), (0x205F, 0x205F), (0x3000, 0x3000)]

def isBlank (c : Char) : Bool :=
  blankRanges.any fun range => range.1 ≤ c.toNat && c.toNat ≤ range.2

def trimStart (s : List Char) : List Char := s.dropWhile isBlank

def trimEnd (s : List Char) : List Char := (s.reverse.dropWhile isBlank).reverse

def trim (s : List Char) : List Char := trimEnd (trimStart s)

def trimmed (s : String) : String := String.ofList (trim s.toList)

def allBlank (s : String) : Bool := s.toList.all isBlank

def lowerAscii (s : List Char) : List Char := s.map Char.toLower

def lowered (s : String) : String := String.ofList (lowerAscii s.toList)

def after? : List Char → List Char → Option (List Char)
  | [], s => some s
  | _ :: _, [] => none
  | p :: ps, c :: s => if p = c then after? ps s else none

theorem after?_append (p s : List Char) : after? p (p ++ s) = some s := by
  induction p with
  | nil => rfl
  | cons p ps ih => simp [after?, ih]

theorem eq_append_of_after? {p s rest : List Char} (h : after? p s = some rest) :
    s = p ++ rest := by
  induction p generalizing s with
  | nil => simpa [after?] using h
  | cons p ps ih =>
    cases s with
    | nil => simp [after?] at h
    | cons c s =>
      by_cases hc : p = c
      · simp [after?, hc] at h
        simp [hc, ← ih h]
      · simp [after?, hc] at h

def startsWith (p s : List Char) : Bool := (after? p s).isSome

def cut? (p : List Char) : List Char → Option (List Char × List Char)
  | [] => if p.isEmpty then some ([], []) else none
  | c :: s =>
    match after? p (c :: s) with
    | some rest => some ([], rest)
    | none => (cut? p s).map fun halves => (c :: halves.1, halves.2)

def contains (p s : List Char) : Bool := (cut? p s).isSome

/-- Replaces the occurrences of `p` from left to right; `skip` counts the characters of the
current occurrence that still have to be passed over. -/
def replaceFrom (p by' : List Char) : Nat → List Char → List Char
  | _, [] => []
  | skip + 1, _ :: s => replaceFrom p by' skip s
  | 0, c :: s =>
    if startsWith p (c :: s) then by' ++ replaceFrom p by' (p.length - 1) s
    else c :: replaceFrom p by' 0 s

/-- Every occurrence of a non-empty `p`, taken from the left without overlap, becomes `by'`. -/
def replaceAll (p by' s : List Char) : List Char :=
  if p.isEmpty then s else replaceFrom p by' 0 s

def splitOn (separator : Char) : List Char → List (List Char)
  | [] => [[]]
  | c :: s =>
    if c = separator then [] :: splitOn separator s
    else
      match splitOn separator s with
      | [] => [[c]]
      | piece :: pieces => (c :: piece) :: pieces

def splitOnce? (separator : Char) : List Char → Option (List Char × List Char)
  | [] => none
  | c :: s =>
    if c = separator then some ([], s)
    else (splitOnce? separator s).map fun halves => (c :: halves.1, halves.2)

def dropLast? (c : Char) (s : List Char) : List Char :=
  if s.getLast? = some c then s.dropLast else s

/-- The lines of a text without their line feed and one carriage return before it; a final line
feed opens no line. -/
def lines (s : List Char) : List (List Char) :=
  match (splitOn '\n' s).reverse with
  | [] => []
  | last :: earlier =>
    (earlier.map (dropLast? '\r')).reverse ++ (if last.isEmpty then [] else [last])

def pieces (separator : Char) (s : String) : List String :=
  (splitOn separator s.toList).map String.ofList

def decimal (n : Nat) : String := String.ofList (Nat.toDigits 10 n)

def digitValue (c : Char) : Nat := c.toNat - '0'.toNat

def numeral (digits : List Char) : Nat := digits.foldl (fun n c => 10 * n + digitValue c) 0

end Patchboard.Text
