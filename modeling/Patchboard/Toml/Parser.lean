import Patchboard.Toml.Scalar

set_option autoImplicit false

namespace Patchboard.Toml

def isControl (c : Char) : Bool := (c.toNat < 0x20 && c ≠ '\t') || c.toNat = 0x7F

def skipSpaces : List Char → List Char
  | ' ' :: s => skipSpaces s
  | '\t' :: s => skipSpaces s
  | s => s

def newline? : List Char → Option (List Char)
  | '\n' :: s => some s
  | '\r' :: '\n' :: s => some s
  | _ => none

def lineEnd? (s : List Char) : Option (List Char) :=
  match skipSpaces s with
  | '#' :: s => comment? s
  | s => some s
where
  comment? : List Char → Option (List Char)
    | [] => some []
    | '\n' :: s => some ('\n' :: s)
    | '\r' :: '\n' :: s => some ('\r' :: '\n' :: s)
    | c :: s => if isControl c then none else comment? s

def skipLines? : Nat → List Char → Option (List Char)
  | 0, s => some s
  | fuel + 1, s => do
    let s ← lineEnd? s
    match newline? s with
    | some s => skipLines? fuel s
    | none => some s

def hexEscape? (width : Nat) (s : List Char) : Option (Char × List Char) := do
  let digits := s.take width
  if digits.length < width then none
  else
    let n ← Text.hexNumeral? digits
    if n.isValidChar then some (Char.ofNat n, s.drop width) else none

def escape? : List Char → Option (Char × List Char)
  | 'b' :: s => some ('\x08', s)
  | 't' :: s => some ('\t', s)
  | 'n' :: s => some ('\n', s)
  | 'f' :: s => some ('\x0c', s)
  | 'r' :: s => some ('\r', s)
  | 'e' :: s => some ('\x1b', s)
  | '"' :: s => some ('"', s)
  | '\\' :: s => some ('\\', s)
  | 'x' :: s => hexEscape? 2 s
  | 'u' :: s => hexEscape? 4 s
  | 'U' :: s => hexEscape? 8 s
  | _ => none

def push (c : Char) (r : Option (List Char × List Char)) : Option (List Char × List Char) :=
  r.map fun halves => (c :: halves.1, halves.2)

def basicString? : Nat → List Char → Option (List Char × List Char)
  | 0, _ => none
  | _ + 1, [] => none
  | _ + 1, '"' :: s => some ([], s)
  | fuel + 1, '\\' :: s => do
    let (c, s) ← escape? s
    push c (basicString? fuel s)
  | fuel + 1, c :: s => if isControl c then none else push c (basicString? fuel s)

def literalString? : List Char → Option (List Char × List Char)
  | [] => none
  | '\'' :: s => some ([], s)
  | c :: s => if isControl c then none else push c (literalString? s)

def skipBlank : List Char → List Char
  | ' ' :: s => skipBlank s
  | '\t' :: s => skipBlank s
  | '\n' :: s => skipBlank s
  | '\r' :: '\n' :: s => skipBlank s
  | s => s

/-- A backslash at the end of a line takes all blanks and line ends after it away. -/
def foldedLine? (s : List Char) : Option (List Char) :=
  (newline? (skipSpaces s)).map skipBlank

/-- Up to two quotes may stand directly before the three that close a string. -/
def closing (quote : Char) (s : List Char) : List Char × List Char :=
  let quotes := (s.takeWhile (· = quote)).take 2
  (quotes, s.drop quotes.length)

def basicText? : Nat → List Char → Option (List Char × List Char)
  | 0, _ => none
  | _ + 1, [] => none
  | _ + 1, '"' :: '"' :: '"' :: s => some (closing '"' s)
  | fuel + 1, '\\' :: s =>
    match foldedLine? s with
    | some s => basicText? fuel s
    | none => do
      let (c, s) ← escape? s
      push c (basicText? fuel s)
  | fuel + 1, '\r' :: '\n' :: s => push '\n' (basicText? fuel s)
  | fuel + 1, c :: s =>
    if isControl c && c ≠ '\n' then none else push c (basicText? fuel s)

def literalText? : Nat → List Char → Option (List Char × List Char)
  | 0, _ => none
  | _ + 1, [] => none
  | _ + 1, '\'' :: '\'' :: '\'' :: s => some (closing '\'' s)
  | fuel + 1, '\r' :: '\n' :: s => push '\n' (literalText? fuel s)
  | fuel + 1, c :: s =>
    if isControl c && c ≠ '\n' then none else push c (literalText? fuel s)

def dropNewline (s : List Char) : List Char := (newline? s).getD s

def quoted? : List Char → Option (Option (List Char × List Char))
  | '"' :: '"' :: '"' :: s => some (basicText? (s.length + 1) (dropNewline s))
  | '"' :: s => some (basicString? (s.length + 1) s)
  | '\'' :: '\'' :: '\'' :: s => some (literalText? (s.length + 1) (dropNewline s))
  | '\'' :: s => some (literalString? s)
  | _ => none

def isBareKey (c : Char) : Bool := c.isAlphanum || c = '_' || c = '-'

def keyPart? : List Char → Option (List Char × List Char)
  | '"' :: s => basicString? (s.length + 1) s
  | '\'' :: s => literalString? s
  | s =>
    let bare := s.takeWhile isBareKey
    if bare.isEmpty then none else some (bare, s.drop bare.length)

/-- A key of one or more parts joined by dots, with blanks around it skipped. -/
def key? : Nat → List Char → Option (List String × List Char)
  | 0, _ => none
  | fuel + 1, s => do
    let (part, s) ← keyPart? (skipSpaces s)
    match skipSpaces s with
    | '.' :: s => do
      let (parts, s) ← key? fuel s
      return (String.ofList part :: parts, s)
    | s => return ([String.ofList part], s)

/-- How a part of the document came to be: by a header of its own, as the parent of something
else, or by dotted keys. -/
inductive Origin where
  | header
  | implied
  | dotted

inductive Entry where
  | leaf (value : Toml)
  | table (origin : Origin) (fields : List (String × Entry))
  /-- The tables of an array of tables, the latest first. -/
  | tables (items : List (List (String × Entry)))

abbrev Fields := List (String × Entry)

/-- Assigns below a table; `open_` says that the table reached may take the field itself. -/
def assign : Bool → List String → Toml → Fields → Option Fields
  | _, [], _, _ => none
  | open_, [key], value, fields =>
    if open_ && (lookup key fields).isNone then some (insert key (.leaf value) fields) else none
  | _, key :: path, value, fields =>
    match lookup key fields with
    | none => (assign true path value []).map fun sub => insert key (.table .dotted sub) fields
    | some (.table .dotted sub) =>
      (assign true path value sub).map fun sub => insert key (.table .dotted sub) fields
    | some (.table .implied sub) =>
      (assign false path value sub).map fun sub => insert key (.table .implied sub) fields
    | some (.tables (last :: earlier)) =>
      (assign false path value last).map fun last => insert key (.tables (last :: earlier)) fields
    | some _ => none

/-- Carries `f` out on the table that a path leads to, making the tables on the way. -/
def descend (f : Fields → Option Fields) : List String → Fields → Option Fields
  | [], fields => f fields
  | key :: path, fields =>
    match lookup key fields with
    | none => (descend f path []).map fun sub => insert key (.table .implied sub) fields
    | some (.table origin sub) =>
      (descend f path sub).map fun sub => insert key (.table origin sub) fields
    | some (.tables (last :: earlier)) =>
      (descend f path last).map fun last => insert key (.tables (last :: earlier)) fields
    | some _ => none

def openTable (key : String) (fields : Fields) : Option Fields :=
  match lookup key fields with
  | none => some (insert key (.table .header []) fields)
  | some (.table .implied sub) => some (insert key (.table .header sub) fields)
  | some _ => none

def openItem (key : String) (fields : Fields) : Option Fields :=
  match lookup key fields with
  | none => some (insert key (.tables [[]]) fields)
  | some (.tables items) => some (insert key (.tables ([] :: items)) fields)
  | some _ => none

mutual

def Entry.value : Entry → Toml
  | .leaf value => value
  | .table _ fields => .table (fieldValues fields)
  | .tables items => .array (itemValues items).reverse

def fieldValues : List (String × Entry) → List (String × Toml)
  | [] => []
  | (key, entry) :: fields => (key, entry.value) :: fieldValues fields

def itemValues : List (List (String × Entry)) → List Toml
  | [] => []
  | fields :: items => .table (fieldValues fields) :: itemValues items

end

def depthLimit : Nat := 80

def isScalarChar (c : Char) : Bool :=
  c.isAlphanum || c = '_' || c = '-' || c = '+' || c = '.' || c = ':'

/-- An unquoted value; a date takes a time that a single blank sets apart. -/
def unquoted? (s : List Char) : Option (Toml × List Char) :=
  let first := s.takeWhile isScalarChar
  let rest := s.drop first.length
  let text :=
    match rest with
    | ' ' :: more =>
      if isDate first && (fixed? 2 more).isSome then
        first ++ ' ' :: more.takeWhile isScalarChar
      else first
    | _ => first
  (scalar? text).map fun value => (value, s.drop text.length)

mutual

def value? : Nat → Nat → List Char → Option (Toml × List Char)
  | 0, _, _ => none
  | fuel + 1, depth, s =>
    match quoted? s with
    | some scanned => scanned.map fun halves => (.string (String.ofList halves.1), halves.2)
    | none =>
      match s with
      | '[' :: s =>
        if depthLimit ≤ depth then none
        else (items? fuel (depth + 1) s).map fun halves => (.array halves.1, halves.2)
      | '\x7b' :: s =>
        if depthLimit ≤ depth then none
        else (inline? fuel (depth + 1) [] s).map fun halves =>
          (.table (fieldValues halves.1), halves.2)
      | s => unquoted? s

def items? : Nat → Nat → List Char → Option (List Toml × List Char)
  | 0, _, _ => none
  | fuel + 1, depth, s => do
    let s ← skipLines? s.length s
    match s with
    | ']' :: s => some ([], s)
    | s => do
      let (item, s) ← value? fuel depth s
      let s ← skipLines? s.length s
      match s with
      | ']' :: s => some ([item], s)
      | ',' :: s => do
        let (items, s) ← items? fuel depth s
        return (item :: items, s)
      | _ => none

def inline? : Nat → Nat → Fields → List Char → Option (Fields × List Char)
  | 0, _, _, _ => none
  | fuel + 1, depth, fields, s => do
    let s ← skipLines? s.length s
    match s with
    | '\x7d' :: s => some (fields, s)
    | s => do
      let (path, s) ← key? (s.length + 1) s
      let s ← Text.after? ['='] s
      let (value, s) ← value? fuel depth (skipSpaces s)
      let fields ← assign true path value fields
      let s ← skipLines? s.length s
      match s with
      | '\x7d' :: s => some (fields, s)
      | ',' :: s => inline? fuel depth fields s
      | _ => none

end

/-- What a line of a document says. -/
inductive Statement where
  | table (path : List String)
  | item (path : List String)
  | assign (path : List String) (value : Toml)

/-- The end of a header: nothing but a comment may follow on its line. -/
def statement? (s : List Char) : Option (Statement × List Char) :=
  match s with
  | '[' :: '[' :: s => do
    let (path, s) ← key? (s.length + 1) s
    let s ← Text.after? [']', ']'] s
    return (.item path, s)
  | '[' :: s => do
    let (path, s) ← key? (s.length + 1) s
    let s ← Text.after? [']'] s
    return (.table path, s)
  | s => do
    let (path, s) ← key? (s.length + 1) s
    let s ← Text.after? ['='] s
    let s := skipSpaces s
    let (value, s) ← value? (2 * s.length + 2) 0 s
    return (.assign path value, s)

/-- The table being built and the path of the header that assignments go to. -/
structure Build where
  root : Fields
  current : List String

def Build.carryOut? (b : Build) : Statement → Option Build
  | .table path => do
    let key ← path.getLast?
    return ⟨← descend (openTable key) path.dropLast b.root, path⟩
  | .item path => do
    let key ← path.getLast?
    return ⟨← descend (openItem key) path.dropLast b.root, path⟩
  | .assign path value => do
    return { b with root := ← descend (assign true path value) b.current b.root }

def build? : Nat → Build → List Char → Option Build
  | 0, _, _ => none
  | fuel + 1, b, s => do
    let s ← skipLines? s.length s
    if s.isEmpty then some b
    else
      let (statement, s) ← statement? s
      let b ← b.carryOut? statement
      let s ← lineEnd? s
      if s.isEmpty then some b else build? fuel b (← newline? s)

def dropMark : List Char → List Char
  | '\uFEFF' :: s => s
  | s => s

def parse? (text : String) : Option (List (String × Toml)) := do
  let s := dropMark text.toList
  let b ← build? (s.length + 1) ⟨[], []⟩ s
  return fieldValues b.root

end Patchboard.Toml
