import Patchboard.Text.Numeral

set_option autoImplicit false

namespace Patchboard

inductive Json where
  | null
  | bool (value : Bool)
  | integer (value : Int)
  /-- A number with a fraction or an exponent, or a negative zero, as it was written. -/
  | fraction (digits : List Char)
  | text (value : String)
  | list (items : List Json)
  | object (fields : List (String × Json))
deriving Inhabited

namespace Json

def natural (n : Nat) : Json := .integer n

def ofOption {α : Type} (f : α → Json) : Option α → Json
  | none => .null
  | some a => f a

def ofList {α : Type} (f : α → Json) (items : List α) : Json := .list (items.map f)

def field? (key : String) (value : Option Json) : List (String × Json) :=
  match value with
  | none => []
  | some v => [(key, v)]

/-- Control characters below the blank have a short escape or a hexadecimal one. -/
def escape (c : Char) : List Char :=
  match c with
  | '"' => ['\\', '"']
  | '\\' => ['\\', '\\']
  | '\n' => ['\\', 'n']
  | '\r' => ['\\', 'r']
  | '\t' => ['\\', 't']
  | '\x08' => ['\\', 'b']
  | '\x0c' => ['\\', 'f']
  | c =>
    if c.toNat < 0x20 then ['\\', 'u', '0', '0', Text.hexDigit (c.toNat / 16), Text.hexDigit (c.toNat % 16)]
    else [c]

def quote (s : String) : List Char := '"' :: s.toList.flatMap escape ++ ['"']

def word (s : String) : List Char := s.toList

mutual

def compact : Json → List Char
  | .null => word "null"
  | .bool true => word "true"
  | .bool false => word "false"
  | .integer n => Text.ofInteger n
  | .fraction digits => digits
  | .text s => quote s
  | .list items => '[' :: compactItems items ++ [']']
  | .object fields => '{' :: compactFields fields ++ ['}']

def compactItems : List Json → List Char
  | [] => []
  | item :: items => compact item ++ compactMoreItems items

def compactMoreItems : List Json → List Char
  | [] => []
  | item :: items => ',' :: compact item ++ compactMoreItems items

def compactFields : List (String × Json) → List Char
  | [] => []
  | (key, value) :: fields => quote key ++ ':' :: compact value ++ compactMoreFields fields

def compactMoreFields : List (String × Json) → List Char
  | [] => []
  | (key, value) :: fields => ',' :: quote key ++ ':' :: compact value ++ compactMoreFields fields

end

def newline (depth : Nat) : List Char := '\n' :: List.replicate (2 * depth) ' '

mutual

/-- Each item and field stands on a line of its own; an empty list or object stays closed up. -/
def indented (depth : Nat) : Json → List Char
  | .list (item :: items) =>
    '[' :: newline (depth + 1) ++ indented (depth + 1) item ++ indentedItems (depth + 1) items
      ++ newline depth ++ [']']
  | .object ((key, value) :: fields) =>
    '{' :: newline (depth + 1) ++ quote key ++ ':' :: ' ' :: indented (depth + 1) value
      ++ indentedFields (depth + 1) fields ++ newline depth ++ ['}']
  | .null => word "null"
  | .bool true => word "true"
  | .bool false => word "false"
  | .integer n => Text.ofInteger n
  | .fraction digits => digits
  | .text s => quote s
  | .list [] => word "[]"
  | .object [] => ['{', '}']

def indentedItems (depth : Nat) : List Json → List Char
  | [] => []
  | item :: items => ',' :: newline depth ++ indented depth item ++ indentedItems depth items

def indentedFields (depth : Nat) : List (String × Json) → List Char
  | [] => []
  | (key, value) :: fields =>
    ',' :: newline depth ++ quote key ++ ':' :: ' ' :: indented depth value
      ++ indentedFields depth fields

end

def render (j : Json) : String := String.ofList (compact j)

def renderIndented (j : Json) : String := String.ofList (indented 0 j)

mutual

/-- Orders the fields of every object by key. -/
def sortKeys : Json → Json
  | .list items => .list (sortItems items)
  | .object fields =>
    .object ((sortFields fields).mergeSort fun a b => compare a.1 b.1 != .gt)
  | j => j

def sortItems : List Json → List Json
  | [] => []
  | item :: items => sortKeys item :: sortItems items

def sortFields : List (String × Json) → List (String × Json)
  | [] => []
  | (key, value) :: fields => (key, sortKeys value) :: sortFields fields

end

end Json

end Patchboard
