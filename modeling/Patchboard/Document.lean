import Patchboard.Toml.Parser
import Patchboard.Failure

set_option autoImplicit false

namespace Patchboard

mutual

/-- The text of a node; a table stands for its field `text` and an array for its first item. -/
def Toml.text? : Toml → Option String
  | .string s => some s
  | .integer n => some (String.ofList (Text.ofInteger n))
  | .float x => some (String.ofList x.render)
  | .boolean true => some "true"
  | .boolean false => some "false"
  | .datetime d => some (String.ofList d.render)
  | .table fields => Toml.fieldText? fields
  | .array items => Toml.firstText? items

def Toml.fieldText? : List (String × Toml) → Option String
  | [] => none
  | (key, value) :: fields => if key = "text" then value.text? else Toml.fieldText? fields

def Toml.firstText? : List Toml → Option String
  | [] => none
  | item :: _ => item.text?

end

structure Document where
  value : Toml
deriving Inhabited

namespace Document

def parse (text : String) : Except Failure Document :=
  match Toml.parse? text with
  | some fields => .ok ⟨.table fields⟩
  | none => .error ((Failure.ofCause .toml).within "failed to parse toml document")

def key (segment : List Char) : String :=
  match segment with
  | '@' :: s => String.ofList s
  | s => String.ofList s

def keys (path : String) : List String :=
  (((Text.splitOn '/' path.toList).map Text.trim).filter fun s => !s.isEmpty && s ≠ ['.']).map key

def first? : Toml → Option Toml
  | .array items => items.head?
  | t => some t

def child? (t : Toml) (key : String) : Option Toml := do
  first? (← Toml.lookup key (← t.fields?))

def descend? : Toml → List String → Option Toml
  | t, [] => some t
  | t, key :: rest => (child? t key).bind fun t => descend? t rest

def resolve? (d : Document) (path : String) : Option Toml := descend? d.value (keys path)

def has (d : Document) (path : String) : Bool := (d.resolve? path).isSome

def fetch? (d : Document) (path : String) : Option String := (d.resolve? path).bind Toml.text?

def fetch (d : Document) (path : String) : String := (d.fetch? path).getD ""

def isYes (s : String) : Bool := ["true", "yes", "1"].contains (Text.lowered (Text.trimmed s))

def flag (d : Document) (path : String) : Bool := (d.fetch? path).any isYes

def items : Toml → List Document
  | .array items => items.map Document.mk
  | t => [⟨t⟩]

def children (d : Document) (path tag : String) : List Document :=
  match (d.resolve? path).bind Toml.fields? with
  | none => []
  | some fields =>
    match Toml.lookup tag fields with
    | none => []
    | some t => items t

end Document

end Patchboard
