import Patchboard.Document

set_option autoImplicit false

namespace Patchboard

inductive Mode where
  | install
  | upgrade
  | uninstall
deriving DecidableEq, Inhabited

namespace Mode

def name : Mode → String
  | .install => "install"
  | .upgrade => "upgrade"
  | .uninstall => "uninstall"

def parse (s : String) : Except Failure Mode :=
  match Text.lowered (Text.trimmed s) with
  | "install" => .ok .install
  | "upgrade" => .ok .upgrade
  | "uninstall" => .ok .uninstall
  | _ => .error (Failure.ofCause (.invalidMode s))

def all : List Mode := [.install, .upgrade, .uninstall]

end Mode

structure Manifest where
  id : String
  name : String
  version : String
  packageType : Option String
  document : Document
deriving Inhabited

namespace Manifest

/-- The position of the first item that is no table, counted from one. -/
def firstNoTable? : Nat → List Toml → Option Nat
  | _, [] => none
  | n, t :: rest => if t.isTable then firstNoTable? (n + 1) rest else some n

def blockError? (index : Nat) (block : Toml) : Option BlockError :=
  match block.fields? with
  | none => some (.blockNoTable index)
  | some fields =>
    match Toml.lookup "action" fields with
    | none => none
    | some (.array actions) => (firstNoTable? 1 actions).map fun n => .actionNoTable index n
    | some (.table _) => none
    | some _ => some (.actionsNoTables index)

def firstBlockError? : Nat → List Toml → Option BlockError
  | _, [] => none
  | n, block :: rest => (blockError? n block).or (firstBlockError? (n + 1) rest)

def blocksOf (fields : List (String × Toml)) (mode : Mode) : List Toml :=
  match Toml.lookup mode.name fields with
  | none => []
  | some (.array blocks) => blocks
  | some block => [block]

def checkMode (d : Document) (id : String) (mode : Mode) : Except Failure Unit :=
  match firstBlockError? 1 (blocksOf (d.value.fields?.getD []) mode) with
  | none => .ok ()
  | some e =>
    .error ((Failure.ofCause (.block e)).within
      ("invalid " ++ quoted mode.name ++ " section in package " ++ quoted id))

def id? (d : Document) : Option String :=
  ((d.fetch? "id").map Text.trimmed).filter fun id => !id.isEmpty

def parse (text : String) : Except Failure Manifest := do
  let d ← (Document.parse text).mapError (Failure.within "failed to parse package manifest")
  match id? d with
  | none => .error (Failure.ofCause .missingPackageId)
  | some id => do
    checkMode d id .install
    checkMode d id .upgrade
    checkMode d id .uninstall
    return {
      id
      name := (d.fetch? "name").getD id
      version := d.fetch "version"
      packageType := d.fetch? "type"
      document := d }

def hasMethod (m : Manifest) (mode : Mode) : Bool := m.document.has mode.name

def methodBlocks (m : Manifest) (mode : Mode) : List Document := m.document.children "" mode.name

end Manifest

end Patchboard
