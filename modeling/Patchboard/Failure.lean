import Patchboard.Text.Numeral
import Patchboard.Tree.Operations

set_option autoImplicit false

namespace Patchboard

/-- What is wrong with a method block of a manifest; blocks and actions count from one. -/
inductive BlockError where
  | blockNoTable (block : Nat)
  | actionNoTable (block action : Nat)
  | actionsNoTables (block : Nat)
deriving DecidableEq

def BlockError.message : BlockError → String
  | .blockNoTable block => "block #" ++ Text.decimal block ++ " must be a table"
  | .actionNoTable block action =>
    "block #" ++ Text.decimal block ++ " action #" ++ Text.decimal action ++ " must be a table"
  | .actionsNoTables block => "block #" ++ Text.decimal block ++ " actions must be tables"

inductive Cause where
  | file (error : FileError)
  | toml
  | json
  | numeral (error : NumeralError)
  | block (error : BlockError)
  | emptyProductVersion
  | duplicateTheme (id : Nat)
  | noDefaultTheme
  | missingPackageId
  | invalidMode (value : String)
  | noInstructions (package mode product : String)
  | unknownState (value : String)
  | missingReceiptField (name : String)
  | runActive (holder : Option String)
  | noMetadata (run : String)
  | fingerprintMismatch (expected planned : String)
  | noFileTreeAction (kind : String)
  | noVariable
deriving DecidableEq

def quoted (s : String) : String := "'" ++ s ++ "'"

def Cause.message : Cause → String
  | .file e => e.message
  | .toml => "TOML parse error"
  | .json => "JSON parse error"
  | .numeral e => e.message
  | .block e => e.message
  | .emptyProductVersion => "product_version must not be empty"
  | .duplicateTheme id => "duplicate theme id " ++ Text.decimal id ++ " in installer config"
  | .noDefaultTheme => "installer config lists themes but none has the default id 1"
  | .missingPackageId => "package manifest is missing a package id"
  | .invalidMode value =>
    "invalid install mode " ++ quoted value ++ "; expected install, upgrade or uninstall"
  | .noInstructions package mode product =>
    "package " ++ quoted package ++ " has no " ++ mode ++ " instructions for product version " ++
      product
  | .unknownState value => "unknown install_state " ++ quoted value
  | .missingReceiptField name => "missing " ++ name
  | .runActive holder =>
    "another installation run is active" ++
      (match holder with
        | some run => " (run_id=" ++ run ++ ")"
        | none => "")
  | .noMetadata run => "run metadata not found for " ++ quoted run
  | .fingerprintMismatch expected planned =>
    "plan fingerprint mismatch: expected " ++ expected ++ ", planned " ++ planned
  | .noFileTreeAction kind => kind ++ " is not a file-tree action"
  | .noVariable => "environment variable not found"

structure Failure where
  /-- What was being done, the outermost first. -/
  contexts : List String
  cause : Cause
deriving DecidableEq

namespace Failure

def ofCause (c : Cause) : Failure := ⟨[], c⟩

def within (context : String) (f : Failure) : Failure := { f with contexts := context :: f.contexts }

def joined : List String → String
  | [] => ""
  | [s] => s
  | s :: rest => s ++ ": " ++ joined rest

def message (f : Failure) : String := joined (f.contexts ++ [f.cause.message])

end Failure

abbrev Job (α : Type) := ExceptT Failure (StateM Tree) α

namespace Job

def fail {α : Type} (c : Cause) : Job α := throw (Failure.ofCause c)

def ofExcept {α : Type} : Except Failure α → Job α
  | .ok a => pure a
  | .error f => throw f

def ofAction {α : Type} (action : Tree.Action α) : Job α :=
  ExceptT.adapt (fun e => Failure.ofCause (.file e)) action

def doing {α : Type} (context : String) (job : Job α) : Job α :=
  ExceptT.adapt (Failure.within context) job

def on {α : Type} (context : String) (p : Path) (action : Tree.Action α) : Job α :=
  doing (context ++ p.text) (ofAction action)

end Job

end Patchboard
