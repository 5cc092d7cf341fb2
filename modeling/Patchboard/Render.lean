import Patchboard.PathVariables
import Patchboard.Receipt
import Patchboard.Step

set_option autoImplicit false

namespace Patchboard

inductive OutputStyle where
  | plain
  | rich
deriving DecidableEq

inductive Tone where
  | ok
  | warn
  | err
  | info
deriving DecidableEq

namespace Tone

def parse (s : String) : Tone :=
  match s with
  | "ok" => .ok
  | "warn" => .warn
  | "err" => .err
  | _ => .info

def badge : Tone → String
  | .ok => "[OK]"
  | .warn => "[WARN]"
  | .err => "[ERR]"
  | .info => "[..]"

def ofStatus : Status → Tone
  | .opened | .saved | .passed => .ok
  | .chmodNeeded => .warn
  | .failed | .missing => .err
  | .skipped | .deferred => .info

end Tone

namespace Render

def statusLine (style : OutputStyle) (tone : Tone) (message : String) : String :=
  match style with
  | .plain => message
  | .rich => tone.badge ++ " " ++ message

def themeNote (r : StepResult) : String :=
  if r.isCustom then " (theme " ++ Text.decimal r.theme ++ ")" else ""

def editsNote (r : StepResult) : String :=
  if r.operations.isEmpty then "" else " [" ++ Text.decimal r.operations.length ++ " edits]"

def messageNote (r : StepResult) : String := if r.message.isEmpty then "" else ": " ++ r.message

def resultLine (kind : ActionKind) (r : StepResult) : String :=
  kind.name ++ " " ++ r.target ++ ": " ++ r.status.name ++ themeNote r ++ editsNote r ++
    messageNote r

/-- One line for each result; a step without results still has a line. -/
def stepLines (style : OutputStyle) (s : ActionStep) : List String :=
  if s.results.isEmpty then [statusLine style .info (s.kind.name ++ " " ++ s.target)]
  else
    s.results.map fun r => statusLine style (Tone.ofStatus r.status) (resultLine s.kind r)

def padStart (width : Nat) (s : String) : String :=
  String.ofList (List.replicate (width - s.length) ' ') ++ s

def actionLine (vars : PathVariables) (index : Nat) (a : Action) : String :=
  let target := match a.destination with
    | some p => vars.display p
    | none => a.filename
  padStart 3 (Text.decimal (index + 1)) ++ ". " ++ a.kind.name ++ " " ++ target ++
    (if a.description.isEmpty then "" else " (" ++ a.description ++ ")")

def actionLines (vars : PathVariables) (actions : List Action) : List String :=
  actions.zipIdx.map fun n => actionLine vars n.2 n.1

def receiptLine (r : Receipt) : String :=
  let themes := String.intercalate "," (r.themes.map Text.decimal)
  r.package ++ " " ++ r.version ++ " " ++ r.state.name ++ " themes=" ++
    (if themes.isEmpty then "-" else themes) ++ " installed_at=" ++ Text.decimal r.installedAt

/-- The results of the steps so far, by their tone. -/
structure Tally where
  steps : Nat
  ok : Nat
  warn : Nat
  failed : Nat
deriving DecidableEq

namespace Tally

def zero : Tally := ⟨0, 0, 0, 0⟩

def addResult (t : Tally) (r : StepResult) : Tally :=
  match Tone.ofStatus r.status with
  | .ok => { t with ok := t.ok + 1 }
  | .warn => { t with warn := t.warn + 1 }
  | .err => { t with failed := t.failed + 1 }
  | .info => t

def record (t : Tally) (s : ActionStep) : Tally :=
  s.results.foldl addResult { t with steps := t.steps + 1 }

end Tally

def groupDigits : List Char → List Char
  | [] => []
  | c :: rest =>
    if !rest.isEmpty && rest.length % 3 = 0 then c :: ',' :: groupDigits rest
    else c :: groupDigits rest

def count (n : Nat) : String := String.ofList (groupDigits (Nat.toDigits 10 n))

def colour (code : String) (s : String) : String :=
  "\x1b[1m\x1b[" ++ code ++ "m" ++ s ++ "\x1b[0m"

def brightRed : String := "91"

def brightCyan : String := "96"

def elapsed (milliseconds : Nat) : String :=
  let part := Text.decimal (milliseconds % 1000)
  Text.decimal (milliseconds / 1000) ++ "." ++
    String.ofList (List.replicate (3 - part.length) '0') ++ part ++ "s"

def failedCount (t : Tally) : String :=
  let s := count t.failed ++ " failed"
  if t.failed = 0 then s else colour brightRed s

def tallyLine (style : OutputStyle) (label : String) (t : Tally) (total : Nat)
    (milliseconds : Option Nat) : Option String :=
  match style with
  | .plain => none
  | .rich =>
    some (colour brightCyan label ++ " " ++ count t.steps ++ "/" ++ count total ++ " actions: " ++
      count t.ok ++ " ok, " ++ count t.warn ++ " warn, " ++ failedCount t ++
      (match milliseconds with
        | some ms => " in " ++ elapsed ms
        | none => ""))

end Render

end Patchboard
