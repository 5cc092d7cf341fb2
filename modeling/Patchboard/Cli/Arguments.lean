import Patchboard.Cli.Shell
import Patchboard.Manifest

set_option autoImplicit false

namespace Patchboard.Cli

structure PackageArguments where
  package : Path
  mode : Mode
  previous : Option String
  json : Bool

inductive Command where
  | plan (arguments : PackageArguments)
  | test (arguments : PackageArguments)
  | apply (arguments : PackageArguments) (expected : Option String)
  | history (package : Option String)
  | completions (shell : Option Shell)

structure Invocation where
  config : Option Path
  stateRoot : Option Path
  command : Command

inductive Arguments where
  | run (invocation : Invocation)
  | help
  /-- Arguments that make no sense. -/
  | misuse

/-- One argument as read: an option with or without a value, or a plain word. -/
inductive Given where
  | value (option value : String)
  | switch (option : String)
  | word (text : String)
deriving DecidableEq

/-- The options that may stand at a place. -/
structure Options where
  valued : List String
  switches : List String

def globalOptions : Options := ⟨["config", "state-root"], ["verbose"]⟩

def Options.extend (o : Options) (valued switches : List String) : Options :=
  ⟨o.valued ++ valued, o.switches ++ switches⟩

def packageOptions : Options := globalOptions.extend ["package", "mode", "previous"] ["json"]

def applyOptions : Options := packageOptions.extend ["expect-fingerprint"] []

/-- A word that begins with a hyphen is an option, but for the hyphen alone. -/
def looksLikeOption (s : String) : Bool := s.toList.head? = some '-' && s ≠ "-"

def isHelp (s : String) : Bool := s = "--help" || s = "-h"

def given? (o : Options) (argument : List Char) (rest : List String) :
    Option (Given × List String) :=
  match argument with
  | '-' :: '-' :: name =>
    match Text.splitOnce? '=' name with
    | some (name, value) =>
      if o.valued.contains (String.ofList name) then
        some (.value (String.ofList name) (String.ofList value), rest)
      else none
    | none =>
      let name := String.ofList name
      if o.switches.contains name then some (.switch name, rest)
      else if o.valued.contains name then
        match rest with
        | value :: rest => if looksLikeOption value then none else some (.value name value, rest)
        | [] => none
      else none
  | '-' :: letters =>
    if letters.isEmpty then some (.word "-", rest)
    else if letters.all (· = 'v') then some (.switch "verbose", rest)
    else none
  | word => some (.word (String.ofList word), rest)

def givens? (o : Options) : Nat → List String → Option (List Given)
  | 0, _ => none
  | _ + 1, [] => some []
  | fuel + 1, argument :: rest =>
    if argument = "--" then some (rest.map Given.word)
    else do
      let (g, rest) ← given? o argument.toList rest
      return g :: (← givens? o fuel rest)

def leading? : Nat → List String → Option (List Given × String × List String)
  | 0, _ => none
  | _ + 1, [] => none
  | fuel + 1, argument :: rest => do
    if argument = "--" then none
    else
      match ← given? globalOptions argument.toList rest with
      | (.word command, rest) => return ([], command, rest)
      | (g, rest) =>
        let (gs, command, rest) ← leading? fuel rest
        return (g :: gs, command, rest)

def names (gs : List Given) : List String :=
  gs.filterMap fun g =>
    match g with
    | .value option _ => some option
    | .switch option => if option = "verbose" then none else some option
    | .word _ => none

def hasRepetition : List String → Bool
  | [] => false
  | s :: rest => rest.contains s || hasRepetition rest

def words (gs : List Given) : List String :=
  gs.filterMap fun g =>
    match g with
    | .word text => some text
    | _ => none

def value? (gs : List Given) (option : String) : Option String :=
  gs.findSome? fun g =>
    match g with
    | .value name value => if name = option then some value else none
    | _ => none

def isPathOption (option : String) : Bool :=
  option = "config" || option = "state-root" || option = "package"

def emptyPath (g : Given) : Bool :=
  match g with
  | .value option value => isPathOption option && value.isEmpty
  | _ => false

def wellFormed (gs : List Given) : Bool := !hasRepetition (names gs) && !gs.any emptyPath

def mode? (gs : List Given) : Option Mode :=
  match value? gs "mode" with
  | none => some .install
  | some s => Mode.all.find? fun m => m.name = s

def packageArguments? (gs : List Given) : Option PackageArguments := do
  if (words gs).isEmpty then
    return {
      package := ⟨← value? gs "package"⟩
      mode := ← mode? gs
      previous := value? gs "previous"
      json := gs.contains (.switch "json") }
  else none

def oneWord? (gs : List Given) : Option (Option String) :=
  match words gs with
  | [] => some none
  | [s] => some (some s)
  | _ => none

def shell? (s : Option String) : Option (Option Shell) :=
  match s with
  | none => some none
  | some s => (Shell.parse? s).map some

def optionsOf? (command : String) : Option Options :=
  match command with
  | "plan" => some packageOptions
  | "test" => some packageOptions
  | "apply" => some applyOptions
  | "history" => some globalOptions
  | "completions" => some globalOptions
  | _ => none

def command? (command : String) (gs : List Given) : Option Command := do
  match command with
  | "plan" => return .plan (← packageArguments? gs)
  | "test" => return .test (← packageArguments? gs)
  | "apply" => return .apply (← packageArguments? gs) (value? gs "expect-fingerprint")
  | "history" => return .history (← oneWord? gs)
  | "completions" => return .completions (← shell? (← oneWord? gs))
  | _ => none

def invocation? (args : List String) : Option Invocation := do
  let (before, name, rest) ← leading? (args.length + 1) args
  let after ← givens? (← optionsOf? name) (rest.length + 1) rest
  let option (o : String) : Option String := (value? after o).or (value? before o)
  if wellFormed before && wellFormed after then
    return {
      config := (option "config").map Path.mk
      stateRoot := (option "state-root").map Path.mk
      command := ← command? name after }
  else none

def parse (args : List String) : Arguments :=
  if args.any isHelp || args.head? = some "help" then .help
  else
    match invocation? args with
    | some invocation => .run invocation
    | none => .misuse

def usage : String :=
  "Usage: modsmith [--config FILE] [--state-root DIRECTORY] [-v] COMMAND\n\n" ++
  "Commands:\n" ++
  "  plan         Print the actions a package would run\n" ++
  "  test         Dry-run a package against the board and print the plan fingerprint\n" ++
  "  apply        Run a package against the board\n" ++
  "  history      Print the recorded packages\n" ++
  "  completions  Print completions for a shell\n"

end Patchboard.Cli
