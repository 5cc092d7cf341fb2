import Patchboard.Path

set_option autoImplicit false

namespace Patchboard

inductive Shell where
  | bash
  | zsh
  | fish
  | powershell
deriving DecidableEq, Inhabited

namespace Shell

def name : Shell → String
  | .bash => "bash"
  | .zsh => "zsh"
  | .fish => "fish"
  | .powershell => "powershell"

def all : List Shell := [.bash, .zsh, .fish, .powershell]

def parse? (s : String) : Option Shell := all.find? fun shell => shell.name = s

/-- The shell that a program name stands for, in any ASCII letter case. -/
def ofProgram? (program : String) : Option Shell :=
  match Text.lowered program with
  | "pwsh" => some .powershell
  | name => parse? name

/-- The shell that the path of a program names; what has no file name is taken as it is. -/
def ofVariable? (value : String) : Option Shell :=
  ofProgram? (((Path.fileName? ⟨value⟩).map String.ofList).getD value)

def ofPlatform (windows : Bool) : Shell := if windows then .powershell else .bash

def resolve (requested : Option Shell) (userShell : Option String) (windows : Bool) : Shell :=
  (requested.or (userShell.bind ofVariable?)).getD (ofPlatform windows)

def commands : String := "plan test apply history completions"

def completions : Shell → String
  | .bash => "complete -W \"" ++ commands ++ "\" modsmith"
  | .zsh => "compctl -k \"(" ++ commands ++ ")\" modsmith"
  | .fish => "complete -c modsmith -f -a \"" ++ commands ++ "\""
  | .powershell =>
    "Register-ArgumentCompleter -Native -CommandName modsmith -ScriptBlock \x7b -split '" ++
      commands ++ "' \x7d"

end Shell

end Patchboard
