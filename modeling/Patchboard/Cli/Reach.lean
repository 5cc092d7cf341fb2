import Patchboard.Cli.Session

set_option autoImplicit false

namespace Patchboard.Cli

def Command.package? : Command → Option PackageArguments
  | .plan a => some a
  | .test a => some a
  | .apply a _ => some a
  | .history _ => none
  | .completions _ => none

def resultOn? {α : Type} (t : Tree) (job : Job α) : Option α := (job.run.run t).1.toOption

def directoriesOf (c : Config) : List Path :=
  [c.boardDirectory, c.sourceDirectory, c.themesDirectory, c.settingsPath] ++
    c.themes.map (·.directory)

def pathsOf (a : Action) : List Path := a.source.toList ++ a.destination.toList

def plannedPaths (s : Surroundings) (i : Invocation) (a : PackageArguments) : Job (List Path) := do
  let session ← openSession s i
  let p ← plan session a
  return p.actions.flatMap pathsOf

def reachOfPackage (s : Surroundings) (i : Invocation) (a : PackageArguments) (t : Tree) :
    List Path :=
  let config := i.config.getD ⟨Config.fileName⟩
  config :: a.package :: ((resultOn? t (Config.load config)).map directoriesOf).getD [] ++
    (resultOn? t (plannedPaths s i a)).getD []

def reach (s : Surroundings) (i : Invocation) (t : Tree) : List Path :=
  (resultOn? t (stateRoot s i.stateRoot)).toList ++
    match i.command.package? with
    | some a => reachOfPackage s i a t
    | none => []

end Patchboard.Cli
