import Patchboard.Document
import Patchboard.PathVariables
import Patchboard.Theme

set_option autoImplicit false

namespace Patchboard

structure Config where
  productVersion : String
  boardDirectory : Path
  language : String
  makeBackups : Bool
  sourceSetting : Path
  themesSetting : Path
  settingsFile : String
  themeSettings : List Theme

namespace Config

def text? : Toml → Option String
  | .string s => some s
  | _ => none

def bool? : Toml → Option Bool
  | .boolean b => some b
  | _ => none

def themeId? : Toml → Option Nat
  | .integer n => if 0 ≤ n && n < UInt32.size then some n.toNat else none
  | _ => none

def setting? {α : Type} (read : Toml → Option α) (absent : α) (key : String)
    (fields : List (String × Toml)) : Option α :=
  match Toml.lookup key fields with
  | none => some absent
  | some t => read t

def required? {α : Type} (read : Toml → Option α) (key : String)
    (fields : List (String × Toml)) : Option α :=
  (Toml.lookup key fields).bind read

def theme? (t : Toml) : Option Theme := do
  match t with
  | .table fields =>
    return ⟨← required? themeId? "id" fields, ← required? text? "name" fields,
      ⟨← required? text? "dir" fields⟩⟩
  | .array (id :: name :: dir :: _) => return ⟨← themeId? id, ← text? name, ⟨← text? dir⟩⟩
  | _ => none

def themes? : Toml → Option (List Theme)
  | .array items => items.mapM theme?
  | _ => none

def ofFields? (fields : List (String × Toml)) : Option Config := do
  return {
    productVersion := ← required? text? "product_version" fields
    boardDirectory := ⟨← required? text? "board_dir" fields⟩
    language := ← setting? text? "english" "language" fields
    makeBackups := ← setting? bool? false "make_backups" fields
    sourceSetting := ⟨← setting? text? "Sources" "source_dir" fields⟩
    themesSetting := ⟨← setting? text? "Themes" "themes_dir" fields⟩
    settingsFile := ← setting? text? "Settings.php" "settings_file" fields
    themeSettings := ← setting? themes? [] "themes" fields }

def duplicate? : List Nat → List Nat → Option Nat
  | _, [] => none
  | seen, id :: rest => if seen.contains id then some id else duplicate? (id :: seen) rest

def check (c : Config) : Except Failure Config :=
  let ids := c.themeSettings.map (·.id)
  if Text.allBlank c.productVersion then .error (Failure.ofCause .emptyProductVersion)
  else
    match duplicate? [] ids with
    | some id => .error (Failure.ofCause (.duplicateTheme id))
    | none =>
      if !ids.isEmpty && !ids.contains Theme.defaultId then
        .error (Failure.ofCause .noDefaultTheme)
      else .ok c

def parse (text : String) : Except Failure Config :=
  match (Toml.parse? text).bind ofFields? with
  | none => .error ((Failure.ofCause .toml).within "failed to parse installer config")
  | some c => c.check

def resolveDirectory (c : Config) (dir : Path) : Path :=
  if dir.isAbsolute then dir else c.boardDirectory.join dir

def sourceDirectory (c : Config) : Path := c.resolveDirectory c.sourceSetting

def themesDirectory (c : Config) : Path := c.resolveDirectory c.themesSetting

/-- The themes in the order of their ids; a board that lists none has the default one. -/
def themes (c : Config) : List Theme :=
  match c.themeSettings with
  | [] => [⟨Theme.defaultId, "Default", c.themesDirectory.join ⟨"default"⟩⟩]
  | settings =>
    (settings.map fun t => { t with directory := c.resolveDirectory t.directory }).mergeSort
      fun a b => a.id ≤ b.id

def defaultThemeDirectory (c : Config) : Path :=
  ((Theme.default? c.themes).map (·.directory)).getD (c.themesDirectory.join ⟨"default"⟩)

def settingsPath (c : Config) : Path := c.boardDirectory.join ⟨c.settingsFile⟩

def pathVariables (c : Config) (staging : Path) : PathVariables :=
  let theme := c.defaultThemeDirectory
  PathVariables.empty
    |>.set PathVariables.board c.boardDirectory
    |>.set PathVariables.source c.sourceDirectory
    |>.set PathVariables.themes c.themesDirectory
    |>.set PathVariables.images (theme.join ⟨"images"⟩)
    |>.set PathVariables.language (theme.join ⟨"languages"⟩)
    |>.set PathVariables.theme theme
    |>.set PathVariables.package staging

def fileName : String := "modsmith.toml"

def load (p : Path) : Job Config := do
  let raw ← Job.on "failed to read installer config: " p (Tree.readText p)
  Job.doing ("invalid installer config: " ++ p.text) (Job.ofExcept (parse raw))

end Config

end Patchboard
