import Patchboard.Json.Basic
import Patchboard.Path

set_option autoImplicit false

namespace Patchboard

inductive ActionKind where
  | createFile
  | createDir
  | requireFile
  | requireDir
  | removeFile
  | removeDir
  | moveFile
  | moveDir
  | modification
  | code
  | database
  | hook
  | credits
  | requires
  | readme
  | license
  | redirect
  | error
  | chmod
deriving DecidableEq, Inhabited

namespace ActionKind

def name : ActionKind → String
  | .createFile => "create-file"
  | .createDir => "create-dir"
  | .requireFile => "require-file"
  | .requireDir => "require-dir"
  | .removeFile => "remove-file"
  | .removeDir => "remove-dir"
  | .moveFile => "move-file"
  | .moveDir => "move-dir"
  | .modification => "modification"
  | .code => "code"
  | .database => "database"
  | .hook => "hook"
  | .credits => "credits"
  | .requires => "requires"
  | .readme => "readme"
  | .license => "license"
  | .redirect => "redirect"
  | .error => "error"
  | .chmod => "chmod"

def named : List ActionKind :=
  [.createFile, .createDir, .requireFile, .requireDir, .removeFile, .removeDir, .moveFile,
   .moveDir, .modification, .code, .database, .hook, .credits, .requires, .readme, .license,
   .redirect, .error]

def parse? (s : String) : Option ActionKind :=
  let word := Text.lowered (Text.trimmed s)
  named.find? fun k => k.name = word

def isFileTree : ActionKind → Bool
  | .createFile | .createDir | .requireFile | .requireDir | .removeFile | .removeDir
  | .moveFile | .moveDir => true
  | _ => false

def isRemoval : ActionKind → Bool
  | .removeFile | .removeDir => true
  | _ => false

def isRequire : ActionKind → Bool
  | .requireFile | .requireDir => true
  | _ => false

def isDirectory : ActionKind → Bool
  | .createDir | .requireDir | .removeDir | .moveDir => true
  | _ => false

def takesSource : ActionKind → Bool
  | .requireFile | .requireDir | .moveFile | .moveDir => true
  | _ => false

def addsContent : ActionKind → Bool
  | .createFile | .createDir | .requireFile | .requireDir | .moveFile | .moveDir => true
  | _ => false

def isDocument : ActionKind → Bool
  | .readme | .license => true
  | _ => false

def isDeferred : ActionKind → Bool
  | .code | .database | .hook | .credits | .redirect => true
  | _ => false

end ActionKind

/-- Whether a change to the default theme is carried over to the custom themes. -/
inductive ThemeChoice where
  | yes
  | no
  | auto
deriving DecidableEq, Inhabited

namespace ThemeChoice

def name : ThemeChoice → String
  | .yes => "yes"
  | .no => "no"
  | .auto => "auto"

def parse (s : String) : ThemeChoice :=
  match Text.lowered (Text.trimmed s) with
  | "yes" => .yes
  | "no" => .no
  | _ => .auto

end ThemeChoice

inductive ActionDetail where
  | none
  | document (language : Option String) (parseBbc : Bool)
  | redirect (url : String) (timeout : Option Nat)
  | hook (name function includeFile : String) (object : Bool)
  | credits (title url license licenseUrl copyright : String)
  | requires (id : String) (version : Option String)
  | tree (choice : ThemeChoice)
  | unknown (tag : String)
deriving DecidableEq, Inhabited

def ActionDetail.fields : ActionDetail → List (String × Json)
  | .none => [("detail", .text "none")]
  | .document language parseBbc =>
    [("detail", .text "document"), ("language", Json.ofOption .text language),
     ("parse_bbc", .bool parseBbc)]
  | .redirect url timeout =>
    [("detail", .text "redirect"), ("url", .text url),
     ("timeout", Json.ofOption Json.natural timeout)]
  | .hook name function includeFile object =>
    [("detail", .text "hook"), ("hook", .text name), ("function", .text function),
     ("include_file", .text includeFile), ("object", .bool object)]
  | .credits title url license licenseUrl copyright =>
    [("detail", .text "credits"), ("title", .text title), ("url", .text url),
     ("license", .text license), ("license_url", .text licenseUrl),
     ("copyright", .text copyright)]
  | .requires id version =>
    [("detail", .text "requires"), ("id", .text id), ("version", Json.ofOption .text version)]
  | .tree choice => [("detail", .text "tree"), ("theme_action", .text choice.name)]
  | .unknown tag => [("detail", .text "unknown"), ("tag", .text tag)]

structure Action where
  kind : ActionKind
  filename : String
  destination : Option Path
  source : Option Path
  description : String
  reverse : Bool
  isBoardmod : Bool
  detail : ActionDetail
deriving DecidableEq, Inhabited

namespace Action

def make (kind : ActionKind) (filename : String) : Action :=
  ⟨kind, filename, none, none, "", false, false, .none⟩

def chmod (p : Path) : Action := { make .chmod p.text with destination := some p }

def unknown (tag : String) : Action := { make .error tag with detail := .unknown tag }

def language? (a : Action) : Option String :=
  match a.detail with
  | .document language _ => language
  | _ => none

def themeChoice (a : Action) : ThemeChoice :=
  match a.detail with
  | .tree choice => choice
  | _ => .auto

def pathJson (p : Path) : Json := .text p.text

def json (a : Action) : Json :=
  .object <|
    [("kind", .text a.kind.name), ("filename", .text a.filename)] ++
    Json.field? "destination" (a.destination.map pathJson) ++
    Json.field? "source" (a.source.map pathJson) ++
    [("description", .text a.description), ("reverse", .bool a.reverse),
     ("is_boardmod", .bool a.isBoardmod)] ++
    a.detail.fields

end Action

end Patchboard
