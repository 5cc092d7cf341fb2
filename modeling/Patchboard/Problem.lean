import Patchboard.Json.Basic
import Patchboard.Path

set_option autoImplicit false

namespace Patchboard

inductive Position where
  | before
  | after
  | replace
  | atEnd
deriving DecidableEq, Inhabited

def Position.name : Position → String
  | .before => "before"
  | .after => "after"
  | .replace => "replace"
  | .atEnd => "end"

def Position.parse (s : String) : Position :=
  match Text.lowered (Text.trimmed s) with
  | "before" => .before
  | "after" => .after
  | "end" => .atEnd
  | _ => .replace

inductive Problem where
  | notFound (search : String)
  | alreadyPresent (search : String)
  | targetMissing (path : Path)
  | permissionDenied (path : Path)
  | malformedPatch (reason : String)
  | unknownActionType (name : String)
deriving DecidableEq, Inhabited

namespace Problem

def message : Problem → String
  | .notFound search => "search text not found: " ++ search
  | .alreadyPresent search => "search text is already present: " ++ search
  | .targetMissing path => "target is missing: " ++ path.text
  | .permissionDenied path => "permission denied: " ++ path.text
  | .malformedPatch reason => "malformed patch: " ++ reason
  | .unknownActionType name => "unknown action type '" ++ name ++ "'"

def kind : Problem → String
  | .notFound _ => "not-found"
  | .alreadyPresent _ => "already-present"
  | .targetMissing _ => "target-missing"
  | .permissionDenied _ => "permission-denied"
  | .malformedPatch _ => "malformed-patch"
  | .unknownActionType _ => "unknown-action-type"

def detail : Problem → Json
  | .notFound search => .object [("search", .text search)]
  | .alreadyPresent search => .object [("search", .text search)]
  | .targetMissing path => .text path.text
  | .permissionDenied path => .text path.text
  | .malformedPatch reason => .text reason
  | .unknownActionType name => .text name

def json (p : Problem) : Json := .object [("kind", .text p.kind), ("detail", p.detail)]

end Problem

end Patchboard
