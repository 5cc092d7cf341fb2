import Patchboard.Pattern.CaseFold
import Patchboard.Problem
import Patchboard.Theme

set_option autoImplicit false

namespace Patchboard

inductive TokenKind where
  | file
  | search
  | insertBefore
  | insertAfter
  | replace
deriving DecidableEq, Inhabited

namespace TokenKind

def name : TokenKind → String
  | .file => "file"
  | .search => "search"
  | .insertBefore => "insert-before"
  | .insertAfter => "insert-after"
  | .replace => "replace"

def tags : List (String × TokenKind) :=
  [("edit file", .file), ("file", .file), ("search for", .search), ("search", .search),
   ("add after", .insertAfter), ("add before", .insertBefore), ("add above", .insertBefore),
   ("add", .insertBefore), ("replace", .replace), ("above", .insertBefore),
   ("before", .insertBefore), ("after", .insertAfter)]

def ofTag? (tag : List Char) : Option TokenKind :=
  (tags.find? fun t => t.1.toList = tag).map (·.2)

def position : TokenKind → Position
  | .insertBefore => .before
  | .insertAfter => .after
  | _ => .replace

end TokenKind

structure Token where
  kind : TokenKind
  text : List Char
  path : Option Path
  theme : Nat
deriving DecidableEq

namespace Token

def foldsTo (c p : Char) : Bool :=
  Pattern.CaseFold.fold c.toNat = Pattern.CaseFold.fold p.toNat

/-- A tag at the start of a text, in any letter case, and what follows it. -/
def tagAt? : List Char → List Char → Option (List Char × List Char)
  | [], s => some ([], s)
  | _ :: _, [] => none
  | p :: ps, c :: s =>
    if foldsTo c p then (tagAt? ps s).map fun halves => (c :: halves.1, halves.2) else none

/-- An opening tag with its line feed at the start of a text: the tag as written, and the body. -/
def openingAt? (s : List Char) : Option (List Char × List Char) :=
  match s with
  | '<' :: s =>
    TokenKind.tags.findSome? fun tag => do
      let (written, rest) ← tagAt? tag.1.toList s
      return (written, ← Text.after? ['>', '\n'] rest)
  | _ => none

def opening? : List Char → Option (List Char × List Char)
  | [] => none
  | c :: s =>
    match openingAt? (c :: s) with
    | some hit => some hit
    | none => opening? s

def closing (tag : List Char) : List Char := "\n</".toList ++ tag ++ ['>']

/-- The body up to the closing tag, in any ASCII letter case, and what follows the tag. -/
def body? (tag s : List Char) : Option (List Char × List Char) :=
  (Text.cut? (closing tag) (Text.lowerAscii s)).map fun halves =>
    (s.take halves.1.length, s.drop (halves.1.length + (closing tag).length))

/-- What an opening tag leads to. -/
inductive Scanned where
  | token (t : Token)
  /-- A tag that is no alias once its ASCII letters are lowered. -/
  | other (tag body : List Char)
  | unterminated (tag : List Char)

def Scanned.token? : Scanned → Option Token
  | .token t => some t
  | _ => none

def Scanned.problem? : Scanned → Option Problem
  | .unterminated tag =>
    some (.malformedPatch ("unterminated <" ++ String.ofList tag ++ "> tag"))
  | _ => none

def ofTag (tag body : List Char) : Scanned :=
  match TokenKind.ofTag? tag with
  | some kind => .token ⟨kind, body, none, Theme.noCustom⟩
  | none => .other tag body

/-- After an opening tag that is never closed the scan goes on directly behind it. -/
def scanFrom : Nat → List Char → List Scanned
  | 0, _ => []
  | fuel + 1, s =>
    match opening? s with
    | none => []
    | some (written, rest) =>
      let tag := Text.lowerAscii written
      match body? tag rest with
      | none => .unterminated tag :: scanFrom fuel rest
      | some (body, rest) => ofTag tag body :: scanFrom fuel rest

def scan (raw : List Char) : List Scanned :=
  let s := raw.filter (· ≠ '\r')
  scanFrom (s.length + 1) s

def tokens (raw : List Char) : List Token := (scan raw).filterMap Scanned.token?

def problems (raw : List Char) : List Problem := (scan raw).filterMap Scanned.problem?

end Token

end Patchboard
