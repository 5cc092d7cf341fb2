import Patchboard.Document
import Patchboard.Pattern.Parser
import Patchboard.Problem

set_option autoImplicit false

/-!
Searches of a modification: what is looked for, what is added, and where. A search becomes a
pattern and a replacement, and changes the first place of a text that matches. In a replacement
a dollar sign refers to a group, so dollar signs and backslashes of the added text are hidden behind
two private characters until the file is final.
-/

namespace Patchboard

/-- What happens to a file when a search is found or not. -/
inductive ErrorPolicy where
  | fatal
  | required
  | ignore
deriving DecidableEq, Inhabited

def ErrorPolicy.name : ErrorPolicy → String
  | .fatal => "fatal"
  | .required => "required"
  | .ignore => "ignore"

def ErrorPolicy.parse (s : String) : ErrorPolicy :=
  match Text.lowered (Text.trimmed s) with
  | "required" => .required
  | "ignore" => .ignore
  | _ => .fatal

structure Search where
  position : Position
  isPattern : Bool
  loose : Bool
  search : String
  add : String
deriving DecidableEq, Inhabited

namespace Search

/-- A plain search; an addition at the end of the file searches for nothing. -/
def literal (position : Position) (search add : String) : Search :=
  { position
    isPattern := false
    loose := false
    search := if position = .atEnd then "" else search
    add }

def isLooseMark (s : String) : Bool := Text.lowered (Text.trimmed s) = "loose"

def ofNode (node : Document) (add : String) : Search :=
  let position := ((node.fetch? "@position").map Position.parse).getD .replace
  { literal position (node.fetch ".") add with
    isPattern := node.flag "@regexp"
    loose := (node.fetch? "@whitespace").any isLooseMark }

/-- The search that takes away what this one adds. -/
def reversed (s : Search) : Except Problem Search :=
  if s.isPattern then
    .error (.malformedPatch ("regular expression search cannot be undone: " ++ s.search))
  else
    let (position, search, add) : Position × String × String :=
      match s.position with
      | .replace => (.replace, s.add, s.search)
      | .before => (.replace, s.add ++ s.search, s.search)
      | .after => (.replace, s.search ++ s.add, s.search)
      | .atEnd => (.atEnd, s.add, "")
    .ok { position, isPattern := false, loose := s.loose, search, add }

/-- Only an addition at the end of the file, or its undoing, may do without one of the texts. -/
def isNoop (s : Search) : Bool :=
  if s.position = .atEnd then s.add.isEmpty && s.search.isEmpty
  else s.add.isEmpty || s.search.isEmpty

/-- A backslash goes before every character that means something in a pattern. -/
def escape (s : List Char) : List Char :=
  s.flatMap fun c => if Pattern.metaChars.contains c then ['\\', c] else [c]

def isGap (c : Char) : Bool := c = ' ' || c = '\t'

def gapPattern : List Char := "[ \\t]+".toList

def loosenFrom (inGap : Bool) : List Char → List Char
  | [] => []
  | c :: s =>
    if isGap c then (if inGap then [] else gapPattern) ++ loosenFrom true s
    else c :: loosenFrom false s

/-- Every run of blanks and tabs matches any such run. -/
def loosen (s : List Char) : List Char := loosenFrom false s

def hiddenDollar : Char := '\uE000'

def hiddenBackslash : Char := '\uE001'

def hide (c : Char) : Char :=
  if c = '$' then hiddenDollar else if c = '\\' then hiddenBackslash else c

def reveal (c : Char) : Char :=
  if c = hiddenDollar then '$' else if c = hiddenBackslash then '\\' else c

def hidden (s : List Char) : List Char := s.map hide

def revealed (s : List Char) : List Char := s.map reveal

def body (s : Search) : List Char :=
  if s.isPattern then s.search.toList
  else if s.loose then loosen (escape s.search.toList)
  else escape s.search.toList

/-- The end of a file, before a closing tag and a final line end when they are there. -/
def endPattern : List Char := "(\\n\\?>)?(\\n)?\\z".toList

def wholePattern (s : Search) : List Char :=
  "(?s)".toList ++
    match s.position with
    | .atEnd => escape s.search.toList ++ endPattern
    | .replace => s.body
    | .before => '(' :: s.body ++ [')']
    | .after => '(' :: s.body ++ [')']

/-- A piece of a replacement: a text, or what a group of the pattern matched. -/
inductive Piece where
  | text (chars : List Char)
  | group (index : Nat)
deriving DecidableEq

def Piece.render : Piece → List Char
  | .text chars => chars
  | .group index => '$' :: '\x7b' :: Nat.toDigits 10 index ++ ['\x7d']

/-- What stands behind a dollar sign when it refers to a group: a name in braces, or else the
longest run of letters, digits and underscores; and what follows. -/
def reference? : List Char → Option (List Char × List Char)
  | '\x7b' :: s =>
    let name := s.takeWhile (· ≠ '\x7d')
    (Text.after? ['\x7d'] (s.drop name.length)).map fun rest => (name, rest)
  | s =>
    let name := s.takeWhile fun c => c.isAlphanum || c = '_'
    if name.isEmpty then none else some (name, s.drop name.length)

theorem length_of_reference? {s name rest : List Char} (h : reference? s = some (name, rest)) :
    rest.length ≤ s.length := by
  unfold reference? at h
  split at h
  · rename_i s
    obtain ⟨tail, ht, he⟩ := Option.map_eq_some_iff.1 h
    have hs := congrArg List.length (Text.eq_append_of_after? ht)
    simp only [Prod.mk.injEq] at he
    simp only [List.length_append, List.length_drop, List.length_cons] at hs ⊢
    rw [← he.2]
    omega
  · dsimp only at h
    split at h
    · simp at h
    · cases h
      simp

/-- The text of a group that is referred to by its number; replacements use no other names. -/
def groupNamed (f : Pattern.Found) (name : List Char) : List Char :=
  if !name.isEmpty && name.all Char.isDigit then f.group (Text.numeral name) else []

/-- A replacement with its references replaced by what the groups matched. Two dollar signs are
one, and a dollar sign that refers to nothing stands for itself. -/
def expand (f : Pattern.Found) : List Char → List Char
  | [] => []
  | c :: s =>
    if c ≠ '$' then c :: expand f s
    else if s.head? = some '$' then '$' :: expand f s.tail
    else
      match h : reference? s with
      | some (name, rest) =>
        have := length_of_reference? h
        groupNamed f name ++ expand f rest
      | none => '$' :: expand f s
termination_by s => s.length
decreasing_by all_goals simp; try omega

def replacement (s : Search) : List Piece :=
  let add := hidden s.add.toList
  match s.position with
  | .atEnd =>
    if s.search.isEmpty then [.text add, .group 1, .group 2] else [.group 1, .group 2]
  | .replace => [.text add]
  | .before => [.text add, .group 1]
  | .after => [.group 1, .text add]

/-- A search made ready: its pattern, as text and as read, and its replacement. -/
structure Compiled where
  pattern : List Char
  node : Pattern.Node
  pieces : List Piece

def compile (s : Search) : Except Problem Compiled :=
  match Pattern.Node.parse? s.wholePattern with
  | some node => .ok ⟨s.wholePattern, node, s.replacement⟩
  | none =>
    .error (.malformedPatch
      ("invalid search pattern '" ++ s.search ++ "': regex parse error"))

namespace Compiled

def isFound (c : Compiled) (s : List Char) : Bool := c.node.isMatch s

/-- Changes the first match and nothing else. -/
def applyOnce (c : Compiled) (s : List Char) : List Char :=
  match c.node.find? s with
  | none => s
  | some f => f.before ++ expand f (c.pieces.flatMap Piece.render) ++ f.after

end Compiled

end Search

end Patchboard
