import Patchboard.Pattern.Basic

set_option autoImplicit false

namespace Patchboard.Pattern

structure Flags where
  caseless : Bool := false
  multiline : Bool := false
  dotAll : Bool := false
  lazyFirst : Bool := false
  unicode : Bool := true
  crlf : Bool := false
  spaced : Bool := false

/-- What is left to read, the flags in force, and the groups opened so far. -/
structure Reader where
  rest : List Char
  flags : Flags
  groups : Nat
  names : List (List Char)

namespace Reader

def skipComment : List Char → List Char
  | [] => []
  | '\n' :: s => s
  | _ :: s => skipComment s

theorem length_skipComment (s : List Char) : (skipComment s).length ≤ s.length := by
  fun_induction skipComment s with
  | case1 => simp
  | case2 s => simp
  | case3 c s h ih => exact Nat.le_succ_of_le ih

def skipSpaced : List Char → List Char
  | [] => []
  | c :: s =>
    if c = '#' then skipSpaced (skipComment s)
    else if Text.isBlank c then skipSpaced s
    else c :: s
termination_by s => s.length
decreasing_by
  · exact Nat.lt_succ_of_le (length_skipComment s)
  · simp

/-- In spaced mode blanks and comments mean nothing. -/
def skipped (r : Reader) (s : List Char) : List Char :=
  if r.flags.spaced then skipSpaced s else s

def skip (r : Reader) : Reader := { r with rest := r.skipped r.rest }

def at' (r : Reader) (rest : List Char) : Reader := { r with rest }

end Reader

/-- A character, a condition or a set, as an escape names it. -/
inductive Primitive where
  | char (c : Char)
  | look (l : Look)
  | set (s : CharSet)

def Flags.word (f : Flags) : CharSet := if f.unicode then .word else .asciiWord

def Flags.fold (f : Flags) (s : CharSet) : CharSet :=
  if !f.caseless then s else if f.unicode then .caseless s else .caselessAscii s

/-- Without Unicode mode a set may not reach beyond ASCII, since it could then match a piece of a
character. -/
def Flags.negate? (f : Flags) (s : CharSet) : Option CharSet :=
  if f.unicode then some (.complement s) else none

def metaChars : List Char := "\\.+*?()|[]\x7b\x7d^$#&-~".toList

def isEscapable (c : Char) : Bool :=
  metaChars.contains c ||
    (c.toNat < 0x80 && !c.isAlphanum && c ≠ '<' && c ≠ '>')

def scalar? (n : Nat) : Option Char :=
  if h : n.isValidChar then some (Char.ofNatAux n h) else none

/-- The character of a hexadecimal escape of the given width, or of any width in braces. -/
def hexEscape? (width : Nat) (s : List Char) : Option (Char × List Char) :=
  match s with
  | '\x7b' :: s => do
    let digits := s.takeWhile (· ≠ '\x7d')
    let rest ← Text.after? ['\x7d'] (s.dropWhile (· ≠ '\x7d'))
    if digits.isEmpty then none
    else
      let n ← Text.hexNumeral? digits
      return (← scalar? n, rest)
  | s => do
    if s.length < width then none
    else
      let n ← Text.hexNumeral? (s.take width)
      return (← scalar? n, s.drop width)

/-- A property by a single letter or by a name in braces; `=`, `:` and `!=` stand between a
property and its value. -/
def propertySet? (s : List Char) : Option (CharSet × List Char) :=
  match s with
  | '\x7b' :: s => do
    let name := s.takeWhile (· ≠ '\x7d')
    let rest ← Text.after? ['\x7d'] (s.dropWhile (· ≠ '\x7d'))
    match Text.cut? ['!', '='] name with
    | some (p, v) => return (.complement (← CharSet.propertyValue? p v), rest)
    | none =>
      match (Text.splitOnce? ':' name).or (Text.splitOnce? '=' name) with
      | some (p, v) => return (← CharSet.propertyValue? p v, rest)
      | none => return (← CharSet.property? name, rest)
  | '\\' :: _ => none
  | c :: rest => (CharSet.property? [c]).map fun set => (set, rest)
  | [] => none

def Flags.property? (f : Flags) (s : List Char) : Option (CharSet × List Char) :=
  if f.unicode then (propertySet? s).map fun hit => (f.fold hit.1, hit.2) else none

def wordLook? (word : CharSet) (name : String) : Option Look :=
  match name with
  | "start" => some (.wordStart word)
  | "end" => some (.wordEnd word)
  | "start-half" => some (.wordStartHalf word)
  | "end-half" => some (.wordEndHalf word)
  | _ => none

/-- What follows `\b`: a kind of boundary in braces, unless the braces open a repetition. -/
def boundary? (word : CharSet) (s : List Char) : Option (Look × List Char) :=
  match s with
  | '\x7b' :: c :: _ =>
    if c.isAlpha || c = '-' then do
      let body := s.drop 1
      let name := body.takeWhile fun c => c.isAlpha || c = '-'
      let rest ← Text.after? ['\x7d'] (body.drop name.length)
      return (← wordLook? word (String.ofList name), rest)
    else some (.boundary word, s)
  | s => some (.boundary word, s)

def escape? (f : Flags) : List Char → Option (Primitive × List Char)
  | [] => none
  | c :: s =>
    let set (unicode ascii : CharSet) : Option (Primitive × List Char) :=
      some (.set (if f.unicode then unicode else ascii), s)
    let noSet (unicode : CharSet) : Option (Primitive × List Char) :=
      (f.negate? unicode).map fun n => (.set n, s)
    match c with
    | 'd' => set .digit .asciiDigit
    | 's' => set .space .asciiSpace
    | 'w' => set .word .asciiWord
    | 'D' => noSet .digit
    | 'S' => noSet .space
    | 'W' => noSet .word
    | 'p' => (f.property? s).map fun hit => (.set hit.1, hit.2)
    | 'P' => (f.property? s).map fun hit => (.set (.complement hit.1), hit.2)
    | 'x' => do
      let (c, rest) ← hexEscape? 2 s
      if !f.unicode && 0x80 ≤ c.toNat && s.head? ≠ some '\x7b' then none
      else return (.char c, rest)
    | 'u' => (hexEscape? 4 s).map fun hit => (.char hit.1, hit.2)
    | 'U' => (hexEscape? 8 s).map fun hit => (.char hit.1, hit.2)
    | 'a' => some (.char '\x07', s)
    | 'f' => some (.char '\x0c', s)
    | 't' => some (.char '\t', s)
    | 'n' => some (.char '\n', s)
    | 'r' => some (.char '\r', s)
    | 'v' => some (.char '\x0b', s)
    | 'A' => some (.look .textStart, s)
    | 'z' => some (.look .textEnd, s)
    | 'b' => (boundary? f.word s).map fun hit => (.look hit.1, hit.2)
    | 'B' => some (.look (.noBoundary f.word), s)
    | '<' => some (.look (.wordStart f.word), s)
    | '>' => some (.look (.wordEnd f.word), s)
    | c => if isEscapable c then some (.char c, s) else none

/-- Brackets hold no conditions, and without Unicode mode no characters beyond ASCII. -/
def Flags.allowsInside (f : Flags) : Primitive → Bool
  | .char c => f.unicode || c.toNat < 0x80
  | .set _ => true
  | .look _ => false

def primitive? (f : Flags) : List Char → Option (Primitive × List Char)
  | [] => none
  | '\\' :: s => escape? f s
  | c :: s => some (.char c, s)

def bracketItem? (r : Reader) : Option (Primitive × Reader) := do
  let (item, rest) ← primitive? r.flags r.rest
  if r.flags.allowsInside item then return (item, r.at' rest) else none

def Primitive.charSet : Primitive → CharSet
  | .char c => .single c
  | .set s => s
  | .look _ => .empty

/-- An item or a range. A hyphen before the closing bracket or another hyphen stands for itself. -/
def bracketRange? (r : Reader) : Option (CharSet × Reader) := do
  let (first, r) ← bracketItem? r
  let r := r.skip
  match r.rest with
  | [] => none
  | '-' :: s =>
    match r.skipped s with
    | ']' :: _ => return (first.charSet, r)
    | '-' :: _ => return (first.charSet, r)
    | s => do
      let (last, r) ← bracketItem? (r.at' s)
      match first, last with
      | .char lo, .char hi => if lo ≤ hi then return (.range lo hi, r) else none
      | _, _ => none
  | _ => return (first.charSet, r)

/-- A named class `[:name:]` or `[:^name:]` whose opening bracket is the first character, and
whether it is negated. -/
def namedClass? (r : Reader) : Option (CharSet × Bool × Reader) :=
  match r.rest with
  | '[' :: ':' :: s =>
    let negated := s.head? = some '^'
    let body := if negated then s.drop 1 else s
    let name := body.takeWhile (· ≠ ':')
    match body.drop name.length with
    | ':' :: ']' :: rest => do
      return (← CharSet.asciiClass? (String.ofList name), negated, r.at' rest)
    | _ => none
  | _ => none

/-- The operators between the sets of a bracket expression, all of the same rank. -/
inductive SetOperator where
  | both
  | difference
  | oneOf

def SetOperator.apply (op : SetOperator) (a b : CharSet) : CharSet :=
  match op with
  | .both => .inter a b
  | .difference => .minus a b
  | .oneOf => .either a b

def setOperator? : List Char → Option (SetOperator × List Char)
  | '&' :: '&' :: s => some (.both, s)
  | '-' :: '-' :: s => some (.difference, s)
  | '~' :: '~' :: s => some (.oneOf, s)
  | _ => none

/-- Hyphens, and a closing bracket, stand for themselves at the start of a bracket expression. -/
def leadingHyphens (r : Reader) : Nat → CharSet × Reader
  | 0 => (.empty, r)
  | fuel + 1 =>
    match r.rest with
    | '-' :: s =>
      let (set, r) := leadingHyphens (r.at' (r.skipped s)) fuel
      (.union (.single '-') set, r)
    | _ => (.empty, r)

/-- What comes before the items of a bracket expression whose bracket has been read: whether it is
negated, and the characters that stand for themselves only there. -/
def openBracket? (r : Reader) : Option (Bool × CharSet × Reader) := do
  let r := r.skip
  let negated := r.rest.head? = some '^'
  let r := if negated then (r.at' (r.rest.drop 1)).skip else r
  let hyphens := leadingHyphens r r.rest.length
  let r := hyphens.2
  match r.rest with
  | [] => none
  | ']' :: s =>
    if hyphens.1 matches .empty then
      return (negated, .single ']', (r.at' s).skip)
    else return (negated, hyphens.1, r)
  | _ => return (negated, hyphens.1, r)

def Flags.pending (f : Flags) (left : Option (SetOperator × CharSet)) (items : CharSet) :
    CharSet :=
  match left with
  | none => items
  | some (op, a) => op.apply (f.fold a) (f.fold items)

mutual

def bracket? : Nat → Reader → Option (CharSet × Reader)
  | 0, _ => none
  | fuel + 1, r => do
    let (negated, start, r) ← openBracket? r
    let (set, r) ← bracketItems? fuel none start r
    let set := r.flags.fold set
    if negated then return (← r.flags.negate? set, r) else return (set, r)

/-- The items up to the closing bracket; `left` is what stands before the last operator. -/
def bracketItems? :
    Nat → Option (SetOperator × CharSet) → CharSet → Reader → Option (CharSet × Reader)
  | 0, _, _, _ => none
  | fuel + 1, left, items, r =>
    let r := r.skip
    match r.rest with
    | [] => none
    | ']' :: s => some (r.flags.pending left items, r.at' s)
    | '[' :: s =>
      match namedClass? r with
      | some (set, negated, r) => do
        let set ← if negated then r.flags.negate? (r.flags.fold set) else some set
        bracketItems? fuel left (.union items set) r
      | none => do
        let (set, r) ← bracket? fuel (r.at' s)
        bracketItems? fuel left (.union items set) r
    | _ =>
      match setOperator? r.rest with
      | some (op, s) =>
        bracketItems? fuel (some (op, r.flags.pending left items)) .empty (r.at' s)
      | none => do
        let (set, r) ← bracketRange? r
        bracketItems? fuel left (.union items set) r

end

def count? (s : List Char) : Option (Nat × List Char) :=
  let s := Text.trimStart s
  let digits := s.takeWhile Char.isDigit
  let n := Text.numeral digits
  if digits.isEmpty || UInt32.size ≤ n then none
  else some (n, Text.trimStart (s.drop digits.length))

/-- How often something is repeated. -/
structure Times where
  least : Nat
  most : Option Nat

def times? (r : Reader) (s : List Char) : Option (Times × List Char) := do
  let (least, s) ← count? (r.skipped s)
  match s with
  | '\x7d' :: rest => return (⟨least, some least⟩, rest)
  | ',' :: s =>
    match r.skipped s with
    | '\x7d' :: rest => return (⟨least, none⟩, rest)
    | s => do
      let (most, s) ← count? s
      let rest ← Text.after? ['\x7d'] s
      if least ≤ most then return (⟨least, some most⟩, rest) else none
  | _ => none

def Times.apply (t : Times) (greedy : Bool) (body : Node) : Node :=
  match t.least, t.most with
  | 0, none => body.star greedy
  | 1, none => .plus body greedy
  | n + 1, none => .seq (.copies body n) (.plus body greedy)
  | 0, some 1 => body.optional greedy
  | n, some m => if n = m then .copies body n else .seq (.copies body n) (.upTo body (m - n) greedy)

/-- The question mark after a repetition that reverses its preference. -/
def preference (f : Flags) (s : List Char) : Bool × List Char :=
  match s with
  | '?' :: rest => (f.lazyFirst, rest)
  | s => (!f.lazyFirst, s)

/-- One repetition operator applied to what stands before it; `none` for no operator. -/
def repetition? (r : Reader) (body : Node) : Option (Option (Node × Reader)) :=
  let simple (t : Times) (s : List Char) : Option (Option (Node × Reader)) :=
    let (greedy, rest) := preference r.flags s
    some (some (t.apply greedy body, r.at' rest))
  match r.rest with
  | '*' :: s => simple ⟨0, none⟩ s
  | '+' :: s => simple ⟨1, none⟩ s
  | '?' :: s => simple ⟨0, some 1⟩ s
  | '\x7b' :: s => do
    let (t, s) ← times? r s
    simple t (r.skipped s)
  | _ => some none

def repetitions? : Nat → Reader → Node → Option (Node × Reader)
  | 0, _, _ => none
  | fuel + 1, r, body => do
    let r := r.skip
    match ← repetition? r body with
    | none => return (body, r)
    | some (node, r) => repetitions? fuel r node

def isRepetition (s : List Char) : Bool :=
  match s with
  | '*' :: _ => true
  | '+' :: _ => true
  | '?' :: _ => true
  | '\x7b' :: _ => true
  | _ => false

def Flags.set? (f : Flags) (c : Char) (value : Bool) : Option Flags :=
  match c with
  | 'i' => some { f with caseless := value }
  | 'm' => some { f with multiline := value }
  | 's' => some { f with dotAll := value }
  | 'U' => some { f with lazyFirst := value }
  | 'u' => some { f with unicode := value }
  | 'R' => some { f with crlf := value }
  | 'x' => some { f with spaced := value }
  | _ => none

/-- Flag letters up to `)` or `:`, each at most once, with at most one hyphen that is not last. -/
def flags? (f : Flags) (value : Bool) (seen : List Char) : List Char → Option (Flags × List Char)
  | [] => none
  | ')' :: s => if seen.head? = some '-' then none else some (f, ')' :: s)
  | ':' :: s => if seen.head? = some '-' then none else some (f, ':' :: s)
  | c :: s =>
    if seen.contains c then none
    else if c = '-' then flags? f false (c :: seen) s
    else (f.set? c value).bind fun f => flags? f value (c :: seen) s

def isNameStart (c : Char) : Bool := c = '_' || CharSet.mem (.within alphabetic) c
where
  alphabetic : Unicode.Ranges :=
    ((Unicode.binaryProperties.find? fun p => p.names.contains "alphabetic").map (·.table)).getD []

def isNameChar (c : Char) : Bool :=
  isNameStart c || c = '.' || c = '[' || c = ']' ||
    ["nd", "nl", "no"].any fun name => ((CharSet.category? name).getD .empty).mem c

/-- The name of a group up to its closing angle; no two groups share one. -/
def groupName? (r : Reader) (s : List Char) : Option Reader :=
  let name := s.takeWhile (· ≠ '>')
  match name, s.drop name.length with
  | c :: cs, '>' :: rest =>
    if isNameStart c && cs.all isNameChar && !r.names.contains name then
      some { r with rest, names := name :: r.names }
    else none
  | _, _ => none

/-- What stands after an opening parenthesis: flags for the rest of the enclosing group, or the
opening of a group with or without an index. -/
inductive Opening where
  | flags (r : Reader)
  | group (index : Option Nat) (r : Reader)

def opening? (r : Reader) : Option Opening :=
  let indexed (r : Reader) : Opening :=
    .group (some (r.groups + 1)) { r with groups := r.groups + 1 }
  let r := r.skip
  match r.rest with
  | '?' :: 'P' :: '<' :: s => (groupName? r s).map indexed
  | '?' :: '<' :: s =>
    if s.head? = some '=' || s.head? = some '!' then none else (groupName? r s).map indexed
  | '?' :: ')' :: _ => none
  | '?' :: s => do
    match ← flags? r.flags true [] s with
    | (f, ')' :: rest) => return .flags { r with rest, flags := f }
    | (f, _ :: rest) => return .group none { r with rest, flags := f }
    | (_, []) => none
  | _ => some (indexed r)

def Flags.char (f : Flags) (c : Char) : Node := .one (f.fold (.single c))

def Flags.dot? (f : Flags) : Option CharSet :=
  if !f.unicode then none
  else if f.dotAll then some .any
  else if f.crlf then some (.complement (.union (.single '\n') (.single '\r')))
  else some (.complement (.single '\n'))

def Flags.startLook (f : Flags) : Look :=
  if !f.multiline then .textStart else if f.crlf then .anyLineStart else .lineStart

def Flags.endLook (f : Flags) : Look :=
  if !f.multiline then .textEnd else if f.crlf then .anyLineEnd else .lineEnd

def Primitive.node (f : Flags) : Primitive → Node
  | .char c => f.char c
  | .look l => .look l
  | .set s => .one s

def depthLimit : Nat := 250

def join (before : Option Node) (node : Node) : Node :=
  match before with
  | none => node
  | some b => .seq b node

mutual

def alternatives? : Nat → Nat → Reader → Option (Node × Reader)
  | 0, _, _ => none
  | fuel + 1, depth, r => do
    let (node, r) ← sequence? fuel depth none r
    match r.rest with
    | '|' :: s => do
      let (other, r) ← alternatives? fuel depth (r.at' s)
      return (.alt node other, r)
    | _ => return (node, r)

def sequence? : Nat → Nat → Option Node → Reader → Option (Node × Reader)
  | 0, _, _, _ => none
  | fuel + 1, depth, before, r =>
    let r := r.skip
    match r.rest with
    | [] => some (before.getD .empty, r)
    | '|' :: _ => some (before.getD .empty, r)
    | ')' :: _ => some (before.getD .empty, r)
    | '(' :: s => do
      match ← opening? (r.at' s) with
      | .flags r =>
        let r := r.skip
        if isRepetition r.rest then none else sequence? fuel depth before r
      | .group index inner => do
        let (node, inner) ← group? fuel depth index inner
        let (node, r) ← repetitions? fuel { inner with flags := r.flags } node
        sequence? fuel depth (some (join before node)) r
    | '[' :: s => do
      let (set, r) ← bracket? fuel (r.at' s)
      let (node, r) ← repetitions? fuel r (.one set)
      sequence? fuel depth (some (join before node)) r
    | '\\' :: s => do
      let (item, rest) ← escape? r.flags s
      let (node, r) ← repetitions? fuel (r.at' rest) (item.node r.flags)
      sequence? fuel depth (some (join before node)) r
    | c :: s =>
      if isRepetition (c :: s) then none
      else do
        let node ←
          if c = '.' then r.flags.dot?.map .one
          else if c = '^' then some (.look r.flags.startLook)
          else if c = '$' then some (.look r.flags.endLook)
          else some (r.flags.char c)
        let (node, r) ← repetitions? fuel (r.at' s) node
        sequence? fuel depth (some (join before node)) r

def group? : Nat → Nat → Option Nat → Reader → Option (Node × Reader)
  | 0, _, _, _ => none
  | fuel + 1, depth, index, r => do
    if depthLimit ≤ depth then none
    else
      let (node, r) ← alternatives? fuel (depth + 1) r
      match r.rest with
      | ')' :: s =>
        let node := match index with
          | some i => Node.group i node
          | none => node
        return (node, r.at' s)
      | _ => none

end

def Node.parse? (s : List Char) : Option Node := do
  let (node, r) ← alternatives? (4 * s.length + 8) 0 ⟨s, {}, 0, []⟩
  if r.rest.isEmpty then some node else none

end Patchboard.Pattern
