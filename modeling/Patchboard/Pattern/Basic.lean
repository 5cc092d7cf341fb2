import Patchboard.Pattern.CharSet

set_option autoImplicit false

/-!
Patterns and what they match. A pattern takes a point of the text to the points at which it can
end, the preferred one first. No pattern looks back at what a group held, so of two ways to the
same place only the preferred one is kept; this bounds the work by the length of the text.
-/

namespace Patchboard.Pattern

/-- Conditions on the place between two characters. -/
inductive Look where
  | textStart
  | textEnd
  | lineStart
  | lineEnd
  | anyLineStart
  | anyLineEnd
  | boundary (word : CharSet)
  | noBoundary (word : CharSet)
  | wordStart (word : CharSet)
  | wordEnd (word : CharSet)
  | wordStartHalf (word : CharSet)
  | wordEndHalf (word : CharSet)

inductive Node where
  | empty
  | one (set : CharSet)
  | look (condition : Look)
  | group (index : Nat) (body : Node)
  | seq (first second : Node)
  | alt (first second : Node)
  /-- One or more times. -/
  | plus (body : Node) (greedy : Bool)
  | copies (body : Node) (count : Nat)
  | upTo (body : Node) (count : Nat) (greedy : Bool)
deriving Inhabited

def Node.optional (body : Node) (greedy : Bool) : Node :=
  if greedy then .alt body .empty else .alt .empty body

def Node.star (body : Node) (greedy : Bool) : Node := (Node.plus body greedy).optional greedy

/-- The extent of a group: where it starts and where it ends. -/
structure Extent where
  group : Nat
  start : Nat
  stop : Nat

/-- A place in the text with the groups closed on the way to it. -/
structure Point where
  pos : Nat
  before : Option Char
  rest : List Char
  groups : List Extent

namespace Point

def next (p : Point) (c : Char) (rest : List Char) : Point := ⟨p.pos + 1, some c, rest, p.groups⟩

def close (p : Point) (group start : Nat) : Point :=
  { p with groups := ⟨group, start, p.pos⟩ :: p.groups }

def length (p : Point) : Nat := p.pos + p.rest.length

end Point

def Look.holds (l : Look) (p : Point) : Bool :=
  let after := p.rest.head?
  let isWord (set : CharSet) (c : Option Char) : Bool := c.any set.mem
  match l with
  | .textStart => p.pos = 0
  | .textEnd => p.rest.isEmpty
  | .lineStart => p.pos = 0 || p.before = some '\n'
  | .lineEnd => p.rest.isEmpty || after = some '\n'
  | .anyLineStart =>
    p.pos = 0 || p.before = some '\n' || (p.before = some '\r' && after ≠ some '\n')
  | .anyLineEnd =>
    p.rest.isEmpty || after = some '\r' || (after = some '\n' && p.before ≠ some '\r')
  | .boundary w => isWord w p.before != isWord w after
  | .noBoundary w => isWord w p.before == isWord w after
  | .wordStart w => !isWord w p.before && isWord w after
  | .wordEnd w => isWord w p.before && !isWord w after
  | .wordStartHalf w => !isWord w p.before
  | .wordEndHalf w => !isWord w after

abbrev Places := Nat

def Places.insert (s : Places) (pos : Nat) : Places := s ||| (1 <<< pos)

/-- Keeps the first point of each place that is not among `seen`. -/
def firstOfEach : Places → List Point → List Point
  | _, [] => []
  | seen, p :: ps =>
    if seen.testBit p.pos then firstOfEach seen ps else p :: firstOfEach (seen.insert p.pos) ps

def distinct (ps : List Point) : List Point :=
  match ps with
  | [] => []
  | [p] => [p]
  | ps => firstOfEach 0 ps

def andThen (f : Point → List Point) (ps : List Point) : List Point :=
  match ps with
  | [p] => f p
  | ps => distinct (ps.flatMap f)

/-- The walk through a repetition: the places from which the body was tried, the places at which
it ended, and the points found, the latest first. -/
structure Walk where
  starts : Places
  ends : Places
  found : List Point

def Walk.add (w : Walk) (p : Point) : Walk := { w with found := p :: w.found }

/-- Tries the body once more from each place it reaches, but never twice from one place. -/
def repeatFrom (f : Point → List Point) (greedy : Bool) : Nat → Walk → Point → Walk
  | 0, w, _ => w
  | fuel + 1, w, p =>
    if w.starts.testBit p.pos then w
    else
      (f p).foldl
        (fun w q =>
          if w.ends.testBit q.pos then w
          else
            let w := { w with ends := w.ends.insert q.pos }
            if greedy then (repeatFrom f greedy fuel w q).add q
            else repeatFrom f greedy fuel (w.add q) q)
        { w with starts := w.starts.insert p.pos }

def oneOrMore (f : Point → List Point) (greedy : Bool) (p : Point) : List Point :=
  (repeatFrom f greedy (p.rest.length + 2) ⟨0, 0, []⟩ p).found.reverse

def exactly (f : Point → List Point) : Nat → List Point → List Point
  | 0, ps => ps
  | n + 1, ps => if ps.isEmpty then [] else exactly f n (andThen f ps)

/-- At most `n` times; a place reached with a given number of repetitions left is gone through
once. -/
def atMostFrom (f : Point → List Point) (greedy : Bool) (width : Nat) :
    Nat → Walk → Point → Walk
  | 0, w, p => if w.ends.testBit p.pos then w else { w.add p with ends := w.ends.insert p.pos }
  | n + 1, w, p =>
    let key := n * width + p.pos
    if w.starts.testBit key then w
    else
      let w := { w with starts := w.starts.insert key }
      let stop (w : Walk) : Walk :=
        if w.ends.testBit p.pos then w else { w.add p with ends := w.ends.insert p.pos }
      if greedy then stop ((f p).foldl (atMostFrom f greedy width n) w)
      else (f p).foldl (atMostFrom f greedy width n) (stop w)

def atMost (f : Point → List Point) (greedy : Bool) (n : Nat) (p : Point) : List Point :=
  (atMostFrom f greedy (p.length + 1) n ⟨0, 0, []⟩ p).found.reverse

/-- The points at which the pattern can end when it starts at the given point, the preferred one
first. -/
def Node.ends : Node → Point → List Point
  | .empty, p => [p]
  | .one set, p =>
    match p.rest with
    | [] => []
    | c :: rest => if set.mem c then [p.next c rest] else []
  | .look l, p => if l.holds p then [p] else []
  | .group index body, p => (body.ends p).map fun q => q.close index p.pos
  | .seq a b, p => andThen b.ends (a.ends p)
  | .alt a b, p => distinct (a.ends p ++ b.ends p)
  | .plus body greedy, p => oneOrMore body.ends greedy p
  | .copies body n, p => exactly body.ends n [p]
  | .upTo body n greedy, p => atMost body.ends greedy n p

/-- A match: the text before it, the matched text, the text after it, and the texts of the
groups. -/
structure Found where
  before : List Char
  matched : List Char
  after : List Char
  groups : List (Nat × List Char)

def groupText (s : List Char) (e : Extent) : Nat × List Char :=
  (e.group, (s.drop e.start).take (e.stop - e.start))

/-- The first start, from the left, at which the pattern matches, with its preferred end. -/
def Node.searchFrom (n : Node) : Nat → Option Char → List Char → Option (Nat × Point)
  | pos, before, [] => (n.ends ⟨pos, before, [], []⟩).head?.map fun q => (pos, q)
  | pos, before, c :: rest =>
    match n.ends ⟨pos, before, c :: rest, []⟩ with
    | q :: _ => some (pos, q)
    | [] => searchFrom n (pos + 1) (some c) rest

def Node.find? (n : Node) (s : List Char) : Option Found :=
  (n.searchFrom 0 none s).map fun hit =>
    { before := s.take hit.1
      matched := (s.drop hit.1).take (hit.2.pos - hit.1)
      after := hit.2.rest
      groups := hit.2.groups.map (groupText s) }

def Node.isMatch (n : Node) (s : List Char) : Bool := (n.searchFrom 0 none s).isSome

def Found.group (f : Found) (index : Nat) : List Char :=
  ((f.groups.find? fun g => g.1 = index).map (·.2)).getD []

end Patchboard.Pattern
