import Mathlib.Data.List.Forall2
import Patchboard.Pattern.Basic

set_option autoImplicit false

/-!
Groups do not decide where a pattern matches. A pattern without its groups reaches the same places in
the same order, so it finds the same match, and the text of a group around a whole pattern is the
text that is matched. Every match is a piece of the text between what stands before it and after it.
-/

namespace Patchboard.Pattern

section Related
variable {S : Point → Point → Prop}

theorem related_firstOfEach (hS : ∀ {p q}, S p q → q.pos = p.pos) (seen : Places)
    {ps qs : List Point} (h : List.Forall₂ S ps qs) :
    List.Forall₂ S (firstOfEach seen ps) (firstOfEach seen qs) := by
  induction h generalizing seen with
  | nil => exact .nil
  | cons hpq _ ih =>
    rw [firstOfEach, firstOfEach, hS hpq]
    split
    · exact ih seen
    · exact .cons hpq (ih _)

theorem related_distinct (hS : ∀ {p q}, S p q → q.pos = p.pos) {ps qs : List Point}
    (h : List.Forall₂ S ps qs) : List.Forall₂ S (distinct ps) (distinct qs) := by
  cases h with
  | nil => exact .nil
  | cons hpq hrest =>
    cases hrest with
    | nil => exact .cons hpq .nil
    | cons hpq' hrest => exact related_firstOfEach hS 0 (.cons hpq (.cons hpq' hrest))

variable {f g : Point → List Point}

theorem related_andThen (hS : ∀ {p q}, S p q → q.pos = p.pos)
    (hf : ∀ {p q}, S p q → List.Forall₂ S (f p) (g q)) {ps qs : List Point}
    (h : List.Forall₂ S ps qs) : List.Forall₂ S (andThen f ps) (andThen g qs) := by
  cases h with
  | nil => exact .nil
  | cons hpq hrest =>
    cases hrest with
    | nil => exact hf hpq
    | cons hpq' hrest =>
      exact related_distinct hS
        (List.rel_flatMap (.cons hpq (.cons hpq' hrest)) fun _ _ h => hf h)

theorem related_exactly (hS : ∀ {p q}, S p q → q.pos = p.pos)
    (hf : ∀ {p q}, S p q → List.Forall₂ S (f p) (g q)) (n : Nat) {ps qs : List Point}
    (h : List.Forall₂ S ps qs) : List.Forall₂ S (exactly f n ps) (exactly g n qs) := by
  induction n generalizing ps qs with
  | zero => exact h
  | succ n ih =>
    have he : qs.isEmpty = ps.isEmpty := by cases h <;> rfl
    rw [exactly, exactly, he]
    split
    · exact .nil
    · exact ih (related_andThen hS hf h)

structure Walk.Related (S : Point → Point → Prop) (w w' : Walk) : Prop where
  starts : w'.starts = w.starts
  ends : w'.ends = w.ends
  found : List.Forall₂ S w.found w'.found

theorem Walk.Related.add {w w' : Walk} (h : w.Related S w') {p q : Point} (hpq : S p q) :
    (w.add p).Related S (w'.add q) :=
  ⟨h.starts, h.ends, .cons hpq h.found⟩

theorem Walk.Related.start {w w' : Walk} (h : w.Related S w') (key : Nat) :
    Walk.Related S { w with starts := w.starts.insert key }
      { w' with starts := w.starts.insert key } :=
  ⟨rfl, h.ends, h.found⟩

theorem Walk.Related.finish {w w' : Walk} (h : w.Related S w') (pos : Nat) :
    Walk.Related S { w with ends := w.ends.insert pos } { w' with ends := w.ends.insert pos } :=
  ⟨h.starts, rfl, h.found⟩

theorem Walk.Related.foldl {step step' : Walk → Point → Walk}
    (hstep : ∀ w w' p q, w.Related S w' → S p q → (step w p).Related S (step' w' q))
    {w w' : Walk} (hw : w.Related S w') {ps qs : List Point} (h : List.Forall₂ S ps qs) :
    (ps.foldl step w).Related S (qs.foldl step' w') := by
  induction h generalizing w w' with
  | nil => exact hw
  | cons hpq _ ih => exact ih (hstep _ _ _ _ hw hpq)

theorem related_repeatFrom (hS : ∀ {p q}, S p q → q.pos = p.pos)
    (hf : ∀ {p q}, S p q → List.Forall₂ S (f p) (g q)) (greedy : Bool) (fuel : Nat) {w w' : Walk}
    (hw : w.Related S w') {p q : Point} (hpq : S p q) :
    (repeatFrom f greedy fuel w p).Related S (repeatFrom g greedy fuel w' q) := by
  induction fuel generalizing w w' p q with
  | zero => exact hw
  | succ fuel ih =>
    rw [repeatFrom, repeatFrom, hw.starts, hS hpq]
    split
    · exact hw
    · refine (hw.start _).foldl (fun v v' a b hv hab => ?_) (hf hpq)
      dsimp only
      rw [hv.ends, hS hab]
      split
      · exact hv
      · split
        · exact (ih (hv.finish _) hab).add hab
        · exact ih ((hv.finish _).add hab) hab

theorem related_oneOrMore (hS : ∀ {p q}, S p q → q.pos = p.pos ∧ q.rest = p.rest)
    (hf : ∀ {p q}, S p q → List.Forall₂ S (f p) (g q)) (greedy : Bool) {p q : Point}
    (hpq : S p q) : List.Forall₂ S (oneOrMore f greedy p) (oneOrMore g greedy q) := by
  unfold oneOrMore
  rw [(hS hpq).2]
  exact List.rel_reverse (related_repeatFrom (fun h => (hS h).1) hf greedy _
    ⟨rfl, rfl, .nil⟩ hpq).found

theorem Walk.Related.stop (hS : ∀ {p q}, S p q → q.pos = p.pos) {w w' : Walk}
    (h : w.Related S w') {p q : Point} (hpq : S p q) :
    Walk.Related S
      (if w.ends.testBit p.pos then w else { w.add p with ends := w.ends.insert p.pos })
      (if w'.ends.testBit q.pos then w' else { w'.add q with ends := w'.ends.insert q.pos }) := by
  rw [h.ends, hS hpq]
  split
  · exact h
  · exact (h.add hpq).finish _

theorem related_atMostFrom (hS : ∀ {p q}, S p q → q.pos = p.pos)
    (hf : ∀ {p q}, S p q → List.Forall₂ S (f p) (g q)) (greedy : Bool) (width n : Nat)
    {w w' : Walk} (hw : w.Related S w') {p q : Point} (hpq : S p q) :
    (atMostFrom f greedy width n w p).Related S (atMostFrom g greedy width n w' q) := by
  induction n generalizing w w' p q with
  | zero => exact hw.stop hS hpq
  | succ n ih =>
    have hkey : n * width + q.pos = n * width + p.pos := by rw [hS hpq]
    have hstart := hw.start (n * width + p.pos)
    rw [atMostFrom, atMostFrom, hw.starts]
    dsimp only
    rw [hkey]
    split
    · exact hw
    · split
      · exact (hstart.foldl (fun _ _ _ _ hv hab => ih hv hab) (hf hpq)).stop hS hpq
      · exact (hstart.stop hS hpq).foldl (fun _ _ _ _ hv hab => ih hv hab) (hf hpq)

theorem related_atMost (hS : ∀ {p q}, S p q → q.pos = p.pos ∧ q.rest = p.rest)
    (hf : ∀ {p q}, S p q → List.Forall₂ S (f p) (g q)) (greedy : Bool) (n : Nat) {p q : Point}
    (hpq : S p q) : List.Forall₂ S (atMost f greedy n p) (atMost g greedy n q) := by
  have hl : q.length = p.length := by
    unfold Point.length
    rw [(hS hpq).1, (hS hpq).2]
  unfold atMost
  rw [hl]
  exact List.rel_reverse (related_atMostFrom (fun h => (hS h).1) hf greedy _ n
    ⟨rfl, rfl, .nil⟩ hpq).found

end Related

/-- A pattern without its groups. -/
def Node.bare : Node → Node
  | .empty => .empty
  | .one set => .one set
  | .look condition => .look condition
  | .group _ body => body.bare
  | .seq a b => .seq a.bare b.bare
  | .alt a b => .alt a.bare b.bare
  | .plus body greedy => .plus body.bare greedy
  | .copies body n => .copies body.bare n
  | .upTo body n greedy => .upTo body.bare n greedy

/-- A place without the groups that were closed on the way to it. -/
def Point.bare (p : Point) : Point := { p with groups := [] }

/-- A place that is reached from another one: some piece of the text lies between them. -/
def Point.Reaches (o p : Point) : Prop :=
  ∃ t, o.rest = t ++ p.rest ∧ p.pos = o.pos + t.length

theorem Point.Reaches.refl (p : Point) : p.Reaches p := ⟨[], rfl, rfl⟩

theorem Point.Reaches.next {o p : Point} (h : o.Reaches p) {c : Char} {rest : List Char}
    (hp : p.rest = c :: rest) : o.Reaches (p.next c rest) := by
  obtain ⟨t, ht, hpos⟩ := h
  refine ⟨t ++ [c], by simp [ht, hp, Point.next], ?_⟩
  simp only [Point.next, hpos, List.length_append, List.length_singleton]
  omega

/-- The same place reached without groups, from a point at or before it. -/
structure Point.Follows (o p q : Point) : Prop where
  bare : q = p.bare
  reached : o.Reaches p

theorem Point.Follows.place {o p q : Point} (h : o.Follows p q) :
    q.pos = p.pos ∧ q.rest = p.rest := by
  rw [h.bare]
  exact ⟨rfl, rfl⟩

theorem Point.Follows.close {o p q : Point} (h : o.Follows p q) (index start : Nat) :
    o.Follows (p.close index start) q := ⟨h.bare, h.reached⟩

theorem holds_bare (l : Look) (p : Point) : l.holds p.bare = l.holds p := by
  cases l <;> rfl

theorem follows_ends (n : Node) {o p q : Point} (h : o.Follows p q) :
    List.Forall₂ o.Follows (n.ends p) (n.bare.ends q) := by
  have hplace {p q : Point} (h : o.Follows p q) := h.place
  have hpos {p q : Point} (h : o.Follows p q) := h.place.1
  induction n generalizing p q with
  | empty => exact .cons h .nil
  | one set =>
    rw [Node.bare, Node.ends, Node.ends, (hplace h).2]
    cases hp : p.rest with
    | nil => exact .nil
    | cons c rest =>
      dsimp only
      split
      · exact .cons ⟨by rw [h.bare]; rfl, h.reached.next hp⟩ .nil
      · exact .nil
  | look l =>
    rw [Node.bare, Node.ends, Node.ends, h.bare, holds_bare]
    split
    · exact .cons ⟨rfl, h.reached⟩ .nil
    · exact .nil
  | group index body ih =>
    rw [Node.bare, Node.ends, List.forall₂_map_left_iff]
    exact (ih h).imp fun _ _ hpq => hpq.close index p.pos
  | seq a b iha ihb =>
    rw [Node.bare, Node.ends, Node.ends]
    exact related_andThen hpos (fun h => ihb h) (iha h)
  | alt a b iha ihb =>
    rw [Node.bare, Node.ends, Node.ends]
    exact related_distinct hpos (List.rel_append (iha h) (ihb h))
  | plus body greedy ih =>
    rw [Node.bare, Node.ends, Node.ends]
    exact related_oneOrMore hplace (fun h => ih h) greedy h
  | copies body n ih =>
    rw [Node.bare, Node.ends, Node.ends]
    exact related_exactly hpos (fun h => ih h) n (.cons h .nil)
  | upTo body n greedy ih =>
    rw [Node.bare, Node.ends, Node.ends]
    exact related_atMost hplace (fun h => ih h) greedy n h

theorem ends_bare (n : Node) (p : Point) : n.bare.ends p.bare = (n.ends p).map Point.bare := by
  have h := follows_ends n (p := p) ⟨rfl, .refl p⟩
  rw [← List.forall₂_eq_eq_eq, List.forall₂_map_right_iff]
  exact (h.imp fun _ _ hpq => hpq.bare).flip

theorem reaches_of_mem_ends {n : Node} {p q : Point} (h : q ∈ n.ends p) : p.Reaches q := by
  have hall := follows_ends n (p := p) ⟨rfl, .refl p⟩
  rw [ends_bare, List.forall₂_map_right_iff, List.forall₂_same] at hall
  exact (hall q h).reached

theorem searchFrom_bare (n : Node) (pos : Nat) (before : Option Char) (s : List Char) :
    n.bare.searchFrom pos before s =
      (n.searchFrom pos before s).map fun hit => (hit.1, hit.2.bare) := by
  have hends (s : List Char) (pos : Nat) (before : Option Char) :
      n.bare.ends ⟨pos, before, s, []⟩ = (n.ends ⟨pos, before, s, []⟩).map Point.bare :=
    ends_bare n ⟨pos, before, s, []⟩
  induction s generalizing pos before with
  | nil =>
    rw [Node.searchFrom, Node.searchFrom, hends, List.head?_map]
    cases (n.ends ⟨pos, before, [], []⟩).head? <;> rfl
  | cons c s ih =>
    rw [Node.searchFrom, Node.searchFrom, hends]
    cases n.ends ⟨pos, before, c :: s, []⟩ with
    | nil => exact ih _ _
    | cons q qs => rfl

/-- A match without its groups. -/
def Found.bare (f : Found) : Found := { f with groups := [] }

theorem find?_bare (n : Node) (s : List Char) : n.bare.find? s = (n.find? s).map Found.bare := by
  unfold Node.find?
  rw [searchFrom_bare, Option.map_map, Option.map_map]
  rfl

theorem searchFrom_eq_some {n : Node} {pos : Nat} {before : Option Char} {s : List Char}
    {hit : Nat × Point} (h : n.searchFrom pos before s = some hit) :
    ∃ prev u v, s = u ++ v ∧ hit.1 = pos + u.length ∧
      hit.2 ∈ n.ends ⟨hit.1, prev, v, []⟩ := by
  induction s generalizing pos before with
  | nil =>
    obtain ⟨q, hq, rfl⟩ := Option.map_eq_some_iff.1 h
    exact ⟨before, [], [], rfl, rfl, List.mem_of_mem_head? hq⟩
  | cons c s ih =>
    rw [Node.searchFrom] at h
    split at h
    · rename_i q qs hq
      cases h
      exact ⟨before, [], c :: s, rfl, rfl, by rw [hq]; exact List.mem_cons_self ..⟩
    · obtain ⟨prev, u, v, rfl, hpos, hmem⟩ := ih h
      refine ⟨prev, c :: u, v, rfl, ?_, hmem⟩
      rw [hpos, List.length_cons]
      omega

theorem eq_of_find? {n : Node} {s : List Char} {f : Found} (h : n.find? s = some f) :
    s = f.before ++ f.matched ++ f.after := by
  obtain ⟨hit, hhit, rfl⟩ := Option.map_eq_some_iff.1 h
  obtain ⟨prev, u, v, rfl, hpos, hmem⟩ := searchFrom_eq_some hhit
  obtain ⟨t, ht, hstop⟩ := reaches_of_mem_ends hmem
  dsimp only at ht hstop ⊢
  rw [Nat.zero_add] at hpos
  rw [hstop, hpos, List.take_left, List.drop_left, Nat.add_sub_cancel_left, ht, List.take_left,
    List.append_assoc]

theorem group_of_find? {n : Node} {index : Nat} {s : List Char} {f : Found}
    (h : (Node.group index n).find? s = some f) : f.group index = f.matched := by
  obtain ⟨hit, hhit, rfl⟩ := Option.map_eq_some_iff.1 h
  obtain ⟨prev, u, v, -, -, hmem⟩ := searchFrom_eq_some hhit
  rw [Node.ends] at hmem
  obtain ⟨q, -, hq⟩ := List.mem_map.1 hmem
  rw [← hq]
  simp [Found.group, Point.close, groupText]

end Patchboard.Pattern
