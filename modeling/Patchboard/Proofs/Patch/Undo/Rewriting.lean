import Patchboard.Proofs.Patch.Sequential
import Mathlib.Data.List.Basic

set_option autoImplicit false

namespace Patchboard

structure Search.IsReplacement (s : Search) : Prop where
  literal : s.IsLiteral
  position : s.position = .replace

instance (s : Search) : Decidable s.IsReplacement :=
  decidable_of_iff ((s.isPattern = false ∧ s.loose = false) ∧ s.position = .replace)
    ⟨fun h => ⟨⟨h.1.1, h.1.2⟩, h.2⟩,
      fun h => ⟨⟨h.literal.noPattern, h.literal.noLoose⟩, h.position⟩⟩

namespace Modification
open Search

/-- A text, what takes its place, and what it means when the text is found or not. -/
structure Replacement where
  policy : ErrorPolicy
  search : List Char
  add : List Char

def Replacement.turned (undo : Bool) (r : Replacement) : Replacement :=
  if undo then ⟨r.policy, r.add, r.search⟩ else r

/-- The text after a replacement, unless it counts as a failure. A dollar sign or backslash that is
added stays hidden. -/
def Replacement.result? (r : Replacement) (w : List Char) : Option (List Char) :=
  if r.add.isEmpty || r.search.isEmpty then some w
  else
    match r.policy, Text.cut? r.search w with
    | .fatal, none => none
    | .required, none => some w
    | .ignore, none => some w
    | .required, some _ => none
    | _, some (before, after) => some (before ++ hidden r.add ++ after)

def policyOf (operation : Document) : ErrorPolicy :=
  ((operation.fetch? "@error").map ErrorPolicy.parse).getD .fatal

def replacements (block : Document) : List Replacement :=
  (block.children "." "operation").flatMap fun operation =>
    (operation.children "." "search").map fun node =>
      ⟨policyOf operation, (node.fetch ".").toList, (operation.fetch "add").toList⟩

def rewrite? (rs : List Replacement) (text : List Char) : Option (List Char) :=
  rs.foldlM (fun w r => r.result? w) text

theorem rewrite?_cons (r : Replacement) (rs : List Replacement) (text : List Char) :
    rewrite? (r :: rs) text = (r.result? text).bind (rewrite? rs) :=
  List.foldlM_cons

def rewritten? (undo : Bool) (block : Document) (text : List Char) : Option (List Char) :=
  (rewrite? ((replacements block).map (Replacement.turned undo)) text).map revealed

def IsReplacementBlock (block : Document) : Prop :=
  ∀ operation ∈ block.children "." "operation", ∀ node ∈ operation.children "." "search",
    (Search.ofNode node (operation.fetch "add")).IsReplacement

instance (block : Document) : Decidable (IsReplacementBlock block) :=
  inferInstanceAs (Decidable (∀ operation ∈ block.children "." "operation",
    ∀ node ∈ operation.children "." "search",
      (Search.ofNode node (operation.fetch "add")).IsReplacement))

def asReplacement (x : ErrorPolicy × Step) : Replacement :=
  match x.2.effective with
  | .ok search => ⟨x.1, search.search.toList, search.add.toList⟩
  | .error _ => ⟨x.1, [], []⟩

theorem effective_replacement {node : Document} {add : String}
    (h : (Search.ofNode node add).IsReplacement) (undo : Bool) :
    ∃ search, (Step.ofNode undo add node).effective = .ok search ∧ search.IsReplacement := by
  cases undo with
  | false => exact ⟨_, rfl, h⟩
  | true =>
    unfold Step.ofNode reversed
    dsimp only
    rw [if_pos rfl, if_neg (by simp [h.literal.noPattern]), h.position]
    exact ⟨_, rfl, ⟨rfl, h.literal.noLoose⟩, rfl⟩

theorem asReplacement_ofNode {node : Document} {add : String}
    (h : (Search.ofNode node add).IsReplacement) (undo : Bool) (policy : ErrorPolicy) :
    asReplacement (policy, Step.ofNode undo add node) =
      Replacement.turned undo ⟨policy, (node.fetch ".").toList, add.toList⟩ := by
  have hsearch : (Search.ofNode node add).search = node.fetch "." := by
    have hp := h.position
    unfold Search.ofNode literal at hp ⊢
    dsimp only at hp ⊢
    rw [hp, if_neg (by simp)]
  unfold asReplacement Step.ofNode Replacement.turned
  cases undo with
  | false =>
    dsimp only
    rw [if_neg (by simp), if_neg (by simp)]
    dsimp only
    rw [hsearch]
    rfl
  | true =>
    unfold reversed
    dsimp only
    rw [if_pos rfl, if_pos rfl, if_neg (by simp [h.literal.noPattern]), h.position]
    dsimp only
    rw [hsearch]
    rfl

theorem ordered_of_isReplace {steps : List Step} (h : ∀ s ∈ steps, s.isReplace = true) :
    ordered steps = steps := by
  unfold ordered
  rw [List.filter_eq_self.2 h, List.filter_eq_nil_iff.2 fun s hs => by simp [h s hs],
    List.append_nil]

theorem isReplace_of_effective {s : Step} {search : Search} (he : s.effective = .ok search)
    (h : search.IsReplacement) : s.isReplace = true := by
  unfold Step.isReplace
  rw [he]
  exact decide_eq_true h.position

theorem agenda_operations {block : Document} (h : IsReplacementBlock block) (undo : Bool) :
    agenda (operations undo block) = (block.children "." "operation").flatMap fun operation =>
      (operation.children "." "search").map fun node =>
        (policyOf operation, Step.ofNode undo (operation.fetch "add") node) := by
  unfold agenda operations
  rw [List.flatMap_map]
  refine List.flatMap_congr fun operation ho => ?_
  unfold Operation.ofNode
  dsimp only
  rw [ordered_of_isReplace, List.map_map]
  · rfl
  · intro s hs
    obtain ⟨node, hn, rfl⟩ := List.mem_map.1 hs
    obtain ⟨search, he, hr⟩ := effective_replacement (h operation ho node hn) undo
    exact isReplace_of_effective he hr

theorem map_agenda {block : Document} (h : IsReplacementBlock block) (undo : Bool) :
    (agenda (operations undo block)).map asReplacement =
      (replacements block).map (Replacement.turned undo) := by
  unfold replacements
  rw [agenda_operations h, List.map_flatMap, List.map_flatMap]
  refine List.flatMap_congr fun operation ho => ?_
  rw [List.map_map, List.map_map]
  exact List.map_congr_left fun node hn => asReplacement_ofNode (h operation ho node hn) undo _

theorem effective_of_mem_agenda {block : Document} (h : IsReplacementBlock block) (undo : Bool) :
    ∀ x ∈ agenda (operations undo block), ∃ search, x.2.effective = .ok search ∧
      search.IsReplacement := by
  rw [agenda_operations h]
  intro x hx
  obtain ⟨operation, ho, hx⟩ := List.mem_flatMap.1 hx
  obtain ⟨node, hn, rfl⟩ := List.mem_map.1 hx
  exact effective_replacement (h operation ho node hn) undo

variable (path : Path) (theme : Nat)

/-- The work on a text agrees with what became of the text alone. -/
def Agrees (w w' : Work) : Option (List Char) → Prop
  | some text => w'.text = text ∧ w'.failed = w.failed
  | none => w'.failed = true

theorem Agrees.trans {w w' w'' : Work} {text : List Char} {result : Option (List Char)}
    (h : Agrees w w' (some text)) (h' : Agrees w' w'' result) : Agrees w w'' result := by
  cases result with
  | none => exact h'
  | some text' => exact ⟨h'.1, h'.2.trans h.2⟩

theorem Agrees.goesOn {w w' w'' : Work} {new : List Event} (h : Agrees w w' none)
    (hgo : w'.GoesOn new w'') : Agrees w w'' none := by
  have hfailed : w'.failed = true := h
  have hrest := hgo.failed
  rw [hfailed, Bool.true_or] at hrest
  exact hrest

theorem agrees_record (w : Work) (outcome : Outcome) (text : List Char) :
    Agrees w (w.record path theme outcome text)
      (if outcome.countsAsFailure then none else some text) := by
  unfold Work.record
  split
  · exact rfl
  · exact ⟨rfl, rfl⟩

theorem agrees_runStep {x : ErrorPolicy × Step} {search : Search}
    (he : x.2.effective = .ok search) (h : search.IsReplacement) (w : Work) :
    Agrees w (runStep path theme x.1 w x.2) ((asReplacement x).result? w.text) := by
  have hempty (t : String) : t.isEmpty = t.toList.isEmpty := by
    rw [Bool.eq_iff_iff, String.isEmpty_iff, List.isEmpty_iff, String.toList_eq_nil_iff]
  have hnoop : search.isNoop = (search.add.toList.isEmpty || search.search.toList.isEmpty) := by
    unfold isNoop
    rw [h.position, if_neg (by simp), hempty, hempty]
  have hplace : search.place? w.text = Text.cut? search.search.toList w.text := by
    unfold place?
    rw [h.position]
  have hx : asReplacement x = ⟨x.1, search.search.toList, search.add.toList⟩ := by
    unfold asReplacement
    rw [he]
  rw [runStep_literal path theme he h.literal, hx, hnoop]
  unfold Replacement.result?
  dsimp only
  split
  · exact ⟨rfl, rfl⟩
  · have hrecord := agrees_record path theme w
      (atPlace x.1 x.2 search (hidden search.add.toList) w.text).1
      (atPlace x.1 x.2 search (hidden search.add.toList) w.text).2
    unfold atPlace at hrecord ⊢
    rw [hplace, h.position] at hrecord ⊢
    cases hpolicy : x.1 <;> cases hcut : Text.cut? search.search.toList w.text <;>
      rw [hpolicy, hcut] at hrecord <;> exact hrecord

theorem agrees_foldl {steps : List (ErrorPolicy × Step)}
    (hs : ∀ x ∈ steps, ∃ search, x.2.effective = .ok search ∧ search.IsReplacement) (w : Work) :
    Agrees w (steps.foldl (fun w x => runStep path theme x.1 w x.2) w)
      (rewrite? (steps.map asReplacement) w.text) := by
  induction steps generalizing w with
  | nil => exact ⟨rfl, rfl⟩
  | cons x steps ih =>
    obtain ⟨search, he, hr⟩ := hs x (List.mem_cons_self ..)
    have hstep := agrees_runStep path theme he hr w
    have hrest := ih (fun y hy => hs y (List.mem_cons_of_mem _ hy)) (runStep path theme x.1 w x.2)
    rw [List.foldl_cons, List.map_cons, rewrite?_cons]
    cases hresult : (asReplacement x).result? w.text with
    | none =>
      rw [hresult] at hstep
      obtain ⟨new, hgo⟩ := goesOn_foldl path theme steps (runStep path theme x.1 w x.2)
      exact hstep.goesOn hgo
    | some text =>
      rw [hresult] at hstep
      rw [hstep.1] at hrest
      exact hstep.trans hrest

theorem patchText_rewritten {b : Board} {o : PatchOptions} {block : Document}
    (h : IsReplacementBlock block) (text : List Char) (existed : Bool) (p : Progress) :
    (rewritten? o.undo block text = none ∧
        (patchText b o block path theme text existed p).report.everythingFound = false) ∨
      ∃ text' report, rewritten? o.undo block text = some text' ∧
        report.everythingFound = p.report.everythingFound ∧
          patchText b o block path theme text existed p =
            Save.save b o path theme text' existed { p with report } := by
  let w := (agenda (operations o.undo block)).foldl (fun w x => runStep path theme x.1 w x.2)
    (opened path theme text p)
  obtain ⟨new, hgo⟩ := goesOn_foldl path theme (agenda (operations o.undo block))
    (opened path theme text p)
  have hagrees := agrees_foldl path theme (effective_of_mem_agenda h o.undo)
    (opened path theme text p)
  have hfound : w.report.everythingFound = (p.report.everythingFound && !w.failed) := by
    have hfailed := hgo.failed
    have hreport := hgo.records.found
    rw [show (opened path theme text p).failed = false from rfl, Bool.false_or] at hfailed
    rw [← hfailed] at hreport
    exact hreport
  rw [patchText_eq_finish]
  unfold rewritten?
  rw [map_agenda h] at hagrees
  cases hrw : rewrite? ((replacements block).map (Replacement.turned o.undo)) text with
  | none =>
    have hfailed : w.failed = true := by
      rw [show (opened path theme text p).text = text from rfl, hrw] at hagrees
      exact hagrees
    refine .inl ⟨rfl, ?_⟩
    rw [finish_of_failed path theme (w := w.shown) hfailed]
    change w.report.everythingFound = false
    rw [hfound, hfailed, Bool.not_true, Bool.and_false]
  | some text' =>
    rw [show (opened path theme text p).text = text from rfl, hrw] at hagrees
    obtain ⟨htext, hfailed⟩ := hagrees
    have hopen : w.failed = false := hfailed
    refine .inr ⟨revealed text', w.report, rfl, ?_, ?_⟩
    · rw [hfound, hopen, Bool.not_false, Bool.and_true]
    · rw [← htext]
      exact finish_of_unfailed path theme (w := w.shown) hopen

end Modification

end Patchboard
