import Mathlib.Data.List.Basic
import Patchboard.Proofs.Patch.Revision
import Patchboard.Proofs.Patch.Sequential
import Patchboard.Proofs.Patch.Undo.Storing

set_option autoImplicit false

/-!
Where the characters of a saved file come from. A text whose characters carry the places where they
stood goes through a block of literal searches as the bare text does, so what no search matched is
still there in the end, in order. It is saved as it reads, without the two characters that hide
others.
-/

namespace Patchboard.Modification
open Search

/-- A character and the place where it stood in the original text; an added one stood nowhere. -/
abbrev Traced := Char × Option Nat

/-- A text in which each character stands at its own place. -/
def traced (text : List Char) : List Traced := text.zipIdx.map fun x => (x.1, some x.2)

def inserted (add : List Char) : List Traced := (hidden add).map fun c => (c, none)

/-- The places where the characters of a text stood. -/
def places (text : List Traced) : List Nat := text.filterMap Prod.snd

def chars (text : List Traced) : List Char := text.map Prod.fst

/-- A text that searches are carried out on, and the regions that they matched, as places of the
original text. -/
structure Trace where
  text : List Traced
  regions : List (List Nat)

namespace Trace

def edit (t : Trace) (search : Search) (skipped : Nat) : Trace :=
  let front := t.text.take skipped
  let region := (t.text.drop skipped).take search.search.toList.length
  let back := (t.text.drop skipped).drop search.search.toList.length
  ⟨edited search.position front region back (inserted search.add.toList),
    t.regions ++ [places region]⟩

/-- Carries out a literal search; one that must not be found changes nothing. -/
def step (t : Trace) (x : ErrorPolicy × Step) : Trace :=
  match x.2.effective with
  | .error _ => t
  | .ok search =>
    if search.isNoop then t
    else
      match x.1, search.place? (chars t.text) with
      | .required, _ => t
      | _, none => t
      | _, some (before, _) => t.edit search before.length

/-- The trace of some searches on a text. -/
def run (steps : List (ErrorPolicy × Step)) (text : List Char) : Trace :=
  steps.foldl step ⟨traced text, []⟩

/-- A character of the original text that stood in none of the regions. -/
def Spared (regions : List (List Nat)) (x : Traced) : Prop :=
  ∃ place, x.2 = some place ∧ ∀ region ∈ regions, place ∉ region

instance (regions : List (List Nat)) (x : Traced) : Decidable (Spared regions x) :=
  match h : x.2 with
  | none => isFalse fun ⟨_, hp, _⟩ => by simp [h] at hp
  | some place =>
    decidable_of_iff (∀ region ∈ regions, place ∉ region)
      ⟨fun hr => ⟨place, h, hr⟩, fun ⟨_, hp, hr⟩ => by
        cases h.symm.trans hp
        exact hr⟩

/-- The characters of a text outside the regions that were matched. -/
def spared (t : Trace) (text : List Char) : List Traced :=
  (traced text).filter fun x => Spared t.regions x

/-- What is saved in the end, with the places it comes from. -/
def saved (t : Trace) : List Traced := t.text.map fun x => (reveal x.1, x.2)

end Trace

theorem chars_traced (text : List Char) : chars (traced text) = text := by
  rw [chars, traced, List.map_map]
  exact List.zipIdx_map_fst 0 text

theorem chars_inserted (add : List Char) : chars (inserted add) = hidden add := by
  rw [chars, inserted, List.map_map]
  exact List.map_id _

theorem chars_saved (t : Trace) : chars t.saved = revealed (chars t.text) := by
  simp [chars, Trace.saved, revealed, List.map_map, Function.comp_def]

/-- A block of literal searches. -/
def IsLiteralBlock (block : Document) : Prop :=
  ∀ operation ∈ block.children "." "operation", ∀ node ∈ operation.children "." "search",
    (Search.ofNode node (operation.fetch "add")).IsLiteral

instance (block : Document) : Decidable (IsLiteralBlock block) :=
  inferInstanceAs (Decidable (∀ operation ∈ block.children "." "operation",
    ∀ node ∈ operation.children "." "search",
      (Search.ofNode node (operation.fetch "add")).IsLiteral))

theorem effective_literal {block : Document} (h : IsLiteralBlock block) (undo : Bool) :
    ∀ x ∈ agenda (operations undo block), ∃ search, x.2.effective = .ok search ∧
      search.IsLiteral :=
  effective_of_reversed (fun _ hs => reversed_literal hs) h undo

namespace Trace

theorem chars_edit {search : Search} {t : Trace} {before after : List Char}
    (hp : search.place? (chars t.text) = some (before, after)) :
    chars (t.edit search before.length).text =
      edited search.position before search.search.toList after (hidden search.add.toList) := by
  have hwhole : t.text.map Prod.fst = before ++ search.search.toList ++ after := eq_of_place? hp
  have hadd : (inserted search.add.toList).map Prod.fst = hidden search.add.toList :=
    chars_inserted search.add.toList
  unfold edit chars
  rw [map_edited, hadd]
  simp [hwhole]

theorem chars_step {x : ErrorPolicy × Step} {search : Search}
    (he : x.2.effective = .ok search) (h : search.IsLiteral) (t : Trace) :
    chars (t.step x).text = textAfter (chars t.text) x := by
  rw [textAfter_literal he h]
  unfold step atPlace
  rw [he]
  dsimp only
  cases search.isNoop with
  | true => rfl
  | false =>
    cases hp : search.place? (chars t.text) with
    | none => cases x.1 <;> rfl
    | some hit =>
      cases x.1 with
      | required => rfl
      | fatal | ignore => exact chars_edit hp

theorem chars_foldl {steps : List (ErrorPolicy × Step)}
    (hs : ∀ x ∈ steps, ∃ search, x.2.effective = .ok search ∧ search.IsLiteral) (t : Trace) :
    chars (steps.foldl step t).text = steps.foldl textAfter (chars t.text) := by
  induction steps generalizing t with
  | nil => rfl
  | cons x steps ih =>
    obtain ⟨search, he, hl⟩ := hs x (List.mem_cons_self ..)
    rw [List.foldl_cons, ih (fun y hy => hs y (List.mem_cons_of_mem _ hy)), chars_step he hl,
      List.foldl_cons]

theorem sublist_edited {α : Type} (position : Position) (before searched after add : List α) :
    (before ++ after).Sublist (edited position before searched after add) := by
  cases position with
  | atEnd =>
    cases searched with
    | nil =>
      rw [edited, if_pos List.isEmpty_nil, List.append_assoc]
      exact (List.sublist_append_right add after).append_left before
    | cons c searched => exact List.Sublist.refl _
  | replace | before | after =>
    simp only [edited, List.append_assoc]
    refine List.Sublist.append_left ?_ before
    simp

theorem filter_spared_region (text : List Traced) :
    (text.filter fun x => Spared [places text] x) = [] := by
  rw [List.filter_eq_nil_iff]
  rintro x hx hs
  obtain ⟨place, hp, hout⟩ := of_decide_eq_true hs
  exact hout _ (List.mem_singleton_self _) (List.mem_filterMap.2 ⟨x, hx, hp⟩)

theorem sublist_edited_of_spared {position : Position} {front region back add rest : List Traced}
    (h : rest.Sublist (front ++ region ++ back)) :
    (rest.filter fun x => Spared [places region] x).Sublist
      (edited position front region back add) := by
  have hfilter := h.filter fun x => Spared [places region] x
  rw [List.filter_append, List.filter_append, filter_spared_region, List.append_nil] at hfilter
  exact (hfilter.trans (List.filter_sublist.append List.filter_sublist)).trans
    (sublist_edited position front region back add)

theorem spared_append (regions : List (List Nat)) (region : List Nat) (text : List Traced) :
    (text.filter fun x => Spared (regions ++ [region]) x) =
      (text.filter fun x => Spared regions x).filter fun x => Spared [region] x := by
  rw [List.filter_filter]
  refine List.filter_congr fun x _ => ?_
  rw [← Bool.decide_and, decide_eq_decide]
  constructor
  · rintro ⟨place, hp, hout⟩
    exact ⟨⟨place, hp, fun r hr => hout r (List.mem_append_right _ hr)⟩,
      place, hp, fun r hr => hout r (List.mem_append_left _ hr)⟩
  · rintro ⟨⟨place, hp, hlast⟩, place', hp', hfirst⟩
    cases hp.symm.trans hp'
    exact ⟨place, hp, fun r hr => (List.mem_append.1 hr).elim (hfirst r) (hlast r)⟩

/-- A trace that began with a text: what it did not match is there, and a text that nothing matched
is there as it was. -/
structure Follows (t : Trace) (text : List Char) : Prop where
  spares : (t.spared text).Sublist t.text
  untouched : t.regions = [] → t.text = traced text

theorem Follows.edit {t : Trace} {text : List Char} (h : t.Follows text) (search : Search)
    (skipped : Nat) : (t.edit search skipped).Follows text := by
  refine ⟨?_, fun hnone => by simp [Trace.edit] at hnone⟩
  have hspares := h.spares
  rw [← List.take_append_drop skipped t.text,
    ← List.take_append_drop search.search.toList.length (t.text.drop skipped),
    ← List.append_assoc] at hspares
  unfold spared Trace.edit
  dsimp only
  rw [spared_append]
  exact sublist_edited_of_spared hspares

theorem Follows.step {t : Trace} {text : List Char} (h : t.Follows text)
    (x : ErrorPolicy × Step) : (t.step x).Follows text := by
  unfold Trace.step
  cases x.2.effective with
  | error problem => exact h
  | ok search =>
    dsimp only
    split
    · exact h
    · split
      · exact h
      · exact h
      · exact h.edit search _

theorem follows_run (steps : List (ErrorPolicy × Step)) (text : List Char) :
    (run steps text).Follows text := by
  have hstart : Follows ⟨traced text, []⟩ text := ⟨List.filter_sublist, fun _ => rfl⟩
  unfold run
  generalize (⟨traced text, []⟩ : Trace) = t at hstart
  induction steps generalizing t with
  | nil => exact hstart
  | cons x steps ih => exact ih _ (hstart.step x)

theorem sublist_saved_iff {t : Trace} {rest : List Traced} (h : rest.Sublist t.text) :
    rest.Sublist t.saved ↔ Clear (chars rest) := by
  constructor
  · intro hs
    have hclear := clear_revealed (chars t.text)
    rw [← chars_saved] at hclear
    exact clear_of_subset hclear (hs.map Prod.fst).subset
  · intro hc
    have hsame : rest.map (fun x => (reveal x.1, x.2)) = rest := by
      refine (List.map_congr_left fun x hx => ?_).trans (List.map_id _)
      have hne := ne_of_clear hc (List.mem_map.2 ⟨x, hx, rfl⟩)
      rw [reveal_of_ne hne.1 hne.2]
      rfl
    exact hsame ▸ h.map fun x => (reveal x.1, x.2)

end Trace

variable {b : Board} {o : PatchOptions} {block : Document} {path : Path} {theme : Nat}
  {p : Progress} {text : List Char} {existed : Bool}

theorem kind_changes (steps : List (ErrorPolicy × Step)) (text : List Char) :
    ∀ kind ∈ (changes steps text).1, ∃ outcome, kind = kindOf outcome := by
  induction steps generalizing text with
  | nil => simp [changes]
  | cons x steps ih =>
    rw [changes]
    cases change x.1 x.2 text with
    | none => exact ih text
    | some made =>
      rintro kind (_ | ⟨_, hk⟩)
      · exact ⟨made.1, rfl⟩
      · exact ih made.2 kind hk

theorem text_changes (steps : List (ErrorPolicy × Step)) (text : List Char) :
    (changes steps text).2 = steps.foldl textAfter text := by
  have hwork := text_foldl ⟨""⟩ 0 steps ⟨text, false, .empty⟩
  rw [foldl_runStep_eq] at hwork
  exact hwork

theorem patchText_of_saved
    (h : (patchText b o block path theme text existed p).report.events.getLast? =
      some ⟨some path, theme, .saved⟩) :
    ∃ report, patchText b o block path theme text existed p = Save.save b o path theme
      (revealed ((agenda (operations o.undo block)).foldl textAfter text)) existed
      { p with report } := by
  have hcode := patchText_eq path theme b o block text existed p
  dsimp only at hcode
  split at hcode
  · -- the events of a block that failed are its searches
    rw [hcode] at h
    unfold Progress.extend Report.extend at h
    dsimp only at h
    rw [List.map_cons, List.getLast?_append_cons, ← List.map_cons] at h
    obtain ⟨kind, hk, he⟩ := List.mem_map.1 (List.mem_of_getLast? h)
    cases he
    rcases List.mem_cons.1 hk with hk | hk
    · cases hk
    · obtain ⟨outcome, ho⟩ := kind_changes _ _ _ hk
      unfold kindOf at ho
      split at ho <;> cases ho
  · rw [text_changes] at hcode
    exact ⟨_, hcode⟩

theorem getLast?_fail_ne (q : Progress) (problem : Problem) :
    (q.fail (some path) theme (.error problem)).report.events.getLast? ≠
      some ⟨some path, theme, .saved⟩ := by
  simp [Progress.fail, Report.fail]

theorem file?_of_saved (ho : o.testing = false)
    (h : (Save.save b o path theme text existed p).report.events.getLast? =
      some ⟨some path, theme, .saved⟩) :
    (Save.save b o path theme text existed p).site.tree.file? path =
      some (.text (String.ofList text)) := by
  rcases Save.save_cases b path theme text existed o p with
    ⟨-, hs⟩ | ⟨-, ⟨ht, -⟩ | ⟨-, -, hs⟩ | ⟨-, -, hs⟩⟩
  · rw [hs] at h
    simp [Progress.note, Report.note] at h
  · simp [ho] at ht
  · rw [hs] at h
    exact absurd h (getLast?_fail_ne _ _)
  · rw [hs] at h ⊢
    rcases Save.store_cases b path theme text existed (p.on (p.site.ensureWritable path).2) with
      ⟨hok, hstore⟩ | ⟨-, hstore⟩
    · rw [hstore]
      exact (Save.file?_written hok).1
    · rw [hstore] at h
      exact absurd h (getLast?_fail_ne _ _)

/-- A block of literal searches that ends in a save keeps what its searches did not match, in order,
exactly when none of it is one of the two characters that hide others. In particular, a file that no
search matched is saved as it was exactly when it holds neither of them. -/
theorem saved_keeps_rest (hb : IsLiteralBlock block)
    (hs : subject? p block path = some (text, existed))
    (hsaved : (applyBlock b o block path theme p).report.events.getLast? =
      some ⟨some path, theme, .saved⟩) :
    let t := Trace.run (agenda (operations o.undo block)) text
    (∃ report, applyBlock b o block path theme p =
      Save.save b o path theme (chars t.saved) existed { p with report }) ∧
    (o.testing = false → (applyBlock b o block path theme p).site.tree.file? path =
      some (.text (String.ofList (chars t.saved)))) ∧
    ((t.spared text).Sublist t.saved ↔ Clear (chars (t.spared text))) ∧
    (t.regions = [] → (chars t.saved = text ↔ Clear text)) := by
  intro t
  have hfollows := Trace.follows_run (agenda (operations o.undo block)) text
  have hchars : chars t.saved =
      revealed ((agenda (operations o.undo block)).foldl textAfter text) := by
    rw [chars_saved]
    unfold t Trace.run
    rw [Trace.chars_foldl (effective_literal hb o.undo), chars_traced]
  rw [applyBlock_of_subject? path theme hs] at hsaved ⊢
  obtain ⟨report, hcode⟩ := patchText_of_saved hsaved
  rw [← hchars] at hcode
  refine ⟨⟨report, hcode⟩, fun ho => ?_, Trace.sublist_saved_iff hfollows.spares, fun hnone => ?_⟩
  · rw [hcode] at hsaved ⊢
    exact file?_of_saved ho hsaved
  · rw [chars_saved, hfollows.untouched hnone, chars_traced, revealed_eq_self_iff]

/-- Puts a dollar sign in the place of one of the two characters, and one behind a letter. -/
def unhidingBlock : Document := blockOf "$z" [.string "\uE000", searchAfter "b"]

def hidingFile : String := "\\a\uE000bc"

theorem saved_keeps_rest_unhidden :
    IsLiteralBlock unhidingBlock ∧
      subject? (oneFile hidingFile) unhidingBlock ⟨"/f"⟩ = some (hidingFile.toList, true) ∧
      (applyBlock bareBoard ⟨false, false⟩ unhidingBlock ⟨"/f"⟩ 0
        (oneFile hidingFile)).report.events.getLast? = some ⟨some ⟨"/f"⟩, 0, .saved⟩ ∧
      (applyBlock bareBoard ⟨false, false⟩ unhidingBlock ⟨"/f"⟩ 0
        (oneFile hidingFile)).site.tree.file? ⟨"/f"⟩ = some (.text "\\a$zb$zc") ∧
      let t := Trace.run (agenda (operations false unhidingBlock)) hidingFile.toList
      chars (t.spared hidingFile.toList) = "\\ac".toList ∧
        (t.spared hidingFile.toList).Sublist t.saved := by
  have hs : subject? (oneFile hidingFile) unhidingBlock ⟨"/f"⟩ =
      some (hidingFile.toList, true) := by decide
  have hsteps : agenda (operations false unhidingBlock) =
      [(.fatal, ⟨.literal .replace "\uE000" "$z", .ok (.literal .replace "\uE000" "$z")⟩),
        (.fatal, ⟨.literal .after "b" "$z", .ok (.literal .after "b" "$z")⟩)] := rfl
  have hsaved : (applyBlock bareBoard ⟨false, false⟩ unhidingBlock ⟨"/f"⟩ 0
      (oneFile hidingFile)).report.events.getLast? = some ⟨some ⟨"/f"⟩, 0, .saved⟩ := by
    rw [applyBlock_of_subject? _ _ hs, patchText_eq_finish, hsteps, List.foldl_cons,
      List.foldl_cons, List.foldl_nil, runStep_literal _ _ rfl ⟨rfl, rfl⟩,
      runStep_literal _ _ rfl ⟨rfl, rfl⟩]
    decide
  have hb : IsLiteralBlock unhidingBlock := by decide
  obtain ⟨-, hfile, hrest, -⟩ := saved_keeps_rest hb hs hsaved
  refine ⟨hb, hs, hsaved, (hfile rfl).trans ?_, ?_, hrest.2 ?_⟩
  · decide
  · decide
  · decide

/-- A block that does not mention the two characters, and one that changes nothing, write a dollar
sign where a file holds the first of them. -/
theorem saved_changes_rest :
    let block := blockOf "b" [.string "a"]
    IsLiteralBlock block ∧
      subject? (oneFile "\uE000a") block ⟨"/f"⟩ = some ("\uE000a".toList, true) ∧
      (applyBlock bareBoard ⟨false, false⟩ block ⟨"/f"⟩ 0
        (oneFile "\uE000a")).report.events.getLast? = some ⟨some ⟨"/f"⟩, 0, .saved⟩ ∧
      (applyBlock bareBoard ⟨false, false⟩ block ⟨"/f"⟩ 0
        (oneFile "\uE000a")).site.tree.file? ⟨"/f"⟩ = some (.text "$b") ∧
      (applyBlock bareBoard ⟨false, false⟩ (blockOf "b" []) ⟨"/f"⟩ 0
        (oneFile "\uE000a")).report.events.getLast? = some ⟨some ⟨"/f"⟩, 0, .saved⟩ ∧
      (applyBlock bareBoard ⟨false, false⟩ (blockOf "b" []) ⟨"/f"⟩ 0
        (oneFile "\uE000a")).site.tree.file? ⟨"/f"⟩ = some (.text "$a") := by
  intro block
  have hs : subject? (oneFile "\uE000a") block ⟨"/f"⟩ = some ("\uE000a".toList, true) := by decide
  have hsteps : agenda (operations false block) =
      [(.fatal, ⟨.literal .replace "a" "b", .ok (.literal .replace "a" "b")⟩)] := rfl
  have hrun : applyBlock bareBoard ⟨false, false⟩ block ⟨"/f"⟩ 0 (oneFile "\uE000a") =
      finish ⟨"/f"⟩ 0 bareBoard ⟨false, false⟩ true (oneFile "\uE000a")
        ((opened ⟨"/f"⟩ 0 "\uE000a".toList (oneFile "\uE000a")).record ⟨"/f"⟩ 0
          (.succeeded "a" "b" .replace) "\uE000b".toList).shown := by
    rw [applyBlock_of_subject? _ _ hs, patchText_eq_finish, hsteps, List.foldl_cons,
      List.foldl_nil, runStep_literal _ _ rfl ⟨rfl, rfl⟩]
    rfl
  rw [hrun]
  decide

end Patchboard.Modification
