import Patchboard.Patch.Modification
import Patchboard.Proofs.Patch.Saving

set_option autoImplicit false

namespace Patchboard.Modification

/-- The searches of some operations, with their policies, in the order they are carried out. -/
def agenda (operations : List Operation) : List (ErrorPolicy × Step) :=
  operations.flatMap fun operation => operation.steps.map fun s => (operation.policy, s)

theorem foldl_agenda {α : Type} (f : ErrorPolicy → α → Step → α)
    (operations : List Operation) (w : α) : (agenda operations).foldl (fun w x => f x.1 w x.2) w =
      operations.foldl (fun w operation => operation.steps.foldl (f operation.policy) w) w := by
  induction operations generalizing w with
  | nil => rfl
  | cons operation operations ih =>
    rw [agenda, List.flatMap_cons, List.foldl_append, List.foldl_map, List.foldl_cons, ← ih]
    rfl

theorem mem_ordered {s : Step} {steps : List Step} : s ∈ ordered steps ↔ s ∈ steps := by
  unfold ordered
  by_cases h : s.isReplace <;> simp [h]

theorem mem_agenda {undo : Bool} {block : Document} {x : ErrorPolicy × Step} :
    x ∈ agenda (operations undo block) ↔
      ∃ operation ∈ block.children "." "operation", ∃ node ∈ operation.children "." "search",
        ((Operation.ofNode undo operation).policy,
          Step.ofNode undo (operation.fetch "add") node) = x := by
  constructor
  · intro hx
    obtain ⟨_, hread, hx⟩ := List.mem_flatMap.1 hx
    obtain ⟨operation, ho, rfl⟩ := List.mem_map.1 hread
    obtain ⟨s, hs, rfl⟩ := List.mem_map.1 hx
    obtain ⟨node, hn, rfl⟩ := List.mem_map.1 (mem_ordered.1 hs)
    exact ⟨operation, ho, node, hn, rfl⟩
  · rintro ⟨operation, ho, node, hn, rfl⟩
    have hs := mem_ordered.2 (List.mem_map_of_mem (f := Step.ofNode undo (operation.fetch "add")) hn)
    exact List.mem_flatMap.2 ⟨_, List.mem_map_of_mem ho, List.mem_map_of_mem hs⟩

/-- What holds of the searches of a block, and of the reversal of each search it holds of, holds of
the searches as they are carried out in either direction. -/
theorem effective_of_reversed {P : Search → Prop}
    (hP : ∀ s, P s → ∃ r, s.reversed = .ok r ∧ P r) {block : Document}
    (h : ∀ operation ∈ block.children "." "operation", ∀ node ∈ operation.children "." "search",
      P (Search.ofNode node (operation.fetch "add"))) (undo : Bool) :
    ∀ x ∈ agenda (operations undo block), ∃ search, x.2.effective = .ok search ∧ P search := by
  intro x hx
  obtain ⟨operation, ho, node, hn, rfl⟩ := mem_agenda.1 hx
  have hs := h operation ho node hn
  cases undo with
  | false => exact ⟨_, rfl, hs⟩
  | true => exact hP _ hs

theorem effective_of_mem_applied {block : Document} {x : ErrorPolicy × Step}
    (hx : x ∈ agenda (operations false block)) : x.2.effective = .ok x.2.written := by
  obtain ⟨operation, -, node, -, rfl⟩ := mem_agenda.1 hx
  rfl

def Work.shown (w : Work) : Work := { w with text := Search.revealed w.text }

variable (path : Path) (theme : Nat)

theorem text_record (w : Work) (outcome : Outcome) (text : List Char) :
    (w.record path theme outcome text).text = text := by
  unfold Work.record
  split <;> rfl

def kindOf (outcome : Outcome) : EventKind :=
  if outcome.countsAsFailure then .failure outcome else .replace outcome

theorem kindOf_inj {a b : Outcome} (h : kindOf a = kindOf b) : a = b := by
  unfold kindOf at h
  split at h <;> split at h <;> simp_all

theorem honest_kindOf (outcome : Outcome) : (kindOf outcome).Honest := by
  unfold kindOf
  split
  · rename_i h
    exact h
  · rename_i h
    exact (Bool.not_eq_true _).mp h

/-- A work goes on: some events are recorded, and it fails when one of them is a failure. -/
structure Work.GoesOn (w : Work) (new : List Event) (w' : Work) : Prop where
  records : w.report.Records new w'.report
  failed : w'.failed = (w.failed || new.any (·.kind.isFailure))

theorem Work.GoesOn.refl (w : Work) : w.GoesOn [] w :=
  ⟨.refl w.report, by simp⟩

theorem Work.GoesOn.trans {w w' w'' : Work} {new new' : List Event} (h : w.GoesOn new w')
    (h' : w'.GoesOn new' w'') : w.GoesOn (new ++ new') w'' := by
  refine ⟨h.records.trans h'.records, ?_⟩
  rw [h'.failed, h.failed, List.any_append, Bool.or_assoc]

theorem goesOn_record (w : Work) (outcome : Outcome) (text : List Char) :
    w.GoesOn [⟨some path, theme, kindOf outcome⟩] (w.record path theme outcome text) := by
  have hrefl := Report.Records.refl w.report
  have hh := honest_kindOf outcome
  unfold Work.record
  unfold kindOf at hh ⊢
  split
  · rename_i hc
    rw [if_pos hc] at hh
    exact ⟨hrefl.fail (some path) theme _ rfl hh, by simp [EventKind.isFailure]⟩
  · rename_i hc
    rw [if_neg hc] at hh
    exact ⟨hrefl.note path theme _ rfl hh, by simp [EventKind.isFailure]⟩

theorem events_record (w : Work) (outcome : Outcome) (text : List Char) :
    (w.record path theme outcome text).report.events =
      w.report.events ++ [⟨some path, theme, kindOf outcome⟩] :=
  (goesOn_record path theme w outcome text).records.events

theorem goesOn_runStep (w : Work) (x : ErrorPolicy × Step) :
    ∃ new, w.GoesOn new (runStep path theme x.1 w x.2) := by
  unfold runStep
  split
  · split
    · exact ⟨_, goesOn_record path theme ..⟩
    · exact ⟨_, .refl w⟩
  · split
    · exact ⟨_, .refl w⟩
    · exact ⟨_, goesOn_record path theme ..⟩

theorem goesOn_foldl (steps : List (ErrorPolicy × Step)) (w : Work) :
    ∃ new, w.GoesOn new (steps.foldl (fun w x => runStep path theme x.1 w x.2) w) := by
  induction steps generalizing w with
  | nil => exact ⟨[], .refl w⟩
  | cons x steps ih =>
    obtain ⟨new, hx⟩ := goesOn_runStep path theme w x
    obtain ⟨new', hrest⟩ := ih (runStep path theme x.1 w x.2)
    exact ⟨new ++ new', hx.trans hrest⟩

theorem events_prefix_runStep (w : Work) (x : ErrorPolicy × Step) :
    w.report.events <+: (runStep path theme x.1 w x.2).report.events := by
  obtain ⟨new, hx⟩ := goesOn_runStep path theme w x
  exact hx.records.prefix_events

theorem events_prefix_foldl {f : Work → ErrorPolicy × Step → Work}
    (hf : ∀ w x, w.report.events <+: (f w x).report.events) (steps : List (ErrorPolicy × Step))
    (w : Work) : w.report.events <+: (steps.foldl f w).report.events := by
  induction steps generalizing w with
  | nil => exact List.prefix_refl _
  | cons x steps ih => exact (hf w x).trans (ih (f w x))

/-- The end of a block: its text is saved unless something failed. -/
def finish (b : Board) (o : PatchOptions) (existed : Bool) (p : Progress) (w : Work) : Progress :=
  let p := { p with report := w.report }
  if w.failed then p else Save.save b o path theme w.text existed p

theorem finish_of_failed {b : Board} {o : PatchOptions} {existed : Bool} {p : Progress} {w : Work}
    (h : w.failed = true) : finish path theme b o existed p w = { p with report := w.report } := by
  unfold finish
  exact if_pos h

theorem finish_of_unfailed {b : Board} {o : PatchOptions} {existed : Bool} {p : Progress}
    {w : Work} (h : w.failed = false) : finish path theme b o existed p w =
      Save.save b o path theme w.text existed { p with report := w.report } := by
  unfold finish
  exact if_neg (by simp [h])

theorem events_prefix_finish (b : Board) (o : PatchOptions) (existed : Bool) (p : Progress)
    (w : Work) : w.report.events <+: (finish path theme b o existed p w).report.events := by
  cases hw : w.failed with
  | true => simp only [finish_of_failed path theme hw, List.prefix_refl]
  | false =>
    rw [finish_of_unfailed path theme hw]
    obtain ⟨new, hr, -⟩ := Save.records_save b path theme w.text existed o
      { p with report := w.report }
    exact hr.prefix_events

def opened (text : List Char) (p : Progress) : Work :=
  ⟨text, false, p.report.note path theme .opened⟩

theorem patchText_eq_finish (b : Board) (o : PatchOptions) (block : Document) (text : List Char)
    (existed : Bool) (p : Progress) :
    patchText b o block path theme text existed p =
      finish path theme b o existed p ((agenda (operations o.undo block)).foldl
        (fun w x => runStep path theme x.1 w x.2) (opened path theme text p)).shown := by
  rw [foldl_agenda (runStep path theme)]
  rfl

/-- What a block makes of a text: some events are recorded, and either one of them is a failure and
the site stays as it is, or the text is saved. -/
theorem patchText_cases (b : Board) (o : PatchOptions) (block : Document) (text : List Char)
    (existed : Bool) (p : Progress) :
    ∃ new report, p.report.Records new report ∧
      ((new.any (·.kind.isFailure) = true ∧
          patchText b o block path theme text existed p = { p with report }) ∨
        (new.any (·.kind.isFailure) = false ∧ ∃ text', patchText b o block path theme text existed p =
          Save.save b o path theme text' existed { p with report })) := by
  let w := (agenda (operations o.undo block)).foldl (fun w x => runStep path theme x.1 w x.2)
    (opened path theme text p)
  obtain ⟨new, hw⟩ := goesOn_foldl path theme (agenda (operations o.undo block))
    (opened path theme text p)
  have hopened : p.report.Records [⟨some path, theme, .opened⟩] (opened path theme text p).report :=
    (Report.Records.refl p.report).note path theme _ rfl trivial
  have hfailed : w.failed = new.any (·.kind.isFailure) := hw.failed
  have hany : ([(⟨some path, theme, .opened⟩ : Event)] ++ new).any (·.kind.isFailure) =
      new.any (·.kind.isFailure) := List.any_append
  refine ⟨_, w.report, hopened.trans hw.records, ?_⟩
  rw [patchText_eq_finish, hany]
  cases hn : new.any (·.kind.isFailure) with
  | true =>
    rw [hn] at hfailed
    exact .inl ⟨rfl, finish_of_failed path theme (w := w.shown) hfailed⟩
  | false =>
    rw [hn] at hfailed
    exact .inr ⟨rfl, w.shown.text, finish_of_unfailed path theme (w := w.shown) hfailed⟩

end Patchboard.Modification
