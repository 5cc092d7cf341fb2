import Patchboard.Proofs.Patch.Sequential

set_option autoImplicit false

namespace Patchboard

namespace Search

/-- An empty addition before or behind a text. -/
def AddsNothing (s : Search) : Prop :=
  (s.position = .before ∨ s.position = .after) ∧ s.add = "" ∧ s.search ≠ ""

instance (s : Search) : Decidable s.AddsNothing :=
  inferInstanceAs (Decidable
    ((s.position = .before ∨ s.position = .after) ∧ s.add = "" ∧ s.search ≠ ""))

theorem exists_reversed {s : Search} (hp : s.isPattern = false)
    (hend : s.position = .atEnd → s.search = "") :
    ∃ r, s.reversed = .ok r ∧ (s.isNoop = r.isNoop ↔ ¬ s.AddsNothing) := by
  unfold reversed
  rw [if_neg (by simp [hp])]
  refine ⟨_, rfl, ?_⟩
  rw [Bool.eq_iff_iff, isNoop_iff, isNoop_iff]
  unfold AddsNothing
  cases hpos : s.position with
  | atEnd => simp [hend hpos]
  | replace => simp [or_comm]
  | before | after =>
    by_cases hadd : s.add = "" <;> by_cases hsearch : s.search = "" <;>
      simp [hadd, hsearch, String.append_eq_empty_iff]

end Search

namespace Modification
open Search

/-- A step that is carried out the other way round. -/
def Step.undone (s : Step) : Step := ⟨s.written, s.written.reversed⟩

theorem undone_mem_agenda {block : Document} {x : ErrorPolicy × Step}
    (hx : x ∈ agenda (operations false block)) :
    (x.1, x.2.undone) ∈ agenda (operations true block) := by
  obtain ⟨operation, ho, node, hn, rfl⟩ := mem_agenda.1 hx
  exact mem_agenda.2 ⟨operation, ho, node, hn, rfl⟩

theorem search_of_mem_agenda {block : Document} {undo : Bool} {x : ErrorPolicy × Step}
    (hx : x ∈ agenda (operations undo block)) (hp : x.2.written.position = .atEnd) :
    x.2.written.search = "" := by
  obtain ⟨operation, -, node, -, rfl⟩ := mem_agenda.1 hx
  exact if_pos hp

variable {path : Path} {theme : Nat}

theorem runStep_of_noop {x : ErrorPolicy × Step} {search : Search}
    (he : x.2.effective = .ok search) (hn : search.isNoop = true) (w : Work) :
    runStep path theme x.1 w x.2 = w := by
  unfold runStep
  rw [he]
  exact if_pos hn

theorem isNoop_of_events {x : ErrorPolicy × Step} {search : Search}
    (he : x.2.effective = .ok search) {w : Work}
    (hw : (runStep path theme x.1 w x.2).report.events = w.report.events) :
    search.isNoop = true := by
  cases hn : search.isNoop with
  | true => rfl
  | false =>
    rw [events_runStep path theme he hn] at hw
    simp at hw

/-- A literal search is passed over together with its reversal unless it adds nothing before or
behind a text. So what leaves no event when a block is applied leaves none, and changes nothing,
when it is undone, exactly when it is not such a search. -/
theorem skipped_undone_iff (position : Position) (search add : String) :
    (∃ r, (literal position search add).reversed = .ok r ∧
      ((literal position search add).isNoop = r.isNoop ↔
        ¬ (literal position search add).AddsNothing)) ∧
    ∀ (block : Document) (path : Path) (theme : Nat), ∀ x ∈ agenda (operations false block),
      x.2.written.isPattern = false →
      ∀ w, (runStep path theme x.1 w x.2).report.events = w.report.events →
        (x.1, x.2.undone) ∈ agenda (operations true block) ∧
        (x.2.written.AddsNothing → ∀ w, ∃ kind,
          (runStep path theme x.1 w x.2.undone).report.events =
            w.report.events ++ [⟨some path, theme, kind⟩]) ∧
        (¬ x.2.written.AddsNothing →
          (∀ w, runStep path theme x.1 w x.2.undone = w) ∧
          ∀ b testing p text existed done rest,
            agenda (operations true block) = done ++ (x.1, x.2.undone) :: rest →
            subject? p block path = some (text, existed) →
            applyBlock b ⟨testing, true⟩ block path theme p =
              finish path theme b ⟨testing, true⟩ existed p ((done ++ rest).foldl
                (fun w x => runStep path theme x.1 w x.2) (opened path theme text p)).shown) := by
  refine ⟨exists_reversed rfl fun hp => if_pos hp, ?_⟩
  intro block path theme x hx hp w hw
  have hnoop := isNoop_of_events (effective_of_mem_applied hx) hw
  obtain ⟨r, hr, hiff⟩ := exists_reversed hp (search_of_mem_agenda hx)
  rw [hnoop] at hiff
  have he : (x.1, x.2.undone).2.effective = .ok r := hr
  refine ⟨undone_mem_agenda hx, fun hadds w => ?_, fun hadds => ?_⟩
  · have hn : r.isNoop = false := by
      cases h : r.isNoop with
      | false => rfl
      | true => exact absurd hadds (hiff.1 h.symm)
    exact ⟨_, events_runStep path theme he hn w⟩
  · have hskip : ∀ w, runStep path theme x.1 w x.2.undone = w :=
      runStep_of_noop he (hiff.2 hadds).symm
    refine ⟨hskip, fun b testing p text existed done rest hsteps hs => ?_⟩
    rw [applyBlock_of_subject? path theme hs, patchText_eq_finish]
    dsimp only
    rw [hsteps, List.foldl_append, List.foldl_append, List.foldl_cons, hskip]

def searchBefore (text : String) : Toml :=
  .table [("position", .string "before"), ("text", .string text)]

/-- Takes a text away by replacing it with nothing, which is passed over; the second search finds
nothing to put an empty text behind, which is passed over too. -/
def emptyBlock : Document := blockOf "" [.string "beta", searchAfter ""]

theorem skipped_undone_empty :
    let steps : List (ErrorPolicy × Step) :=
      [(.fatal, ⟨.literal .replace "beta" "", .ok (.literal .replace "beta" "")⟩),
        (.fatal, ⟨.literal .after "" "", .ok (.literal .after "" "")⟩)]
    agenda (operations false emptyBlock) = steps ∧
      ∀ x ∈ steps,
        (∀ w, (runStep ⟨"/f"⟩ 0 x.1 w x.2).report.events = w.report.events) ∧
        (x.1, x.2.undone) ∈ agenda (operations true emptyBlock) ∧
        ∀ w, runStep ⟨"/f"⟩ 0 x.1 w x.2.undone = w := by
  intro steps
  have hsteps : agenda (operations false emptyBlock) = steps := rfl
  refine ⟨hsteps, fun x hx => ?_⟩
  have hmem : x ∈ agenda (operations false emptyBlock) := hsteps ▸ hx
  have hplain : x.2.written.isPattern = false ∧ x.2.written.isNoop = true ∧
      ¬ x.2.written.AddsNothing := by
    rw [List.mem_cons, List.mem_singleton] at hx
    rcases hx with rfl | rfl
    · decide
    · decide
  have hskip (w : Work) : runStep ⟨"/f"⟩ 0 x.1 w x.2 = w :=
    runStep_of_noop (effective_of_mem_applied hmem) hplain.2.1 w
  have hevents (w : Work) : (runStep ⟨"/f"⟩ 0 x.1 w x.2).report.events = w.report.events := by
    rw [hskip]
  obtain ⟨hundone, -, hback⟩ := (skipped_undone_iff .replace "beta" "").2 emptyBlock ⟨"/f"⟩ 0 x
    hmem hplain.1 ⟨[], false, .empty⟩ (hevents _)
  exact ⟨hevents, hundone, (hback hplain.2.2).1⟩

/-- An empty addition before a text is passed over when a block is applied, and fails when the block
is undone on a file without the text. -/
theorem skipped_fails_undone :
    (literal .before "a" "").isNoop = true ∧
      (∃ r, (literal .before "a" "").reversed = .ok r ∧ r.isNoop = false) ∧
      (applyBlock bareBoard ⟨false, false⟩ (blockOf "" [searchBefore "a"]) ⟨"/f"⟩ 0
        (oneFile "b")).report =
          ⟨[⟨some ⟨"/f"⟩, 0, .opened⟩, ⟨some ⟨"/f"⟩, 0, .saved⟩], true⟩ ∧
      (applyBlock bareBoard ⟨false, true⟩ (blockOf "" [searchBefore "a"]) ⟨"/f"⟩ 0
        (oneFile "b")).report =
          ⟨[⟨some ⟨"/f"⟩, 0, .opened⟩, ⟨some ⟨"/f"⟩, 0, .failure
            (.ofProblem "a" "" .before (.notFound "a"))⟩], false⟩ := by
  refine ⟨by decide, ⟨_, rfl, by decide⟩, by decide, ?_⟩
  have hs : subject? (oneFile "b") (blockOf "" [searchBefore "a"]) ⟨"/f"⟩ =
      some ("b".toList, true) := by decide
  have hsteps : agenda (operations true (blockOf "" [searchBefore "a"])) =
      [(.fatal, ⟨.literal .before "a" "", .ok ⟨.replace, false, false, "a", "a"⟩⟩)] := rfl
  rw [applyBlock_of_subject? _ _ hs, patchText_eq_finish, hsteps, List.foldl_cons,
    List.foldl_nil, runStep_literal _ _ rfl ⟨rfl, rfl⟩]
  decide

end Modification

end Patchboard
