import Patchboard.Proofs.Patch.Sequential

set_option autoImplicit false

namespace Patchboard.Modification
open Search

variable {b : Board} {o : PatchOptions} {path : Path} {theme : Nat} {p : Progress}
  {text : List Char} {existed : Bool}

/-- A search failed at some point of the work: this is recorded, the text stays, and in the end the
site is as it was. -/
structure Refused (w w' : Work) (e : Event) (p result : Progress) : Prop where
  text : w'.text = w.text
  events : w.report.events ++ [e] <+: result.report.events
  found : result.report.everythingFound = false
  site : result.site = p.site

/-- A search was carried out at some point of the work, and did not make it fail. -/
structure Passed (path : Path) (theme : Nat) (w w' : Work) : Prop where
  events : ∃ outcome, w'.report.events = w.report.events ++ [⟨some path, theme, .replace outcome⟩]
  found : w'.report.everythingFound = w.report.everythingFound
  failed : w'.failed = w.failed

theorem passed_record (w : Work) {outcome : Outcome} (h : outcome.countsAsFailure = false)
    (text : List Char) : Passed path theme w (w.record path theme outcome text) := by
  unfold Work.record
  rw [if_neg (by simp [h])]
  exact ⟨⟨outcome, rfl⟩, rfl, rfl⟩

theorem refused_record (steps : List (ErrorPolicy × Step)) (w : Work) {outcome : Outcome}
    (h : outcome.countsAsFailure = true) :
    Refused w (w.record path theme outcome w.text) ⟨some path, theme, .failure outcome⟩ p
      (finish path theme b o existed p
        (steps.foldl (fun w x => runStep path theme x.1 w x.2)
          (w.record path theme outcome w.text)).shown) := by
  have hkind : kindOf outcome = .failure outcome := by
    unfold kindOf
    rw [if_pos h]
  have hrecord := goesOn_record path theme w outcome w.text
  obtain ⟨new, hrest⟩ := goesOn_foldl path theme steps (w.record path theme outcome w.text)
  have hall := hrecord.trans hrest
  have hbad : ([(⟨some path, theme, kindOf outcome⟩ : Event)] ++ new).any
      (·.kind.isFailure) = true := by simp [hkind, EventKind.isFailure]
  have hfailed := hall.failed
  rw [hbad, Bool.or_true] at hfailed
  have hfound := hall.records.found
  rw [hbad, Bool.not_true, Bool.and_false] at hfound
  have hevents := hrest.records.prefix_events
  rw [events_record, hkind] at hevents
  rw [finish_of_failed path theme (w := Work.shown _) hfailed]
  exact ⟨text_record path theme w outcome w.text, hevents, hfound, rfl⟩

theorem isNoop_of_ne_atEnd {s : Search} (hp : s.position ≠ .atEnd) (hs : s.search ≠ "") :
    s.isNoop = true ↔ s.add = "" := by
  rw [isNoop_iff, if_neg hp]
  exact or_iff_left hs

theorem isSome_place?_iff {s : Search} (hp : s.position ≠ .atEnd) {w : List Char} :
    (s.place? w).isSome ↔ s.search.toList <:+: w := by
  rw [place?_of_ne_atEnd hp, Text.infix_of_cut?]

section
variable {x : ErrorPolicy × Step} {s : Search} (he : x.2.effective = .ok s) (hl : s.IsLiteral)
  (hn : ¬ s.isNoop) (rest : List (ErrorPolicy × Step)) {w : Work}
include he hl hn

theorem decides_absent (hw : s.place? w.text = none) :
    let w' := runStep path theme x.1 w x.2
    (x.1 = .fatal → Refused w w'
      ⟨some path, theme, .failure (outcomeWith x.2 (.notFound s.search))⟩ p
      (finish path theme b o existed p
        (rest.foldl (fun w x => runStep path theme x.1 w x.2) w').shown)) ∧
    (x.1 ≠ .fatal → Passed path theme w w' ∧ w'.text = w.text) := by
  intro w'
  have hstep : w' = _ := runStep_literal path theme he hl w
  rw [if_neg hn] at hstep
  unfold atPlace at hstep
  rw [hw] at hstep
  cases hpolicy : x.1 with
  | fatal =>
    rw [hpolicy] at hstep
    rw [hstep]
    exact ⟨fun _ => refused_record rest w rfl, fun hne => absurd rfl hne⟩
  | required | ignore =>
    rw [hpolicy] at hstep
    rw [hstep]
    exact ⟨nofun,
      fun _ => ⟨passed_record w rfl w.text, text_record path theme ..⟩⟩

theorem decides_present {hit : List Char × List Char} (hw : s.place? w.text = some hit) :
    let w' := runStep path theme x.1 w x.2
    (x.1 = .required → Refused w w'
      ⟨some path, theme, .failure (outcomeWith x.2 (.alreadyPresent s.search))⟩ p
      (finish path theme b o existed p
        (rest.foldl (fun w x => runStep path theme x.1 w x.2) w').shown)) ∧
    (x.1 ≠ .required → Passed path theme w w') := by
  intro w'
  have hstep : w' = _ := runStep_literal path theme he hl w
  rw [if_neg hn] at hstep
  unfold atPlace at hstep
  rw [hw] at hstep
  cases hpolicy : x.1 with
  | required =>
    rw [hpolicy] at hstep
    rw [hstep]
    exact ⟨fun _ => refused_record rest w rfl, fun hne => absurd rfl hne⟩
  | fatal | ignore =>
    rw [hpolicy] at hstep
    rw [hstep]
    exact ⟨nofun, fun _ => passed_record w rfl _⟩

end

/-- What a policy decides of a literal search that adds something at its place: a text that must not
be there, or that must be there, is refused exactly when it is or is not in the text that the
earlier searches left. Without an addition nothing is decided, and nothing happens. -/
theorem policy_decides (theme : Nat) {block : Document} {done rest : List (ErrorPolicy × Step)}
    {x : ErrorPolicy × Step} (hs : subject? p block path = some (text, existed))
    (ho : o.undo = false) (hsteps : agenda (operations false block) = done ++ x :: rest)
    (hx : x.2.written.IsLiteral) (hp : x.2.written.position ≠ .atEnd)
    (hne : x.2.written.search ≠ "") :
    let s := x.2.written
    let w := done.foldl (fun w x => runStep path theme x.1 w x.2) (opened path theme text p)
    let w' := runStep path theme x.1 w x.2
    let result := applyBlock b o block path theme p
    result = finish path theme b o existed p
      (rest.foldl (fun w x => runStep path theme x.1 w x.2) w').shown ∧
    (s.add = "" → w' = w) ∧
    (s.add ≠ "" →
      (x.1 = .required →
        (s.search.toList <:+: w.text → Refused w w'
          ⟨some path, theme, .failure (outcomeWith x.2 (.alreadyPresent s.search))⟩ p result) ∧
        (¬ s.search.toList <:+: w.text → Passed path theme w w' ∧ w'.text = w.text)) ∧
      (x.1 = .fatal →
        (¬ s.search.toList <:+: w.text → Refused w w'
          ⟨some path, theme, .failure (outcomeWith x.2 (.notFound s.search))⟩ p result) ∧
        (s.search.toList <:+: w.text → Passed path theme w w')) ∧
      (x.1 = .ignore → Passed path theme w w')) := by
  intro s w w' result
  have hresult : result = finish path theme b o existed p
      (rest.foldl (fun w x => runStep path theme x.1 w x.2) w').shown := by
    unfold result w' w
    rw [applyBlock_of_subject? path theme hs, patchText_eq_finish, ho, hsteps, List.foldl_append,
      List.foldl_cons]
  have he : x.2.effective = .ok s := effective_of_mem_applied (by rw [hsteps]; simp)
  have hnoop : s.isNoop = true ↔ s.add = "" := isNoop_of_ne_atEnd hp hne
  refine ⟨hresult, fun hadd => ?_, fun hadd => ?_⟩
  · exact (runStep_literal path theme he hx w).trans (if_pos (hnoop.2 hadd))
  rw [hresult]
  have hplace : (s.place? w.text).isSome ↔ s.search.toList <:+: w.text := isSome_place?_iff hp
  have hn : ¬ s.isNoop := fun h => hadd (hnoop.1 h)
  cases hw : s.place? w.text with
  | none =>
    obtain ⟨hfatal, hother⟩ := decides_absent (b := b) (o := o) (p := p) he hx hn rest hw
    rw [hw] at hplace
    have hout : ¬ s.search.toList <:+: w.text := fun hin => nomatch hplace.2 hin
    exact ⟨fun hr => ⟨fun hin => absurd hin hout, fun _ => hother (by simp [hr])⟩,
      fun hf => ⟨fun _ => hfatal hf, fun hin => absurd hin hout⟩,
      fun hi => (hother (by simp [hi])).1⟩
  | some hit =>
    obtain ⟨hrequired, hother⟩ := decides_present (b := b) (o := o) (p := p) he hx hn rest hw
    rw [hw] at hplace
    have hin : s.search.toList <:+: w.text := hplace.1 rfl
    exact ⟨fun hr => ⟨fun _ => hrequired hr, fun hout => absurd hin hout⟩,
      fun hf => ⟨fun hout => absurd hin hout, fun _ => hother (by simp [hf])⟩,
      fun hi => hother (by simp [hi])⟩

def guardOf (fields : List (String × Toml)) : Toml :=
  .table (("error", .string "required") :: fields)

def guardedBlock : Document :=
  ⟨.table [("operation", .array
    [.table [("add", .string "b"), ("search", .string "a")],
      guardOf [("add", .string "x"), ("search", searchAfter "b")]])]⟩

theorem policy_decides_guarded :
    subject? (oneFile "ac") guardedBlock ⟨"/f"⟩ = some ("ac".toList, true) ∧
      agenda (operations false guardedBlock) =
        [(.fatal, ⟨.literal .replace "a" "b", .ok (.literal .replace "a" "b")⟩)] ++
          (.required, ⟨.literal .after "b" "x", .ok (.literal .after "b" "x")⟩) :: [] ∧
      [⟨some ⟨"/f"⟩, 0, .opened⟩, ⟨some ⟨"/f"⟩, 0, .replace (.succeeded "a" "b" .replace)⟩,
        ⟨some ⟨"/f"⟩, 0, .failure (.ofProblem "b" "x" .after (.alreadyPresent "b"))⟩] <+:
        (applyBlock bareBoard ⟨false, false⟩ guardedBlock ⟨"/f"⟩ 0 (oneFile "ac")).report.events ∧
      (applyBlock bareBoard ⟨false, false⟩ guardedBlock ⟨"/f"⟩ 0
        (oneFile "ac")).report.everythingFound = false ∧
      (applyBlock bareBoard ⟨false, false⟩ guardedBlock ⟨"/f"⟩ 0 (oneFile "ac")).site =
        (oneFile "ac").site := by
  have hs : subject? (oneFile "ac") guardedBlock ⟨"/f"⟩ = some ("ac".toList, true) := by decide
  have hsteps : agenda (operations false guardedBlock) =
      [(.fatal, ⟨.literal .replace "a" "b", .ok (.literal .replace "a" "b")⟩)] ++
        (.required, ⟨.literal .after "b" "x", .ok (.literal .after "b" "x")⟩) :: [] := rfl
  have hbefore : [((.fatal, ⟨.literal .replace "a" "b", .ok (.literal .replace "a" "b")⟩) :
      ErrorPolicy × Step)].foldl (fun w x => runStep ⟨"/f"⟩ 0 x.1 w x.2)
        (opened ⟨"/f"⟩ 0 "ac".toList (oneFile "ac")) =
      (opened ⟨"/f"⟩ 0 "ac".toList (oneFile "ac")).record ⟨"/f"⟩ 0 (.succeeded "a" "b" .replace)
        "bc".toList := by
    rw [List.foldl_cons, List.foldl_nil, runStep_literal _ _ rfl ⟨rfl, rfl⟩]
    rfl
  obtain ⟨-, -, hdecides⟩ := policy_decides (b := bareBoard) (o := ⟨false, false⟩) 0 hs rfl
    hsteps ⟨rfl, rfl⟩ (by decide) (by decide)
  obtain ⟨-, hevents, hfound, hsite⟩ := ((hdecides (by decide)).1 rfl).1 (by
    rw [hbefore]
    exact ⟨[], "c".toList, rfl⟩)
  rw [hbefore] at hevents
  exact ⟨hs, hsteps, hevents, hfound, hsite⟩

def unguardedBlock (add : List (String × Toml)) : Document :=
  ⟨.table [("operation", guardOf (add ++ [("search", .string "a")]))]⟩

/-- A text that must not be there is there, and nothing fails where no addition is written, or an
empty one. -/
theorem unguarded_without_addition :
    subject? (oneFile "a") (unguardedBlock []) ⟨"/f"⟩ = some ("a".toList, true) ∧
      agenda (operations false (unguardedBlock [])) =
        [(.required, ⟨.literal .replace "a" "", .ok (.literal .replace "a" "")⟩)] ∧
      (applyBlock bareBoard ⟨false, false⟩ (unguardedBlock []) ⟨"/f"⟩ 0 (oneFile "a")).report =
        ⟨[⟨some ⟨"/f"⟩, 0, .opened⟩, ⟨some ⟨"/f"⟩, 0, .saved⟩], true⟩ ∧
      agenda (operations false (unguardedBlock [("add", .string "")])) =
        [(.required, ⟨.literal .replace "a" "", .ok (.literal .replace "a" "")⟩)] ∧
      (applyBlock bareBoard ⟨false, false⟩ (unguardedBlock [("add", .string "")]) ⟨"/f"⟩ 0
        (oneFile "a")).report =
          ⟨[⟨some ⟨"/f"⟩, 0, .opened⟩, ⟨some ⟨"/f"⟩, 0, .saved⟩], true⟩ :=
  ⟨by decide, rfl, by decide, rfl, by decide⟩

end Patchboard.Modification
