import Patchboard.Proofs.Patch.Block
import Patchboard.Proofs.Search.Hidden

set_option autoImplicit false

/-!
A block of literal searches changes a file the way it reads: one search after the other, each on the
text that the earlier ones left. The dollar signs and backslashes that were added on the way stay
hidden until the file is final, so this holds as long as no search has to find one of them, and at
the first search that has to, it fails.
-/

namespace Patchboard

namespace Search

instance (s : Search) : Decidable s.IsLiteral :=
  decidable_of_iff (s.isPattern = false ∧ s.loose = false)
    ⟨fun h => ⟨h.1, h.2⟩, fun h => ⟨h.noPattern, h.noLoose⟩⟩

theorem reversed_literal {s : Search} (h : s.IsLiteral) :
    ∃ r, s.reversed = .ok r ∧ r.IsLiteral := by
  unfold reversed
  rw [if_neg (by simp [h.noPattern])]
  exact ⟨_, rfl, rfl, h.noLoose⟩

structure IsPlain (s : Search) : Prop where
  literal : s.IsLiteral
  search : Clear s.search.toList
  add : Clear s.add.toList

instance (s : Search) : Decidable s.IsPlain :=
  decidable_of_iff
    ((s.isPattern = false ∧ s.loose = false) ∧ Clear s.search.toList ∧ Clear s.add.toList)
    ⟨fun h => ⟨⟨h.1.1, h.1.2⟩, h.2.1, h.2.2⟩,
      fun h => ⟨⟨h.literal.noPattern, h.literal.noLoose⟩, h.search, h.add⟩⟩

theorem reversed_plain {s : Search} (h : s.IsPlain) : ∃ r, s.reversed = .ok r ∧ r.IsPlain := by
  have hp : ¬ s.isPattern = true := by simp [h.literal.noPattern]
  unfold reversed
  rw [if_neg hp]
  have hsearch := h.search
  have hadd := h.add
  cases hpos : s.position with
  | replace => exact ⟨_, rfl, ⟨rfl, h.literal.noLoose⟩, hadd, hsearch⟩
  | before =>
    refine ⟨_, rfl, ⟨rfl, h.literal.noLoose⟩, ?_, hsearch⟩
    rw [String.toList_append]
    exact clear_append.2 ⟨hadd, hsearch⟩
  | after =>
    refine ⟨_, rfl, ⟨rfl, h.literal.noLoose⟩, ?_, hsearch⟩
    rw [String.toList_append]
    exact clear_append.2 ⟨hsearch, hadd⟩
  | atEnd => exact ⟨_, rfl, ⟨rfl, h.literal.noLoose⟩, hadd, (by decide : Clear [])⟩

end Search

namespace Modification
open Search

def atPlace (policy : ErrorPolicy) (s : Step) (search : Search) (add text : List Char) :
    Outcome × List Char :=
  match policy, search.place? text with
  | .fatal, none => (outcomeWith s (.notFound search.search), text)
  | .required, none => (outcomeOf s, text)
  | .ignore, none => ({ outcomeWith s (.notFound search.search) with ignoreFailure := true }, text)
  | .required, some _ => (outcomeWith s (.alreadyPresent search.search), text)
  | _, some (before, after) =>
    (outcomeOf s, edited search.position before search.search.toList after add)

def plainStep (path : Path) (theme : Nat) (policy : ErrorPolicy) (w : Work) (s : Step) : Work :=
  match s.effective with
  | .error problem =>
    if policy = .fatal then w.record path theme (outcomeWith s problem) w.text else w
  | .ok search =>
    if search.isNoop then w
    else
      let (outcome, text) := atPlace policy s search search.add.toList w.text
      w.record path theme outcome text

/-- The searches of a block one after the other, each on the plain text that the earlier ones
left. -/
def plainWork (undo : Bool) (block : Document) (path : Path) (theme : Nat) (w : Work) : Work :=
  (operations undo block).foldl
    (fun w operation => operation.steps.foldl (plainStep path theme operation.policy) w) w

/-- Changes a text as it reads, and saves it unless something failed. -/
def plainPatch (b : Board) (o : PatchOptions) (block : Document) (path : Path) (theme : Nat)
    (text : List Char) (existed : Bool) (p : Progress) : Progress :=
  let w := plainWork o.undo block path theme ⟨text, false, p.report.note path theme .opened⟩
  let p := { p with report := w.report }
  if w.failed then p else Save.save b o path theme w.text existed p

/-- A block of literal searches whose texts hide nothing. -/
def IsPlainBlock (block : Document) : Prop :=
  ∀ operation ∈ block.children "." "operation", ∀ node ∈ operation.children "." "search",
    (Search.ofNode node (operation.fetch "add")).IsPlain

instance (block : Document) : Decidable (IsPlainBlock block) :=
  inferInstanceAs (Decidable (∀ operation ∈ block.children "." "operation",
    ∀ node ∈ operation.children "." "search",
      (Search.ofNode node (operation.fetch "add")).IsPlain))

theorem effective_plain {block : Document} (h : IsPlainBlock block) (undo : Bool) :
    ∀ x ∈ agenda (operations undo block), ∃ search, x.2.effective = .ok search ∧
      search.IsPlain :=
  effective_of_reversed (fun _ hs => reversed_plain hs) h undo

def textAfter (w : List Char) (x : ErrorPolicy × Step) : List Char :=
  match x.2.effective with
  | .error _ => w
  | .ok search => if search.isNoop then w else (applySearch x.1 x.2 search w).2

/-- Nothing hidden stands where a search applies to what a text shows. A search that must not be
found only has to be found somewhere. -/
def Visible (policy : ErrorPolicy) (search : Search) (w : List Char) : Prop :=
  ∀ hit ∈ search.place? (revealed w),
    if policy = .required then (search.place? w).isSome
    else Clear ((w.drop hit.1.length).take search.search.toList.length)

instance (policy : ErrorPolicy) (search : Search) (w : List Char) :
    Decidable (Visible policy search w) :=
  inferInstanceAs (Decidable (∀ hit ∈ search.place? (revealed w),
    if policy = .required then (search.place? w).isSome
    else Clear ((w.drop hit.1.length).take search.search.toList.length)))

/-- Nothing hides from the searches that are carried out one after the other on a text. -/
def InSight : List (ErrorPolicy × Step) → List Char → Prop
  | [], _ => True
  | x :: steps, w =>
    (∀ search, x.2.effective = .ok search → search.isNoop = false → Visible x.1 search w) ∧
      InSight steps (textAfter w x)

/-- A search overlooks the place where it applies to what is shown: it applies nowhere, or further
on. -/
def Overlooks (search : Search) (w : List Char) : Prop :=
  ∃ before after, search.place? (revealed w) = some (before, after) ∧
    ∀ hit, search.place? w = some hit → before.length < hit.1.length

theorem applySearch_literal {search : Search} (h : search.IsLiteral) (policy : ErrorPolicy)
    (s : Step) (w : List Char) :
    applySearch policy s search w = atPlace policy s search (hidden search.add.toList) w := by
  have hfound := isFound_literal search w
  unfold applySearch atPlace
  rw [compile_literal h]
  dsimp only
  rw [hfound]
  cases hp : search.place? w with
  | none => cases policy <;> rfl
  | some hit => cases policy <;> simp [applyOnce_literal_some hp]

theorem textAfter_literal {x : ErrorPolicy × Step} {search : Search}
    (he : x.2.effective = .ok search) (h : search.IsLiteral) (w : List Char) :
    textAfter w x =
      if search.isNoop then w else (atPlace x.1 x.2 search (hidden search.add.toList) w).2 := by
  unfold textAfter
  rw [he]
  dsimp only
  rw [applySearch_literal h]

theorem applySearch_plain {search : Search} (h : search.IsPlain) {policy : ErrorPolicy}
    (s : Step) {w : List Char} (hv : Visible policy search w) :
    atPlace policy s search search.add.toList (revealed w) =
      ((applySearch policy s search w).1, revealed (applySearch policy s search w).2) := by
  rw [applySearch_literal h.literal]
  cases hp : search.place? (revealed w) with
  | none =>
    have hn := place?_eq_none_of_revealed h.search hp
    cases policy <;> simp [atPlace, hp, hn]
  | some hit =>
    have hin := hv hit hp
    by_cases hr : policy = .required
    · rw [if_pos hr] at hin
      obtain ⟨hit', hw⟩ := Option.isSome_iff_exists.1 hin
      simp [atPlace, hr, hp, hw]
    · rw [if_neg hr] at hin
      obtain ⟨before, after, hw, hb, ha⟩ := place?_of_clear h.search hp hin
      have he : revealed (edited search.position before search.search.toList after
          (hidden search.add.toList)) = edited search.position hit.1 search.search.toList hit.2
          search.add.toList := by
        rw [revealed, map_edited, ← hb, ← ha]
        have hs := revealed_of_clear h.search
        have hd := revealed_hidden h.add
        unfold revealed at hs hd ⊢
        rw [hs, hd]
      cases policy with
      | required => exact absurd rfl hr
      | fatal | ignore => simp [atPlace, hp, hw, he]

theorem overlooks_of_not_visible {search : Search} (h : search.IsPlain) {policy : ErrorPolicy}
    {w : List Char} (hv : ¬ Visible policy search w) : Overlooks search w := by
  unfold Visible at hv
  simp only [Classical.not_forall] at hv
  obtain ⟨place, hp, hn⟩ := hv
  refine ⟨place.1, place.2, hp, fun hit hw => ?_⟩
  split at hn
  · simp [hw] at hn
  · exact lt_of_place?_of_not_clear h.search hp hn hw

variable (path : Path) (theme : Nat)

theorem shown_record (w : Work) (outcome : Outcome) (text : List Char) :
    (w.record path theme outcome text).shown =
      w.shown.record path theme outcome (revealed text) := by
  unfold Work.record
  split <;> rfl

theorem text_runStep (w : Work) (x : ErrorPolicy × Step) :
    (runStep path theme x.1 w x.2).text = textAfter w.text x := by
  unfold runStep textAfter
  cases x.2.effective with
  | error problem =>
    dsimp only
    split
    · exact text_record ..
    · rfl
  | ok search =>
    dsimp only
    split
    · rfl
    · exact text_record ..

theorem runStep_literal {x : ErrorPolicy × Step} {search : Search}
    (he : x.2.effective = .ok search) (h : search.IsLiteral) (w : Work) :
    runStep path theme x.1 w x.2 =
      if search.isNoop then w
      else w.record path theme (atPlace x.1 x.2 search (hidden search.add.toList) w.text).1
        (atPlace x.1 x.2 search (hidden search.add.toList) w.text).2 := by
  unfold runStep
  rw [he]
  dsimp only
  rw [applySearch_literal h]

theorem shown_runStep {x : ErrorPolicy × Step} {search : Search}
    (he : x.2.effective = .ok search) (hp : search.IsPlain) {w : Work}
    (hv : search.isNoop = false → Visible x.1 search w.text) :
    (runStep path theme x.1 w x.2).shown = plainStep path theme x.1 w.shown x.2 := by
  unfold runStep plainStep
  rw [he]
  dsimp only
  cases hn : search.isNoop with
  | true => rfl
  | false =>
    have ha := applySearch_plain hp x.2 (hv hn)
    have ht : w.shown.text = revealed w.text := rfl
    rw [if_neg (by simp), if_neg (by simp), ht, ha]
    exact shown_record ..

theorem shown_foldl {steps : List (ErrorPolicy × Step)}
    (hs : ∀ x ∈ steps, ∃ search, x.2.effective = .ok search ∧ search.IsPlain) {w : Work}
    (hi : InSight steps w.text) :
    (steps.foldl (fun w x => runStep path theme x.1 w x.2) w).shown =
      steps.foldl (fun w x => plainStep path theme x.1 w x.2) w.shown := by
  induction steps generalizing w with
  | nil => rfl
  | cons x steps ih =>
    obtain ⟨search, he, hp⟩ := hs x (List.mem_cons_self ..)
    obtain ⟨hv, hi⟩ := hi
    rw [← text_runStep path theme] at hi
    rw [List.foldl_cons, ih (fun y hy => hs y (List.mem_cons_of_mem _ hy)) hi,
      shown_runStep path theme he hp (hv search he), List.foldl_cons]

theorem text_foldl (steps : List (ErrorPolicy × Step)) (w : Work) :
    (steps.foldl (fun w x => runStep path theme x.1 w x.2) w).text =
      steps.foldl textAfter w.text := by
  induction steps generalizing w with
  | nil => rfl
  | cons x steps ih => rw [List.foldl_cons, ih, text_runStep, List.foldl_cons]

theorem exists_of_not_inSight {steps : List (ErrorPolicy × Step)} {w : List Char}
    (h : ¬ InSight steps w) : ∃ done x rest search, steps = done ++ x :: rest ∧
      InSight done w ∧ x.2.effective = .ok search ∧ search.isNoop = false ∧
      ¬ Visible x.1 search (done.foldl textAfter w) := by
  induction steps generalizing w with
  | nil => exact absurd trivial h
  | cons x steps ih =>
    by_cases hx : ∀ search, x.2.effective = .ok search → search.isNoop = false →
        Visible x.1 search w
    · obtain ⟨done, y, rest, search, he, hi, hy⟩ := ih fun hi => h ⟨hx, hi⟩
      exact ⟨x :: done, y, rest, search, by rw [he]; rfl, ⟨hx, hi⟩, hy⟩
    · simp only [Classical.not_forall] at hx
      obtain ⟨search, he, hn, hv⟩ := hx
      exact ⟨[], x, steps, search, rfl, trivial, he, hn, hv⟩

theorem events_prefix_plainStep (w : Work) (x : ErrorPolicy × Step) :
    w.report.events <+: (plainStep path theme x.1 w x.2).report.events := by
  unfold plainStep
  split
  · split
    · rw [events_record]
      exact List.prefix_append ..
    · exact List.prefix_refl _
  · split
    · exact List.prefix_refl _
    · dsimp only
      rw [events_record]
      exact List.prefix_append ..

theorem shown_opened {text : List Char} (h : Clear text) (p : Progress) :
    (opened path theme text p).shown = opened path theme text p := by
  show Work.mk (revealed text) _ _ = _
  rw [revealed_of_clear h]
  rfl

theorem plainPatch_eq_finish (b : Board) (o : PatchOptions) (block : Document) (text : List Char)
    (existed : Bool) (p : Progress) :
    plainPatch b o block path theme text existed p =
      finish path theme b o existed p ((agenda (operations o.undo block)).foldl
        (fun w x => plainStep path theme x.1 w x.2) (opened path theme text p)) := by
  rw [foldl_agenda (plainStep path theme)]
  rfl

theorem failed_atPlace (policy : ErrorPolicy) (s : Step) (search : Search) (add text : List Char) :
    (atPlace policy s search add text).1.failed =
      if policy = .required then (search.place? text).isSome
      else (search.place? text).isNone := by
  unfold atPlace
  cases policy <;> cases search.place? text <;> rfl

theorem events_runStep {x : ErrorPolicy × Step} {search : Search}
    (he : x.2.effective = .ok search) (hn : search.isNoop = false) (w : Work) :
    (runStep path theme x.1 w x.2).report.events = w.report.events ++
      [⟨some path, theme, kindOf (applySearch x.1 x.2 search w.text).1⟩] := by
  unfold runStep
  rw [he]
  dsimp only
  rw [if_neg (by simp [hn]), events_record]

theorem events_plainStep {x : ErrorPolicy × Step} {search : Search}
    (he : x.2.effective = .ok search) (hn : search.isNoop = false) (w : Work) :
    (plainStep path theme x.1 w x.2).report.events = w.report.events ++
      [⟨some path, theme, kindOf (atPlace x.1 x.2 search search.add.toList w.text).1⟩] := by
  unfold plainStep
  rw [he]
  dsimp only
  rw [if_neg (by simp [hn]), events_record]

theorem outcome_ne {policy : ErrorPolicy} {s : Step} {search : Search} {w : List Char}
    (h : search.IsLiteral) (hshown : (search.place? (revealed w)).isSome)
    (hnone : search.place? w = none) :
    (applySearch policy s search w).1 ≠
      (atPlace policy s search search.add.toList (revealed w)).1 := by
  intro heq
  have hf := congrArg Outcome.failed heq
  obtain ⟨hit, hshown⟩ := Option.isSome_iff_exists.1 hshown
  rw [applySearch_literal h, failed_atPlace, failed_atPlace, hnone, hshown] at hf
  split at hf <;> simp at hf

theorem next_unique {α : Type} {l all : List α} {x y : α} (hx : l ++ [x] <+: all)
    (hy : l ++ [y] <+: all) : x = y := by
  have hlength : (l ++ [x]).length = (l ++ [y]).length := by simp
  have hsame := (List.prefix_of_prefix_length_le hx hy (Nat.le_of_eq hlength)).eq_of_length hlength
  have hlast := List.append_cancel_left hsame
  exact List.head_eq_of_cons_eq hlast

theorem report_ne {b : Board} {o : PatchOptions} {block : Document} {text : List Char}
    {existed : Bool} {p : Progress} (hb : IsPlainBlock block) (ht : Clear text)
    {done rest : List (ErrorPolicy × Step)} {x : ErrorPolicy × Step} {search : Search}
    (hsteps : agenda (operations o.undo block) = done ++ x :: rest) (hi : InSight done text)
    (he : x.2.effective = .ok search) (hn : search.isNoop = false)
    (hshown : (search.place? (revealed (done.foldl textAfter text))).isSome)
    (hnone : search.place? (done.foldl textAfter text) = none) :
    (patchText b o block path theme text existed p).report ≠
      (plainPatch b o block path theme text existed p).report := by
  have hplain := effective_plain hb o.undo
  rw [hsteps] at hplain
  obtain ⟨search', he', hp⟩ := hplain x (by simp)
  cases he.symm.trans he'
  let start := opened path theme text p
  let w := done.foldl (fun w x => runStep path theme x.1 w x.2) start
  have hw : w.text = done.foldl textAfter text := text_foldl path theme done start
  have hstart : start.shown = start := shown_opened path theme ht p
  have hv : done.foldl (fun w x => plainStep path theme x.1 w x.2) start = w.shown := by
    rw [shown_foldl path theme (fun y hy => hplain y (by simp [hy])) hi, hstart]
  -- both reports go on after the same events, with what either makes of the search
  have hcode := (events_prefix_foldl (events_prefix_runStep path theme) rest
    (runStep path theme x.1 w x.2)).trans
      (events_prefix_finish path theme b o existed p (Work.shown _))
  have hread := (events_prefix_foldl (events_prefix_plainStep path theme) rest
    (plainStep path theme x.1 w.shown x.2)).trans (events_prefix_finish path theme b o existed p _)
  intro heq
  rw [patchText_eq_finish, plainPatch_eq_finish, hsteps, List.foldl_append, List.foldl_cons,
    List.foldl_append, List.foldl_cons, hv] at heq
  rw [events_runStep path theme he hn, heq] at hcode
  rw [events_plainStep path theme he hn] at hread
  have hkind := congrArg Event.kind (next_unique hcode hread)
  rw [← hw] at hshown hnone
  exact outcome_ne hp.literal hshown hnone (kindOf_inj hkind)

/-- What a block is applied to: the text of its file, or nothing when a missing file is to be
ignored; and whether the file is there. -/
def subject? (p : Progress) (block : Document) (path : Path) : Option (List Char × Bool) :=
  if p.site.tree.isFile path then
    (p.site.tree.text? path).toOption.map fun text => (text.toList, true)
  else if MissingFile.parse (block.fetch? "@error") = .ignore then some ([], false)
  else none

theorem applyBlock_of_subject? {b : Board} {o : PatchOptions} {block : Document} {p : Progress}
    {text : List Char} {existed : Bool} (h : subject? p block path = some (text, existed)) :
    applyBlock b o block path theme p = patchText b o block path theme text existed p := by
  unfold subject? at h
  unfold applyBlock
  split at h
  · rename_i hf
    rw [if_pos hf]
    cases ht : p.site.tree.text? path with
    | error failure => simp [ht, Except.toOption] at h
    | ok read =>
      simp only [ht, Except.toOption, Option.map_some, Option.some.injEq, Prod.mk.injEq] at h
      rw [← h.1, ← h.2]
  · rename_i hf
    rw [if_neg hf]
    split at h
    · rename_i hm
      cases h
      rw [hm]
    · simp at h

/-- A block of literal searches does what it does on plain text, as long as nothing hides from its
searches. At the first search that something hides from, the report differs, or the search changes
the text further on than where it applies to what is shown. -/
theorem applyBlock_sequential {b : Board} {o : PatchOptions} {block : Document} {path : Path}
    {theme : Nat} {p : Progress} {text : List Char} {existed : Bool} (hb : IsPlainBlock block)
    (hs : subject? p block path = some (text, existed)) (ht : Clear text) :
    (InSight (agenda (operations o.undo block)) text →
      applyBlock b o block path theme p = plainPatch b o block path theme text existed p) ∧
    (¬ InSight (agenda (operations o.undo block)) text →
      (applyBlock b o block path theme p).report ≠
        (plainPatch b o block path theme text existed p).report ∨
      ∃ done x rest search before after c f,
        agenda (operations o.undo block) = done ++ x :: rest ∧ InSight done text ∧
        x.1 ≠ .required ∧ x.2.effective = .ok search ∧ search.isNoop = false ∧
        search.place? (revealed (done.foldl textAfter text)) = some (before, after) ∧
        search.compile = .ok c ∧ c.node.find? (done.foldl textAfter text) = some f ∧
        before.length < f.before.length) := by
  rw [applyBlock_of_subject? path theme hs]
  refine ⟨fun hi => ?_, fun hi => ?_⟩
  · rw [patchText_eq_finish, plainPatch_eq_finish,
      shown_foldl path theme (effective_plain hb o.undo) hi, shown_opened path theme ht]
  · obtain ⟨done, x, rest, search, hsteps, hd, he, hn, hv⟩ := exists_of_not_inSight hi
    have hplain := effective_plain hb o.undo
    rw [hsteps] at hplain
    obtain ⟨search', he', hp⟩ := hplain x (by simp)
    cases he.symm.trans he'
    obtain ⟨before, after, hshown, hlater⟩ := overlooks_of_not_visible hp hv
    cases hw : search.place? (done.foldl textAfter text) with
    | none => exact .inl (report_ne path theme hb ht hsteps hd he hn (by rw [hshown]; rfl) hw)
    | some hit =>
      obtain ⟨f, hf, hbefore, -⟩ := find?_literalNode_some hw
      have hr : x.1 ≠ .required := fun hr => hv fun _ _ => by
        rw [if_pos hr, hw]
        rfl
      have hlt := hlater hit hw
      rw [← hbefore] at hlt
      exact .inr ⟨done, x, rest, search, before, after, _, f, hsteps, hd, hr, he, hn, hshown,
        compile_literal hp.literal, hf, hlt⟩

def oneFile (text : String) : Progress :=
  ⟨⟨⟨[(["f"], .file (.text text) 0o644)], []⟩, .listed [] false false⟩, .empty⟩

def bareBoard : Board := ⟨.empty, [], none, false⟩

def blockOf (add : String) (searches : List Toml) : Document :=
  ⟨.table [("operation", .table [("add", .string add), ("search", .array searches)])]⟩

def searchAfter (text : String) : Toml :=
  .table [("position", .string "after"), ("text", .string text)]

def chainBlock : Document := blockOf "c(\\d" [searchAfter "c(", .string "b"]

theorem applyBlock_sequential_chain :
    subject? (oneFile "a(b") chainBlock ⟨"/f"⟩ = some ("a(b".toList, true) ∧
      InSight (agenda (operations false chainBlock)) "a(b".toList ∧
      applyBlock bareBoard ⟨false, false⟩ chainBlock ⟨"/f"⟩ 0 (oneFile "a(b") =
        plainPatch bareBoard ⟨false, false⟩ chainBlock ⟨"/f"⟩ 0 "a(b".toList true
          (oneFile "a(b") := by
  have hs : subject? (oneFile "a(b") chainBlock ⟨"/f"⟩ = some ("a(b".toList, true) := by decide
  have hi : InSight (agenda (operations false chainBlock)) "a(b".toList := by
    have hsteps : agenda (operations false chainBlock) =
        [(.fatal, ⟨.literal .replace "b" "c(\\d", .ok (.literal .replace "b" "c(\\d")⟩),
          (.fatal, ⟨.literal .after "c(" "c(\\d", .ok (.literal .after "c(" "c(\\d")⟩)] := rfl
    rw [hsteps, InSight, InSight, textAfter_literal rfl ⟨rfl, rfl⟩]
    refine ⟨fun search he _ => ?_, fun search he _ => ?_, trivial⟩
    · cases he
      decide
    · cases he
      decide
  exact ⟨hs, hi, (applyBlock_sequential (by decide) hs (by decide)).1 hi⟩

/-- Two searches, of which the second is to find the dollar sign that the first one added. -/
def dollarBlock : Document := blockOf "$x" [.string "a", searchAfter "$x"]

theorem applyBlock_dollar :
    IsPlainBlock dollarBlock ∧ Clear "a".toList ∧
      subject? (oneFile "a") dollarBlock ⟨"/f"⟩ = some ("a".toList, true) ∧
      (applyBlock bareBoard ⟨false, false⟩ dollarBlock ⟨"/f"⟩ 0
        (oneFile "a")).report.everythingFound = false ∧
      (plainPatch bareBoard ⟨false, false⟩ dollarBlock ⟨"/f"⟩ 0 "a".toList true
        (oneFile "a")).report.everythingFound = true := by
  have hs : subject? (oneFile "a") dollarBlock ⟨"/f"⟩ = some ("a".toList, true) := by decide
  refine ⟨by decide, by decide, hs, ?_, by decide⟩
  have hsteps : agenda (operations false dollarBlock) =
      [(.fatal, ⟨.literal .replace "a" "$x", .ok (.literal .replace "a" "$x")⟩),
        (.fatal, ⟨.literal .after "$x" "$x", .ok (.literal .after "$x" "$x")⟩)] := rfl
  rw [applyBlock_of_subject? _ _ hs, patchText_eq_finish, hsteps, List.foldl_cons, List.foldl_cons,
    List.foldl_nil, runStep_literal _ _ rfl ⟨rfl, rfl⟩, runStep_literal _ _ rfl ⟨rfl, rfl⟩]
  decide

end Modification

end Patchboard
