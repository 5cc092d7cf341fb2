import Patchboard.Proofs.Patch.DryRun
import Patchboard.Proofs.Patch.Revision

set_option autoImplicit false

/-!
The searches of a stream and the edits that consume them. As long as nothing fails, searches and
edits alternate in the group of a file. Only the last search of a group may be left without an edit:
the next file, or the end of the stream, drops it and says nothing.
-/

namespace Patchboard

namespace TokenKind

def isSearch (k : TokenKind) : Bool := k = .search

def isEdit (k : TokenKind) : Bool := k ≠ .search && k ≠ .file

end TokenKind

namespace Boardmod

structure Exchange where
  search : Token
  edit : Token
  isSearch : search.kind.isSearch = true
  isEdit : edit.kind.isEdit = true

namespace Exchange

def tokens (x : Exchange) : List Token := [x.search, x.edit]

def kind (x : Exchange) : EventKind :=
  .replace (.succeeded (String.ofList x.search.text) (String.ofList x.edit.text)
    x.edit.kind.position)

end Exchange

/-- A file with exchanges, and after them perhaps a search that no edit consumes. -/
structure Group where
  head : Token
  path : Path
  exchanges : List Exchange
  waiting : Option Token
  names : fileOf? head = some path
  waits : ∀ t ∈ waiting, t.kind.isSearch = true

namespace Group

def body (g : Group) : List Token := g.exchanges.flatMap Exchange.tokens ++ g.waiting.toList

def tokens (g : Group) : List Token := g.head :: g.body

/-- The events of the edits. -/
def replaces (g : Group) : List Event :=
  g.exchanges.map fun x => ⟨some g.path, g.head.theme, x.kind⟩

end Group

/-- A token that does not fail is a search when no search waits, and else an edit that consumes it. -/
theorem obey_cases {undo : Bool} {t : Token} (ht : t.kind ≠ .file) {waiting : Option Token}
    {text : List Char}
    (h : ∀ kind ∈ (obey undo t (waiting.map (·.text)) text).1, kind.isFailure = false) :
    (waiting = none ∧ t.kind.isSearch = true ∧
      obey undo t (waiting.map (·.text)) text = ([], some t.text, text)) ∨
    ∃ s next, waiting = some s ∧ t.kind.isEdit = true ∧
      obey undo t (waiting.map (·.text)) text =
        ([.replace (.succeeded (String.ofList s.text) (String.ofList t.text) t.kind.position)], none,
          next) := by
  unfold obey at h ⊢
  cases hk : t.kind with
  | file => exact absurd hk ht
  | search =>
    cases waiting with
    | none => exact .inl ⟨rfl, rfl, by simp⟩
    | some s => simp [hk, EventKind.isFailure] at h
  | insertBefore | insertAfter | replace =>
    cases waiting with
    | none => simp [hk, EventKind.isFailure] at h
    | some s =>
      refine .inr ⟨s, Text.replaceAll (exchange undo t s.text).1 (exchange undo t s.text).2 text,
        rfl, rfl, ?_⟩
      simp only [hk, Option.map_some] at h ⊢
      split
      · rfl
      · rename_i hfound
        simp [hfound, EventKind.isFailure] at h

theorem follow_exchanges {undo : Bool} {tokens : List Token} (hk : ∀ t ∈ tokens, t.kind ≠ .file)
    (waiting : Option Token) (hw : ∀ t ∈ waiting, t.kind.isSearch = true) {text : List Char}
    (h : ∀ kind ∈ (follow undo tokens (waiting.map (·.text)) text).1, kind.isFailure = false) :
    ∃ (exchanges : List Exchange) (rest : Option Token),
      (∀ t ∈ rest, t.kind.isSearch = true) ∧
      waiting.toList ++ tokens = exchanges.flatMap Exchange.tokens ++ rest.toList ∧
      (follow undo tokens (waiting.map (·.text)) text).1 = exchanges.map Exchange.kind := by
  induction tokens generalizing waiting text with
  | nil => exact ⟨[], waiting, hw, by simp, rfl⟩
  | cons t tokens ih =>
    obtain ⟨ht, hrest⟩ := List.forall_mem_cons.1 hk
    rw [follow] at h ⊢
    obtain ⟨hfirst, hnext⟩ := List.forall_mem_append.1 h
    rcases obey_cases ht hfirst with ⟨rfl, hs, ho⟩ | ⟨s, next, rfl, he, ho⟩
    · rw [ho] at hnext ⊢
      exact ih hrest (some t) (by simpa using hs) hnext
    · rw [ho] at hnext ⊢
      obtain ⟨exchanges, rest, hr, htokens, hkinds⟩ := ih hrest none (by simp) hnext
      refine ⟨⟨s, t, hw s rfl, he⟩ :: exchanges, rest, hr, ?_, ?_⟩
      · simpa [Exchange.tokens] using htokens
      · exact congrArg (_ :: ·) hkinds

variable {b : Board} {o : PatchOptions}

/-- A run of a stream after which everything is found has opened its file and edited it without a
failure. -/
theorem carryOut_found {file : ThemeCopy} {body : List Token} {strays : List Event} {p : Progress}
    (h : ((⟨file, .stream body, strays⟩ : Run).carryOut b o p).report.everythingFound = true) :
    p.report.everythingFound = true ∧ ∃ text new,
      ((⟨file, .stream body, strays⟩ : Run).carryOut b o p).report = p.report.extend new ∧
      (∀ kind ∈ (follow o.undo body none text).1, kind.isFailure = false) ∧
      new.filter (·.kind.isReplace) = ((follow o.undo body none text).1.filter
        EventKind.isReplace).map (Event.mk (some file.path) file.theme) := by
  have hopen : ∃ text, (Edits.stream body).revise o.undo (p.site.tree.file? file.path) =
      .made true (follow o.undo body none text).1 (follow o.undo body none text).2 := by
    unfold Run.carryOut at h
    cases hf : p.site.tree.file? file.path with
    | none => simp [Edits.revise, hf, Progress.extend, Report.extend, Run.event,
        EventKind.isFailure] at h
    | some contents =>
      cases contents with
      | bytes value => simp [Edits.revise, hf, Progress.extend, Report.extend, Run.event,
          EventKind.isFailure] at h
      | text text => exact ⟨text.toList, rfl⟩
  obtain ⟨text, hrevise⟩ := hopen
  unfold Run.carryOut at h ⊢
  rw [hrevise] at h ⊢
  dsimp only at h ⊢
  split at h
  · rename_i hfail
    obtain ⟨kind, hkind, hk⟩ := List.any_eq_true.1 hfail
    have hnone := ((Report.everythingFound_extend _ _).1 h).2
      (Run.event ⟨file, .stream body, strays⟩ kind)
      (List.mem_map_of_mem (List.mem_cons_of_mem _ hkind))
    simp [Run.event, hk] at hnone
  · rename_i hfail
    rw [if_neg hfail]
    obtain ⟨saved, hsave, hreplace⟩ := Save.extends_save (b := b) (o := o) file.path file.theme
      (follow o.undo body none text).2 true (p.extend
        ((.opened :: (follow o.undo body none text).1).map (Run.event ⟨file, .stream body, strays⟩)))
    have hnew := hsave.trans (Report.extend_append ..).symm
    have hfound := h
    rw [hnew, Report.everythingFound_extend] at hfound
    refine ⟨hfound.1, text, _, hnew, by simpa using hfail, ?_⟩
    have hkeep : saved.filter (·.kind.isReplace) = [] :=
      List.filter_eq_nil_iff.2 fun e he => by simp [(hreplace e he).2.2.1]
    rw [List.filter_append, hkeep, List.append_nil, List.map_cons, List.filter_cons,
      List.filter_map]
    rfl

theorem ne_nil_of_mem_groups {tokens group : List Token} (hg : group ∈ groups tokens) :
    group ≠ [] := by
  induction tokens generalizing group with
  | nil => simp [groups] at hg
  | cons t tokens ih =>
    rw [groups] at hg
    split at hg
    · rw [List.mem_singleton.1 hg]
      simp
    · rename_i first more hrest
      rw [hrest] at ih
      split at hg
      · rcases List.mem_cons.1 hg with rfl | hg
        · simp
        · exact ih hg
      · rcases List.mem_cons.1 hg with rfl | hg
        · simp
        · exact ih (List.mem_cons_of_mem _ hg)

/-- A group after which everything is found is one of a file, with exchanges that are all carried
out. -/
theorem runGroup_found {tokens group : List Token} (hg : group ∈ groups tokens)
    (hp : ∀ t ∈ group, t.kind = .file → t.path.isSome) {p : Progress}
    (h : (runGroup b o p group).report.everythingFound = true) :
    p.report.everythingFound = true ∧ ∃ (g : Group) (new : List Event), group = g.tokens ∧
      (runGroup b o p group).report = p.report.extend new ∧
      new.filter (·.kind.isReplace) = g.replaces := by
  have hk := kind_ne_of_mem_tail hg
  cases group with
  | nil => exact absurd rfl (ne_nil_of_mem_groups hg)
  | cons head tail =>
    rw [List.tail_cons] at hk
    by_cases hh : head.kind = .file
    · obtain ⟨path, hpath⟩ := fileOf?_of_kind hh (hp head (List.mem_cons_self ..) hh)
      rw [runGroup_eq_carryOut hpath hk] at h ⊢
      obtain ⟨hfirst, text, new, hnew, hkinds, hreplaces⟩ := carryOut_found h
      rw [follow_bare] at hkinds hreplaces
      obtain ⟨exchanges, rest, hrest, htail, hmade⟩ :=
        follow_exchanges hk none (by simp) hkinds
      rw [Option.map_none] at hmade
      refine ⟨hfirst, ⟨head, path, exchanges, rest, hpath, hrest⟩, new, ?_, hnew, ?_⟩
      · simpa [Group.tokens, Group.body] using htail
      · have hall : (exchanges.map Exchange.kind).filter EventKind.isReplace =
            exchanges.map Exchange.kind :=
          List.filter_eq_self.2 (List.forall_mem_map.2 fun _ _ => rfl)
        rw [hreplaces, hmade, hall, List.map_map]
        rfl
    · have hstray : runGroup b o p (head :: tail) = p.extend ((head :: tail).map stray) := by
        unfold runGroup
        rw [foldl_advance_closed (List.forall_mem_cons.2 ⟨hh, hk⟩) rfl rfl]
        rfl
      rw [hstray] at h
      have hfail := ((Report.everythingFound_extend _ _).1 h).2 (stray head)
        (List.mem_map_of_mem (List.mem_cons_self ..))
      cases hfail

theorem foldl_runGroup_found {gs : List (List Token)}
    (hgroup : ∀ group ∈ gs, ∃ tokens, group ∈ groups tokens)
    (hp : ∀ group ∈ gs, ∀ t ∈ group, t.kind = .file → t.path.isSome) {p : Progress}
    (h : (gs.foldl (runGroup b o) p).report.everythingFound = true) :
    p.report.everythingFound = true ∧ ∃ (fs : List Group) (new : List Event),
      gs = fs.map Group.tokens ∧
      (gs.foldl (runGroup b o) p).report = p.report.extend new ∧
      new.filter (·.kind.isReplace) = fs.flatMap Group.replaces := by
  induction gs generalizing p with
  | nil => exact ⟨h, [], [], rfl, (Report.extend_nil _).symm, rfl⟩
  | cons group gs ih =>
    obtain ⟨⟨tokens, hg⟩, hgroups⟩ := List.forall_mem_cons.1 hgroup
    obtain ⟨hpath, hpaths⟩ := List.forall_mem_cons.1 hp
    rw [List.foldl_cons] at h ⊢
    obtain ⟨hnext, fs, rest, hfs, hrest, hreplaces⟩ := ih hgroups hpaths h
    obtain ⟨hfound, g, new, hgs, hnew, hreplace⟩ := runGroup_found hg hpath hnext
    refine ⟨hfound, g :: fs, new ++ rest, ?_, ?_, ?_⟩
    · rw [hgs, hfs]
      rfl
    · rw [hrest, hnew, Report.extend_append]
    · rw [List.filter_append, hreplace, hreplaces]
      rfl

namespace Group

theorem countP_tokens (g : Group) : g.tokens.countP (·.kind.isSearch) =
    g.replaces.length + g.waiting.toList.length := by
  have hhead : g.head.kind.isSearch = false := by rw [kind_of_fileOf? g.names]; rfl
  have hexchanges (exchanges : List Exchange) :
      (exchanges.flatMap Exchange.tokens).countP (·.kind.isSearch) = exchanges.length := by
    induction exchanges with
    | nil => rfl
    | cons x exchanges ih =>
      have hedit : x.edit.kind.isSearch = false := by
        have he := x.isEdit
        unfold TokenKind.isEdit at he
        simp_all [TokenKind.isSearch]
      rw [List.flatMap_cons, List.countP_append, ih]
      simp [Exchange.tokens, x.isSearch, hedit, Nat.add_comm]
  have hwaiting : g.waiting.toList.countP (·.kind.isSearch) = g.waiting.toList.length :=
    List.countP_eq_length.2 fun t ht => g.waits t (Option.mem_toList.1 ht)
  rw [tokens, body, List.countP_cons_of_neg (by simp [hhead]), List.countP_append, hexchanges,
    hwaiting, replaces, List.length_map]

theorem kind_last_ne {first : Token} (h : first.kind ≠ .search) (exchanges : List Exchange) :
    ∀ t ∈ (first :: exchanges.flatMap Exchange.tokens).getLast?, t.kind ≠ .search := by
  induction exchanges generalizing first with
  | nil => simpa using h
  | cons x exchanges ih =>
    have hedit : x.edit.kind ≠ .search := by
      have he := x.isEdit
      unfold TokenKind.isEdit at he
      simp_all
    exact ih hedit

theorem waiting_eq_none_iff (g : Group) :
    g.waiting = none ↔ ∀ t ∈ g.tokens.getLast?, t.kind ≠ .search := by
  unfold tokens body
  cases hw : g.waiting with
  | none =>
    have hhead : g.head.kind ≠ .search := by simp [kind_of_fileOf? g.names]
    rw [Option.toList_none, List.append_nil]
    exact iff_of_true rfl (kind_last_ne hhead g.exchanges)
  | some t =>
    have ht : t.kind = .search := of_decide_eq_true (g.waits t hw)
    have hlast : (g.head :: (g.exchanges.flatMap Exchange.tokens ++ [t])).getLast? = some t := by
      rw [← List.cons_append]
      exact List.getLast?_concat
    rw [Option.toList_some, hlast]
    exact iff_of_false (by simp) fun hne => hne t rfl ht

theorem waiting_all_iff (gs : List Group) :
    (∀ g ∈ gs, g.waiting = none) ↔ (gs.flatMap fun g => g.waiting.toList).length = 0 := by
  rw [List.length_eq_zero_iff, List.flatMap_eq_nil_iff]
  exact forall₂_congr fun g _ => Option.toList_eq_nil_iff.symm

theorem countP_flatten (gs : List Group) : (gs.map tokens).flatten.countP (·.kind.isSearch) =
    (gs.flatMap replaces).length + (gs.flatMap fun g => g.waiting.toList).length := by
  induction gs with
  | nil => rfl
  | cons g gs ih =>
    rw [List.map_cons, List.flatten_cons, List.countP_append, ih, countP_tokens, List.flatMap_cons,
      List.flatMap_cons, List.length_append, List.length_append]
    omega

end Group

theorem events_start_of_found {raw : String} {s : Site}
    (h : (start raw s).progress.report.everythingFound = true) :
    (start raw s).progress.report.events = [] := by
  unfold start at h ⊢
  dsimp only at h ⊢
  rw [reportProblems_eq] at h ⊢
  have hnone := ((Report.everythingFound_extend _ _).1 h).2
  cases hp : Token.problems raw.toList with
  | nil => rfl
  | cons problem problems =>
    rw [hp] at hnone
    cases hnone _ (List.mem_cons_self ..)

/-- A stream after which everything is found is a list of files with exchanges, and its replacements
are those exchanges, each carried out once. It has as many replacements as searches exactly if no
file ends in a search. -/
theorem exchanges_of_found {b : Board} {o : PatchOptions} {raw : String} {s : Site}
    (h : (applyTo b o raw s).report.everythingFound = true) : ∃ gs : List Group,
    groups (visited b raw s.tree) = gs.map Group.tokens ∧
    (applyTo b o raw s).report.events.filter (·.kind.isReplace) = gs.flatMap Group.replaces ∧
    ((applyTo b o raw s).report.events.countP (·.kind.isReplace) =
        (visited b raw s.tree).countP (·.kind.isSearch) ↔
      ∀ group ∈ groups (visited b raw s.tree), ∀ t ∈ group.getLast?, t.kind ≠ .search) := by
  have hflat := flatten_groups (visited b raw s.tree)
  cases hn : namesFile raw with
  | false =>
    rw [applyTo_nameless hn] at h
    cases h
  | true =>
    have hfold : applyTo b o raw s =
        (groups (visited b raw s.tree)).foldl (runGroup b o) (start raw s).progress := by
      rw [applyTo_eq hn]
      exact foldl_advance_eq ..
    rw [hfold] at h ⊢
    obtain ⟨hstart, gs, new, hgs, hnew, hreplaces⟩ := foldl_runGroup_found
      (fun group hg => ⟨_, hg⟩) (fun group hg t ht => isSome_of_mem_visited
        (hflat ▸ List.mem_flatten.2 ⟨group, hg, ht⟩)) h
    have hevents : (start raw s).progress.report.events = [] := events_start_of_found hstart
    rw [hnew, Report.extend]
    dsimp only
    rw [hevents, List.nil_append]
    refine ⟨gs, hgs, hreplaces, ?_⟩
    rw [hgs] at hflat
    rw [hgs, ← hflat, Group.countP_flatten, List.countP_eq_length_filter, hreplaces,
      List.forall_mem_map]
    calc (gs.flatMap Group.replaces).length = (gs.flatMap Group.replaces).length +
          (gs.flatMap fun g => g.waiting.toList).length
      _ ↔ (gs.flatMap fun g => g.waiting.toList).length = 0 := by omega
      _ ↔ ∀ g ∈ gs, g.waiting = none := (Group.waiting_all_iff gs).symm
      _ ↔ ∀ g ∈ gs, ∀ t ∈ g.tokens.getLast?, t.kind ≠ .search :=
        forall₂_congr fun g _ => g.waiting_eq_none_iff

def twinSite : Site :=
  ⟨⟨[(["t"], .directory 0o755), (["t", "d"], .directory 0o755), (["t", "o"], .directory 0o755),
    (["t", "d", "x"], .file (.text "a") 0o644), (["t", "o", "x"], .file (.text "ba") 0o644)], []⟩,
    .byMode⟩

def pairedStream : String := "<file>\n/t/d/x\n</file>\n<search>\na\n</search>\n<add>\nb\n</add>\n"

theorem exchanges_of_found_twin :
    (applyTo Patch.themedBoard ⟨false, false⟩ pairedStream twinSite).report.everythingFound = true ∧
    (visited Patch.themedBoard pairedStream twinSite.tree).countP (·.kind.isSearch) = 2 ∧
    (applyTo Patch.themedBoard ⟨false, false⟩ pairedStream twinSite).report.events.countP
      (·.kind.isReplace) = 2 := by
  obtain ⟨hfound, hsearches, hlast⟩ : (applyTo Patch.themedBoard ⟨false, false⟩ pairedStream
        twinSite).report.everythingFound = true ∧
      (visited Patch.themedBoard pairedStream twinSite.tree).countP (·.kind.isSearch) = 2 ∧
      ∀ group ∈ groups (visited Patch.themedBoard pairedStream twinSite.tree),
        ∀ t ∈ group.getLast?, t.kind ≠ .search := by decide +kernel
  obtain ⟨gs, -, -, hiff⟩ := exchanges_of_found hfound
  exact ⟨hfound, hsearches, (hiff.2 hlast).trans hsearches⟩

def waitingStream : String := "<file>\n/f\n</file>\n<search>\na\n</search>\n"

theorem exchanges_of_found_waiting :
    (applyTo Patch.themedBoard ⟨false, false⟩ waitingStream
      Patch.oneFileSite).report.everythingFound = true ∧
    (visited Patch.themedBoard waitingStream Patch.oneFileSite.tree).countP (·.kind.isSearch) = 1 ∧
    (applyTo Patch.themedBoard ⟨false, false⟩ waitingStream Patch.oneFileSite).report.events.countP
      (·.kind.isReplace) = 0 := by
  decide +kernel

end Boardmod

end Patchboard
