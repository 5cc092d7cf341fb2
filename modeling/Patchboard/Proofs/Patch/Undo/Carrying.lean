import Patchboard.Proofs.Patch.DryRun.Apart
import Patchboard.Proofs.Patch.Undo.Rewriting
import Patchboard.Proofs.Patch.Undo.Storing
import Mathlib.Data.List.Dedup
import Mathlib.Logic.Function.Basic

set_option autoImplicit false

namespace Patchboard
open Tree

abbrev Files := Path → Option Contents

theorem Apart.clears {b : Board} {t : Tree} {paths : List Path} (h : Apart b t paths.dedup)
    {p q : Path} (hp : p ∈ paths) (hq : q ∈ paths) (hne : q ≠ p) : Clears b t p q := by
  have hp' := List.mem_dedup.2 hp
  have hq' := List.mem_dedup.2 hq
  have hplace : t.lexicalPlace q ≠ t.lexicalPlace p :=
    fun he => hne (List.inj_on_of_nodup_map h.distinct hq' hp' he)
  intro hmem
  rcases List.mem_cons.1 hmem with he | hmem
  · exact hplace (h.backups p hp' q hq' he.symm).symm
  · exact hplace (List.mem_singleton.1 hmem)

/-- Files that can be saved stay, and a file that is new can be saved. -/
structure Site.Advances (paths : List Path) (s s' : Site) : Prop where
  stays : ∀ q ∈ paths, (s.tree.file? q).isSome → (s'.tree.file? q).isSome
  keeps : ∀ q ∈ paths, (s.tree.file? q).isSome → s.Storable q → s'.Storable q
  gains : ∀ q ∈ paths, s.tree.file? q = none → (s'.tree.file? q).isSome → s'.Storable q

/-- The files of a site that grew from a tree hold what is said, and those that are missing were
never written. -/
structure Site.Tracks (t : Tree) (paths : List Path) (s : Site) (m : Files) : Prop where
  holds : ∀ q ∈ paths, s.tree.file? q = m q
  grown : ∃ written, Grown t s.tree written ∧
    ∀ q ∈ paths, m q = none → t.lexicalPlace q ∉ written

namespace Site

variable {paths : List Path} {s s' s'' : Site}

theorem Advances.refl (paths : List Path) (s : Site) : Advances paths s s :=
  ⟨fun _ _ h => h, fun _ _ _ h => h, fun _ _ hn hs => by simp [hn] at hs⟩

theorem Advances.trans (h : Advances paths s s') (h' : Advances paths s' s'') :
    Advances paths s s'' := by
  refine ⟨fun q hq hs => h'.stays q hq (h.stays q hq hs),
    fun q hq hs hst => h'.keeps q hq (h.stays q hq hs) (h.keeps q hq hs hst),
    fun q hq hn hs => ?_⟩
  cases hf : s'.tree.file? q with
  | none => exact h'.gains q hq hf hs
  | some contents =>
    have hthere : (s'.tree.file? q).isSome := by rw [hf]; rfl
    exact h'.keeps q hq hthere (h.gains q hq hn hthere)

theorem tracks_self (paths : List Path) (s : Site) : Tracks s.tree paths s s.tree.file? :=
  ⟨fun _ _ => rfl, [], Grown.refl .., fun _ _ _ => List.not_mem_nil⟩

section
variable {b : Board} {t : Tree} {m : Files} (hc : t.Closed) (ha : Apart b t paths.dedup)
include hc ha

theorem Tracks.missing (h : Tracks t paths s m) {q : Path} (hq : q ∈ paths) (hm : m q = none)
    {t' : Tree} {written : List Place} (hg : Grown s.tree t' written)
    (hw : t.lexicalPlace q ∉ written) : t'.file? q = none := by
  obtain ⟨before, hbefore, hnever⟩ := h.grown
  have hsteady := ha.steady q (List.mem_dedup.2 hq)
  have hnow := file?_of_grown hbefore hc hsteady (hnever q hq hm)
  have hthen : t.lexicalPlace q ∉ before ++ written := by
    simp only [List.mem_append, not_or]
    exact ⟨hnever q hq hm, hw⟩
  rw [file?_of_grown (hbefore.trans hg) hc hsteady hthen, ← hnow, h.holds q hq, hm]

theorem Tracks.file?_of_ne (h : Tracks t paths s m) {path q : Path} (hp : path ∈ paths)
    (hq : q ∈ paths) (hne : q ≠ path) (hg : Grown s.tree s'.tree (Save.footprint b s.tree path)) :
    s'.tree.file? q = m q := by
  obtain ⟨before, hbefore, -⟩ := h.grown
  have hclear : t.lexicalPlace q ∉ Save.footprint b t path := ha.clears hp hq hne
  rw [footprint_of_grown hbefore] at hg
  cases hm : m q with
  | none => exact h.missing hc ha hq hm hg hclear
  | some contents =>
    refine file?_of_grown_of_some hg ((h.holds q hq).trans hm) ?_
    rw [lexicalPlace_of_grown hbefore]
    exact hclear

theorem Tracks.update (h : Tracks t paths s m) {path : Path} (hp : path ∈ paths)
    {contents : Contents} (hg : Grown s.tree s'.tree (Save.footprint b s.tree path))
    (hf : s'.tree.file? path = some contents) :
    Tracks t paths s' (Function.update m path (some contents)) := by
  obtain ⟨before, hbefore, hnever⟩ := h.grown
  refine ⟨fun q hq => ?_, before ++ Save.footprint b t path, ?_, fun q hq hm => ?_⟩
  · by_cases hne : q = path
    · rw [hne, hf, Function.update_self]
    · rw [Function.update_of_ne hne, h.file?_of_ne hc ha hp hq hne hg]
  · rw [footprint_of_grown hbefore] at hg
    exact hbefore.trans hg
  · have hne : q ≠ path := by
      rintro rfl
      simp at hm
    rw [Function.update_of_ne hne] at hm
    simp only [List.mem_append, not_or]
    exact ⟨hnever q hq hm, ha.clears hp hq hne⟩

end

theorem Tracks.advances {t : Tree} {m : Files} {path : Path} {contents : Contents}
    (h : Tracks t paths s m) (h' : Tracks t paths s' (Function.update m path (some contents)))
    (hs : s'.Storable path)
    (hothers : ∀ q, (s.tree.file? q).isSome → s.Storable q → s'.Storable q) :
    Advances paths s s' := by
  refine ⟨fun q hq hf => ?_, fun q _ => hothers q, fun q hq hn hf => ?_⟩
  · rw [h'.holds q hq]
    by_cases hne : q = path
    · rw [hne, Function.update_self]
      rfl
    · rwa [Function.update_of_ne hne, ← h.holds q hq]
  · by_cases hne : q = path
    · rwa [hne]
    · rw [h'.holds q hq, Function.update_of_ne hne, ← h.holds q hq, hn] at hf
      simp at hf

end Site

namespace Save
open Site

/-- What the files hold once one of them was saved. The backup of the settings is left alone. -/
def stored (b : Board) (path : Path) (text : List Char) (m : Files) : Files :=
  if isSettingsBackup b path then m
  else Function.update m path (some (.text (String.ofList text)))

variable {b : Board} {o : PatchOptions} {t : Tree} {paths : List Path} {m : Files} {path : Path}
  {theme : Nat} {text : List Char} {existed : Bool} {p : Progress}

theorem save_of_isSettingsBackup (hb : isSettingsBackup b path = true) :
    save b o path theme text existed p = p.note path theme .skipped := by
  unfold save
  rw [if_pos hb]

theorem tracks_save (hc : t.Closed) (ha : Apart b t paths.dedup) (ho : o.testing = false)
    (h : Tracks t paths p.site m) (hp : path ∈ paths) (hexisted : existed = (m path).isSome)
    (hfound : (save b o path theme text existed p).report.everythingFound = true) :
    Tracks t paths (save b o path theme text existed p).site (stored b path text m) ∧
      Advances paths p.site (save b o path theme text existed p).site ∧
      (isSettingsBackup b path = false →
        ((save b o path theme text existed p).site.tree.file? path).isSome ∧
          (save b o path theme text existed p).site.Storable path) := by
  unfold stored
  cases hb : isSettingsBackup b path with
  | true =>
    rw [save_of_isSettingsBackup hb, if_pos rfl]
    exact ⟨h, .refl .., by simp⟩
  | false =>
    have hnew : p.site.tree.file? path = none →
        ∀ t', Grown p.site.tree t' [] → t'.file? path = none := by
      intro hn t' hg
      rw [h.holds path hp] at hn
      exact h.missing hc ha hp hn hg List.not_mem_nil
    obtain ⟨hfile, hstorable, hothers⟩ :=
      storable_save ho hb (by rw [hexisted, h.holds path hp]) hnew hfound
    have htracks := h.update hc ha hp (grown_save b path theme text existed o p) hfile
    rw [if_neg (by simp)]
    exact ⟨htracks, h.advances htracks hstorable hothers, fun _ => ⟨by rw [hfile]; rfl, hstorable⟩⟩

end Save

namespace Modification
open Site Save

/-- What a block starts from: a text, or a file that is skipped, or one that is missing. -/
inductive Start where
  | text (text : List Char)
  | skipped
  | missing

def startOf (block : Document) : Option Contents → Start
  | some (.text text) => .text text.toList
  | some (.bytes _) => .missing
  | none =>
    match MissingFile.parse (block.fetch? "@error") with
    | .skip => .skipped
    | .ignore => .text []
    | .fatal => .missing

theorem applyBlock_startOf (b : Board) (o : PatchOptions) (block : Document) (path : Path)
    (theme : Nat) (p : Progress) :
    applyBlock b o block path theme p =
      match startOf block (p.site.tree.file? path) with
      | .text text => patchText b o block path theme text (p.site.tree.file? path).isSome p
      | .skipped => p.note path theme .skipped
      | .missing => missing p path theme := by
  rw [applyBlock_eq]
  unfold startOf
  cases p.site.tree.file? path with
  | some contents => cases contents <;> rfl
  | none =>
    dsimp only
    cases MissingFile.parse (block.fetch? "@error") <;> rfl

theorem startOf_eq_skipped {block : Document} {contents : Option Contents} :
    startOf block contents = .skipped ↔
      contents = none ∧ MissingFile.parse (block.fetch? "@error") = .skip := by
  unfold startOf
  cases contents with
  | some contents => cases contents <;> simp
  | none => cases MissingFile.parse (block.fetch? "@error") <;> simp

def carryJob? (b : Board) (undo : Bool) (m : Files) : Job → Option Files
  | .nameless _ => none
  | .block document copy =>
    match startOf document (m copy.path) with
    | .text text => (rewritten? undo document text).map fun text => stored b copy.path text m
    | .skipped => some m
    | .missing => none

def carry? (b : Board) (undo : Bool) (jobs : List Job) (m : Files) : Option Files :=
  jobs.foldlM (carryJob? b undo) m

def Job.IsReplacement : Job → Prop
  | .nameless _ => True
  | .block document _ => IsReplacementBlock document

def Job.Ready (b : Board) (s : Site) : Job → Prop
  | .nameless _ => True
  | .block document copy =>
    isSettingsBackup b copy.path = true ∨
      ((s.tree.file? copy.path).isSome ∧ s.Storable copy.path) ∨
      startOf document (s.tree.file? copy.path) = .skipped

theorem Job.Ready.of_advances {b : Board} {paths : List Path} {s s' : Site} {job : Job}
    (h : job.Ready b s) (hj : ∀ path ∈ job.path?, path ∈ paths) (ha : Advances paths s s') :
    job.Ready b s' := by
  cases job with
  | nameless number => trivial
  | block document copy =>
    have hpath : copy.path ∈ paths := hj copy.path rfl
    rcases h with hb | ⟨hf, hs⟩ | hskipped
    · exact .inl hb
    · exact .inr (.inl ⟨ha.stays _ hpath hf, ha.keeps _ hpath hf hs⟩)
    · obtain ⟨hn, hskip⟩ := startOf_eq_skipped.1 hskipped
      cases hf : s'.tree.file? copy.path with
      | none => exact .inr (.inr (startOf_eq_skipped.2 ⟨hf, hskip⟩))
      | some contents =>
        have hthere : (s'.tree.file? copy.path).isSome := by rw [hf]; rfl
        exact .inr (.inl ⟨hthere, ha.gains _ hpath hn hthere⟩)

section
variable {b : Board} {o : PatchOptions} {t : Tree} {paths : List Path} {m m' : Files}
  {block : Document} {path : Path} {theme : Nat} {text : List Char} {existed : Bool}
  {p : Progress} {job : Job}

theorem tracks_patchText (hc : t.Closed) (ha : Apart b t paths.dedup) (ho : o.testing = false)
    (hr : IsReplacementBlock block) (h : Tracks t paths p.site m) (hp : path ∈ paths)
    (hexisted : existed = (m path).isSome)
    (hfound : (patchText b o block path theme text existed p).report.everythingFound = true) :
    ∃ text', rewritten? o.undo block text = some text' ∧
      Tracks t paths (patchText b o block path theme text existed p).site
        (stored b path text' m) ∧
      Advances paths p.site (patchText b o block path theme text existed p).site ∧
      (isSettingsBackup b path = false →
        ((patchText b o block path theme text existed p).site.tree.file? path).isSome ∧
          (patchText b o block path theme text existed p).site.Storable path) := by
  rcases patchText_rewritten path theme hr text existed p with
    ⟨-, hfailed⟩ | ⟨text', report, hrw, -, hsave⟩
  · rw [hfailed] at hfound
    simp at hfound
  · rw [hsave] at hfound ⊢
    exact ⟨text', hrw, tracks_save (p := { p with report }) hc ha ho h hp hexisted hfound⟩

theorem tracks_runJob (hc : t.Closed) (ha : Apart b t paths.dedup) (ho : o.testing = false)
    (hr : job.IsReplacement) (hj : ∀ path ∈ job.path?, path ∈ paths)
    (h : Tracks t paths p.site m) (hfound : (runJob b o p job).report.everythingFound = true) :
    ∃ m', carryJob? b o.undo m job = some m' ∧ Tracks t paths (runJob b o p job).site m' ∧
      Advances paths p.site (runJob b o p job).site ∧ job.Ready b (runJob b o p job).site := by
  cases job with
  | nameless number => simp [runJob, malformed, Progress.fail, Report.fail] at hfound
  | block document copy =>
    have hpath : copy.path ∈ paths := hj copy.path rfl
    unfold runJob carryJob? at *
    dsimp only at hfound ⊢
    rw [applyBlock_startOf, h.holds copy.path hpath] at hfound ⊢
    cases hstart : startOf document (m copy.path) with
    | missing =>
      rw [hstart] at hfound
      simp [missing, Progress.fail, Report.fail] at hfound
    | skipped =>
      rw [← h.holds copy.path hpath] at hstart
      exact ⟨m, rfl, h, .refl .., .inr (.inr hstart)⟩
    | text text =>
      rw [hstart] at hfound
      obtain ⟨text', hrw, htracks, hadvances, hsaved⟩ :=
        tracks_patchText hc ha ho hr h hpath rfl hfound
      dsimp only
      rw [hrw]
      refine ⟨_, rfl, htracks, hadvances, ?_⟩
      cases hb : isSettingsBackup b copy.path with
      | true => exact .inl hb
      | false => exact .inr (.inl (hsaved hb))

theorem found_patchText (ho : o.testing = false) (hr : IsReplacementBlock block)
    (hready : isSettingsBackup b path = true ∨
      ((p.site.tree.file? path).isSome ∧ p.site.Storable path))
    (hrw : (rewritten? o.undo block text).isSome) :
    (patchText b o block path theme text existed p).report.everythingFound =
      p.report.everythingFound := by
  rcases patchText_rewritten path theme hr text existed p with
    ⟨hnone, -⟩ | ⟨text', report, -, hsame, hsave⟩
  · rw [hnone] at hrw
    simp at hrw
  · rw [hsave, ← hsame]
    rcases hready with hb | ⟨hf, hs⟩
    · rw [save_of_isSettingsBackup hb]
      rfl
    · exact found_save (p := { p with report }) ho hf hs

theorem found_runJob (ho : o.testing = false) (hr : job.IsReplacement)
    (hj : ∀ path ∈ job.path?, path ∈ paths) (h : Tracks t paths p.site m)
    (hready : job.Ready b p.site) (hcarry : carryJob? b o.undo m job = some m') :
    (runJob b o p job).report.everythingFound = p.report.everythingFound := by
  cases job with
  | nameless number => simp [carryJob?] at hcarry
  | block document copy =>
    have hpath : copy.path ∈ paths := hj copy.path rfl
    unfold Job.Ready at hready
    unfold carryJob? at hcarry
    unfold runJob
    dsimp only at hready hcarry ⊢
    rw [applyBlock_startOf]
    rw [← h.holds copy.path hpath] at hcarry
    cases hstart : startOf document (p.site.tree.file? copy.path) with
    | missing =>
      rw [hstart] at hcarry
      simp at hcarry
    | skipped => rfl
    | text text =>
      rw [hstart] at hcarry hready
      obtain ⟨text', hrw, -⟩ := Option.map_eq_some_iff.1 hcarry
      refine found_patchText ho hr (hready.imp_right fun hstands => ?_) (by rw [hrw]; rfl)
      exact hstands.resolve_right (by simp)

theorem carry?_cons (b : Board) (undo : Bool) (job : Job) (jobs : List Job) (m : Files) :
    carry? b undo (job :: jobs) m = (carryJob? b undo m job).bind (carry? b undo jobs) :=
  List.foldlM_cons

theorem found_of_foldl_runJob {jobs : List Job}
    (h : (jobs.foldl (runJob b o) p).report.everythingFound = true) :
    p.report.everythingFound = true := by
  obtain ⟨new, hr⟩ := records_foldl_runJob b o jobs p
  rw [hr.found, Bool.and_eq_true] at h
  exact h.1

/-- When nothing fails, the files hold what the contents alone become, and each of them can be
saved again. -/
theorem tracks_foldl_runJob {jobs : List Job} (hc : t.Closed) (ha : Apart b t paths.dedup)
    (ho : o.testing = false) (hr : ∀ job ∈ jobs, job.IsReplacement)
    (hj : ∀ job ∈ jobs, ∀ path ∈ job.path?, path ∈ paths) (h : Tracks t paths p.site m)
    (hfound : (jobs.foldl (runJob b o) p).report.everythingFound = true) :
    ∃ m', carry? b o.undo jobs m = some m' ∧
      Tracks t paths (jobs.foldl (runJob b o) p).site m' ∧
      Advances paths p.site (jobs.foldl (runJob b o) p).site ∧
      ∀ job ∈ jobs, job.Ready b (jobs.foldl (runJob b o) p).site := by
  induction jobs generalizing p m with
  | nil => exact ⟨m, rfl, h, .refl .., by simp⟩
  | cons job jobs ih =>
    rw [List.foldl_cons] at hfound ⊢
    have hhead := hj job (List.mem_cons_self ..)
    obtain ⟨m₁, hcarry, htracks, hadvances, hready⟩ :=
      tracks_runJob hc ha ho (hr job (List.mem_cons_self ..)) hhead h
        (found_of_foldl_runJob hfound)
    obtain ⟨m₂, hrest, htracks', hadvances', hready'⟩ :=
      ih (fun other hm => hr other (List.mem_cons_of_mem _ hm))
        (fun other hm => hj other (List.mem_cons_of_mem _ hm)) htracks hfound
    refine ⟨m₂, ?_, htracks', hadvances.trans hadvances', fun other hm => ?_⟩
    · rw [carry?_cons, hcarry, Option.bind_some, hrest]
    · rcases List.mem_cons.1 hm with rfl | hm
      · exact hready.of_advances hhead hadvances'
      · exact hready' other hm

theorem found_foldl_runJob {jobs : List Job} (hc : t.Closed) (ha : Apart b t paths.dedup)
    (ho : o.testing = false) (hr : ∀ job ∈ jobs, job.IsReplacement)
    (hj : ∀ job ∈ jobs, ∀ path ∈ job.path?, path ∈ paths) (h : Tracks t paths p.site m)
    (hready : ∀ job ∈ jobs, job.Ready b p.site) (hcarry : (carry? b o.undo jobs m).isSome)
    (hp : p.report.everythingFound = true) :
    (jobs.foldl (runJob b o) p).report.everythingFound = true := by
  induction jobs generalizing p m with
  | nil => exact hp
  | cons job jobs ih =>
    have hhead := hj job (List.mem_cons_self ..)
    have hreplace := hr job (List.mem_cons_self ..)
    rw [carry?_cons, Option.isSome_bind, Option.any_eq_true] at hcarry
    obtain ⟨m₁, hfirst, hrest⟩ := hcarry
    have hfound : (runJob b o p job).report.everythingFound = true :=
      (found_runJob ho hreplace hhead h (hready job (List.mem_cons_self ..)) hfirst).trans hp
    obtain ⟨m₁', hfirst', htracks, hadvances, -⟩ :=
      tracks_runJob hc ha ho hreplace hhead h hfound
    rw [hfirst, Option.some.injEq] at hfirst'
    subst hfirst'
    rw [List.foldl_cons]
    refine ih (fun other hm => hr other (List.mem_cons_of_mem _ hm))
      (fun other hm => hj other (List.mem_cons_of_mem _ hm)) htracks (fun other hm => ?_) hrest
      hfound
    exact (hready other (List.mem_cons_of_mem _ hm)).of_advances
      (hj other (List.mem_cons_of_mem _ hm)) hadvances

theorem foldl_runJob_of_ready {jobs : List Job} (hc : t.Closed) (ha : Apart b t paths.dedup)
    (ho : o.testing = false) (hr : ∀ job ∈ jobs, job.IsReplacement)
    (hj : ∀ job ∈ jobs, ∀ path ∈ job.path?, path ∈ paths) (h : Tracks t paths p.site m)
    (hready : ∀ job ∈ jobs, job.Ready b p.site) (hp : p.report.everythingFound = true) :
    (jobs.foldl (runJob b o) p).report.everythingFound = (carry? b o.undo jobs m).isSome ∧
      ∀ m' ∈ carry? b o.undo jobs m, Tracks t paths (jobs.foldl (runJob b o) p).site m' := by
  have hfound := fun hsome => found_foldl_runJob hc ha ho hr hj h hready hsome hp
  refine ⟨Bool.eq_iff_iff.2 ⟨fun hall => ?_, hfound⟩, fun m' hm => ?_⟩
  · obtain ⟨m', hm, -⟩ := tracks_foldl_runJob hc ha ho hr hj h hall
    rw [hm]
    rfl
  · obtain ⟨m'', hm', htracks, -⟩ :=
      tracks_foldl_runJob hc ha ho hr hj h (hfound (Option.isSome_of_mem hm))
    obtain rfl := Option.some.inj (hm'.symm.trans hm)
    exact htracks

end

end Modification

end Patchboard
