import Patchboard.Proofs.Tree.Carrying
import Patchboard.Proofs.Tree.Regularity

set_option autoImplicit false

namespace Patchboard.Tree
open Path

section
variable {ε ε' α β : Type} {R : Tree → Tree → Prop}

/-- A job that succeeds on one of two related trees gives the same on the other one, and leaves them
related. -/
def Repeats (R : Tree → Tree → Prop) (job : ExceptT ε (StateM Tree) α) : Prop :=
  ∀ t t' u a, R t u → job.run.run t = (.ok a, t') → ∃ u', job.run.run u = (.ok a, u') ∧ R t' u'

theorem Repeats.pure (a : α) : Repeats R (Pure.pure a : ExceptT ε (StateM Tree) α) := by
  intro t t' u b h hrun
  obtain ⟨hb, rfl⟩ := Prod.mk.inj hrun
  exact ⟨u, by rw [← hb]; rfl, h⟩

theorem Repeats.bind {x : ExceptT ε (StateM Tree) α} {f : α → ExceptT ε (StateM Tree) β}
    (hx : Repeats R x) (hf : ∀ a, Repeats R (f a)) : Repeats R (x >>= f) := by
  intro t t'' u b h hrun
  obtain ⟨a, t', hfirst, hrest⟩ := run_bind_eq_ok.1 hrun
  obtain ⟨u', hfirst', h'⟩ := hx t t' u a h hfirst
  obtain ⟨u'', hrest', h''⟩ := hf a t' t'' u' b h' hrest
  exact ⟨u'', run_bind_eq_ok.2 ⟨a, u', hfirst', hrest'⟩, h''⟩

theorem Repeats.forM {as : List α} {f : α → ExceptT ε (StateM Tree) PUnit}
    (hf : ∀ a ∈ as, Repeats R (f a)) : Repeats R (as.forM f) := by
  induction as with
  | nil => exact .pure _
  | cons a as ih =>
    exact .bind (hf a (List.mem_cons_self ..)) fun _ =>
      ih fun other ho => hf other (List.mem_cons_of_mem _ ho)

theorem Repeats.adapt {job : ExceptT ε (StateM Tree) α} (h : Repeats R job) (f : ε → ε') :
    Repeats R (ExceptT.adapt f job) := by
  intro t t' u a hr hrun
  obtain ⟨u', hrun', hr'⟩ := h t t' u a hr (run_adapt_eq_ok.1 hrun)
  exact ⟨u', run_adapt_eq_ok.2 hrun', hr'⟩

theorem repeats_on {action : Action α} (h : Repeats R action) (context : String) (p : Path) :
    Repeats R (Job.on context p action) :=
  (h.adapt _).adapt _

theorem repeats_doing_ofAction {action : Action α} (h : Repeats R action) (context : String) :
    Repeats R (Job.doing context (Job.ofAction action)) :=
  (h.adapt _).adapt _

end

variable {base t t' u u' : Tree} {seen firm : Place → Prop} {p source target : Path}
  {place origin goal : Place}

theorem walk_or_notFound {segments : List (List Char)}
    (h : ∀ before s, before ++ [s] <+: segments →
      (u.look (before.foldl stepInto place) = none ∨
          u.look (before.foldl stepInto place) = some (.directory 0)) ∧
        (String.ofList s).utf8ByteSize ≤ nameLimit) :
    u.walk place segments = .ok (segments.foldl stepInto place) ∨
      u.walk place segments = .error .notFound := by
  induction segments generalizing place with
  | nil => exact .inl rfl
  | cons s segments ih =>
    obtain ⟨hlook, hshort⟩ := h [] s (by simp)
    have hrest := ih fun before s' hb => h (s :: before) s' (List.cons_prefix_cons.2 ⟨rfl, hb⟩)
    rw [List.foldl_nil] at hlook
    rw [walk, List.foldl_cons]
    rcases hlook with hnone | hd
    · rw [look_eq_none.1 hnone]
      exact .inr rfl
    · obtain ⟨mode, ha⟩ := look_eq_directory.1 hd
      rw [ha]
      dsimp only
      rwa [if_neg (Nat.not_lt.2 hshort)]

theorem walk_of_look {segments : List (List Char)}
    (h : ∀ before s, before ++ [s] <+: segments →
      u.look (before.foldl stepInto place) = t.look (before.foldl stepInto place)) :
    u.walk place segments = t.walk place segments := by
  induction segments generalizing place with
  | nil => rfl
  | cons s segments ih =>
    have hhere : u.look place = t.look place := h [] s (by simp)
    have hrest := ih fun before s' hb => h (s :: before) s' (List.cons_prefix_cons.2 ⟨rfl, hb⟩)
    rw [walk, walk, hrest]
    unfold look at hhere
    cases ht : t.at? place with
    | none =>
      rw [ht, Option.map_none, Option.map_eq_none_iff] at hhere
      rw [hhere]
    | some entry =>
      rw [ht, Option.map_some, Option.map_eq_some_iff] at hhere
      obtain ⟨entry', hu, hsame⟩ := hhere
      rw [hu]
      cases entry <;> cases entry' <;> first | rfl | cases hsame

theorem run_makeDirectory_notFound :
    ((makeDirectory p).run.run t).1 = .error .notFound ↔ t.locate p = .error .notFound := by
  rw [run_makeDirectory]
  cases t.locate p with
  | error e => simp
  | ok place =>
    dsimp only
    split <;> simp

theorem run_makeDirectoriesFrom_of_found {fuel : Nat} (hp : p.text.isEmpty = false)
    (hl : t.locate p ≠ .error .notFound) :
    (makeDirectoriesFrom (fuel + 1) p).run.run t = (ensureDirectory p).run.run t := by
  rw [ne_eq, ← run_makeDirectory_notFound] at hl
  rw [makeDirectoriesFrom, if_neg (by simp [hp])]
  unfold ensureDirectory
  rw [run_bind, run_bind, run_get]
  dsimp only
  rcases hmake : (makeDirectory p).run.run t with ⟨e | ⟨⟩, made⟩
  · rw [hmake] at hl
    cases e <;> first | rfl | exact absurd rfl hl
  · rfl

theorem locate_of_ensureDirectory (h : (ensureDirectory p).run.run t = (.ok (), t')) :
    ∃ place, t.locate p = .ok place := by
  unfold ensureDirectory at h
  rw [run_bind, run_get] at h
  dsimp only at h
  rw [run_makeDirectory] at h
  cases hl : t.locate p with
  | ok place => exact ⟨place, rfl⟩
  | error e =>
    rw [hl] at h
    dsimp only at h
    split at h
    · rename_i hd
      obtain ⟨place, -, hl', -⟩ := isDirectory_iff.1 hd
      rw [hl] at hl'
      cases hl'
    · cases h

theorem run_makeDirectoriesFrom_of_notFound {fuel : Nat} {a : Unit} (hp : p.text.isEmpty = false)
    (hl : t.locate p = .error .notFound) :
    (makeDirectoriesFrom (fuel + 1) p).run.run t = (.ok a, t') ↔ ∃ parent, p.parent? = some parent ∧
      (makeDirectoriesFrom fuel parent >>= fun _ => ensureDirectory p).run.run t = (.ok a, t') := by
  rw [makeDirectoriesFrom, if_neg (by simp [hp]), run_bind, run_get]
  dsimp only
  rw [run_makeDirectory, hl]
  dsimp only
  cases p.parent? with
  | none =>
    refine iff_of_false (fun h => ?_) (by simp)
    cases h
  | some parent => simp

namespace Carries

theorem repeats_makeDirectory (h : Carries base seen firm t u) (hp : Passes base seen p)
    (hrun : (makeDirectory p).run.run t = (.ok (), t')) :
    (∃ u', (makeDirectory p).run.run u = (.ok (), u') ∧ Carries base seen firm t' u') ∨
      (makeDirectory p).run.run u = (.error .exists, u) ∧ u.isDirectory p = true ∧
        Carries base seen firm t' u := by
  rw [run_makeDirectory] at hrun ⊢
  cases hl : t.locate p with
  | error e => rw [hl] at hrun; cases hrun
  | ok place =>
    rw [hl] at hrun
    rw [h.locate hp hl]
    dsimp only at hrun ⊢
    split at hrun
    · cases hrun
    · rename_i hnone
      cases hrun
      rw [Option.not_isSome_iff_eq_none] at hnone
      rcases h.stays place (h.reached hp hl).2 with hsame | ⟨-, -, hd⟩
      · rw [look_eq_none.2 hnone, look_eq_none] at hsame
        rw [if_neg (by simp [hsame])]
        exact .inl ⟨_, rfl, h.put_both place rfl⟩
      · obtain ⟨mode, ha⟩ := look_eq_directory.1 hd
        rw [if_pos (by rw [ha]; rfl)]
        exact .inr ⟨rfl, isDirectory_iff.2 ⟨place, mode, h.locate hp hl, ha⟩, h.put_first hd _⟩

end Carries

section
variable (hp : Passes base seen p)
include hp

theorem repeats_ensureDirectory : Repeats (Carries base seen firm) (ensureDirectory p) := by
  intro t t' u a h hrun
  have hu : (makeDirectory p).run.run u = (.error .exists, u) → u.isDirectory p = true →
      (ensureDirectory p).run.run u = (.ok (), u) := by
    intro hmake hd
    unfold ensureDirectory
    rw [run_bind, run_get]
    dsimp only
    rw [hmake]
    dsimp only
    rw [if_pos hd]
    rfl
  unfold ensureDirectory at hrun
  rw [run_bind, run_get] at hrun
  dsimp only at hrun
  split at hrun
  · rename_i made hmake
    cases hrun
    rcases h.repeats_makeDirectory hp hmake with ⟨u', hmake', h'⟩ | ⟨hmake', hd, h'⟩
    · refine ⟨u', ?_, h'⟩
      unfold ensureDirectory
      rw [run_bind, run_get]
      dsimp only
      rw [hmake']
      rfl
    · exact ⟨u, hu hmake' hd, h'⟩
  · split at hrun
    · rename_i hd
      cases hrun
      have hd' := h.isDirectory hp hd
      obtain ⟨place, mode, hl, ha⟩ := isDirectory_iff.1 hd'
      refine ⟨u, hu ?_ hd', h⟩
      rw [run_makeDirectory, hl]
      dsimp only
      rw [if_pos (by rw [ha]; rfl)]
    · cases hrun

theorem Carries.locate_or_notFound (h : Carries base seen firm t u) (hg : Grown t t' [])
    (hd : t'.isDirectory p = true) :
    (∃ place, u.locate p = .ok place) ∨ u.locate p = .error .notFound := by
  obtain ⟨place, -, hl, -⟩ := isDirectory_iff.1 hd
  obtain ⟨hz, he, hb, hw⟩ := locate_eq_ok.1 hl
  have horigin : t'.origin p = base.origin p := by
    rw [Tree.origin, Tree.origin, hg.working, h.first]
  rw [horigin] at hw
  obtain ⟨-, hover⟩ := walk_eq_ok.1 hw
  have hlook (before : List (List Char)) (s : List Char) (hs : before ++ [s] <+: route p) :
      (u.look (before.foldl stepInto (base.origin p)) = none ∨
          u.look (before.foldl stepInto (base.origin p)) = some (.directory 0)) ∧
        (String.ofList s).utf8ByteSize ≤ nameLimit := by
    obtain ⟨hdirectory, hshort⟩ := hover before s hs
    refine ⟨?_, hshort⟩
    have hseen := hp _ (mem_way_of_start ((List.prefix_append before [s]).trans hs))
    rcases h.stays _ hseen with hsame | ⟨-, -, hnew⟩
    · rw [hsame]
      rcases hg.keeps _ List.not_mem_nil with hkept | ⟨hn, -⟩
      · exact .inr (hkept ▸ look_eq_directory.2 hdirectory)
      · exact .inl hn
    · exact .inr hnew
  have hwalk := walk_or_notFound hlook
  rw [← (h.origin p).2] at hwalk
  rcases hwalk with hok | hnot
  · exact .inl ⟨_, locate_eq_ok.2 ⟨hz, he, hb, hok⟩⟩
  · exact .inr ((locate_eq_notFound he).2 ⟨hz, hb, hnot⟩)

end

/-- Each unit of fuel goes up to a parent. Where the other tree has what is missing here, going up
there does nothing. -/
theorem repeats_makeDirectoriesFrom (fuel : Nat) {p : Path} (hp : Passes base seen p) :
    Repeats (Carries base seen firm) (makeDirectoriesFrom fuel p) := by
  induction fuel generalizing p with
  | zero => intro t t' u a h hrun; cases hrun
  | succ fuel ih =>
    intro t t' u a h hrun
    cases he : p.text.isEmpty with
    | true =>
      rw [makeDirectoriesFrom, if_pos he] at hrun ⊢
      exact Repeats.pure () t t' u a h hrun
    | false =>
      by_cases hl : t.locate p = .error .notFound
      · obtain ⟨parent, hparent, hrun⟩ := (run_makeDirectoriesFrom_of_notFound he hl).1 hrun
        have hall := (ih (hp.parent hparent)).bind fun _ => repeats_ensureDirectory hp
        obtain ⟨u', hrun', h'⟩ := hall t t' u a h hrun
        obtain ⟨⟨⟩, t₁, hmakes, hensure⟩ := run_bind_eq_ok.1 hrun
        have hgrown : Grown t t' [] := by
          have hparents := (prepared_makeDirectoriesFrom fuel parent t).grown
          have hlast := (prepared_ensureDirectory p t₁).grown
          unfold after at hparents hlast
          rw [hmakes] at hparents
          rw [hensure] at hlast
          exact hparents.trans hlast
        rcases h.locate_or_notFound hp hgrown (isDirectory_of_ensureDirectory hensure) with
          ⟨place, hl'⟩ | hl'
        · -- the parent is there
          obtain ⟨⟨⟩, u₁, hmakes', hensure'⟩ := run_bind_eq_ok.1 hrun'
          obtain rfl : u₁ = u := by
            cases fuel with
            | zero => cases hmakes
            | succ fuel =>
              rcases sheltered_of_locate hl' parent hparent with hempty | hd
              · rw [makeDirectoriesFrom, if_pos hempty] at hmakes'
                exact (Prod.mk.inj hmakes').2.symm
              · rw [run_makeDirectoriesFrom fuel hd] at hmakes'
                exact (Prod.mk.inj hmakes').2.symm
          exact ⟨u', (run_makeDirectoriesFrom_of_found he (by simp [hl'])).trans hensure', h'⟩
        · exact ⟨u', (run_makeDirectoriesFrom_of_notFound he hl').2 ⟨parent, hparent, hrun'⟩, h'⟩
      · rw [run_makeDirectoriesFrom_of_found he hl] at hrun
        obtain ⟨u', hrun', h'⟩ := repeats_ensureDirectory hp t t' u a h hrun
        obtain ⟨place, hl'⟩ := locate_of_ensureDirectory hrun'
        exact ⟨u', (run_makeDirectoriesFrom_of_found he (by simp [hl'])).trans hrun', h'⟩

section
variable (hp : Passes base seen p)
include hp

theorem repeats_makeDirectories : Repeats (Carries base seen firm) (makeDirectories p) :=
  repeats_makeDirectoriesFrom _ hp

theorem repeats_fileTree_ensureDirectory :
    Repeats (Carries base seen firm) (FileTree.ensureDirectory p) :=
  repeats_on (repeats_makeDirectories hp) _ _

theorem repeats_makeParents : Repeats (Carries base seen firm) (makeParents p) := by
  unfold makeParents
  cases hparent : p.parent? with
  | none => exact .pure _
  | some parent => exact repeats_makeDirectories (hp.parent hparent)

theorem repeats_ensureParent : Repeats (Carries base seen firm) (FileTree.ensureParent p) := by
  unfold FileTree.ensureParent
  cases hparent : p.parent? with
  | none => exact .pure _
  | some parent => exact repeats_fileTree_ensureDirectory (hp.parent hparent)

theorem Carries.writable? (h : Carries base seen firm t u) (hf : firm (base.lexicalPlace p))
    {mode : Option Nat} (hw : t.writable? p = .ok (place, mode)) :
    ∃ mode', u.writable? p = .ok (place, mode') := by
  have hl := locate_of_writable? hw
  obtain ⟨rfl, hseen⟩ := h.reached hp hl
  have hlook := h.of_firm hseen hf
  obtain ⟨he, hn⟩ := ends_of_writable? hw
  have hd := (writable?_ok hw).2
  unfold Tree.writable?
  rw [h.locate hp hl]
  dsimp only
  rw [he, hn]
  cases ha : u.at? (base.lexicalPlace p) with
  | none => exact ⟨none, rfl⟩
  | some entry =>
    cases entry with
    | file contents mode' => exact ⟨some mode', rfl⟩
    | directory mode' => exact absurd (hlook ▸ look_directory ha) hd

theorem repeats_writeContents (hf : firm (base.lexicalPlace p)) (contents : Contents) :
    Repeats (Carries base seen firm) (writeContents p contents) := by
  intro t t' u a h hrun
  rw [run_writeContents] at hrun
  split at hrun
  · cases hrun
  · rename_i place mode hw
    obtain ⟨-, rfl⟩ := Prod.mk.inj hrun
    obtain ⟨mode', hw'⟩ := h.writable? hp hf hw
    refine ⟨u.put place (.file contents (mode'.getD modeOfNewFile)), ?_, h.put_both place rfl⟩
    rw [run_writeContents, hw']

end

theorem repeats_copyFile (hs : Passes base seen source) (ht : Passes base seen target)
    (hf : firm (base.lexicalPlace target)) :
    Repeats (Carries base seen firm) (copyFile source target) := by
  intro t t' u a h hrun
  rcases run_copyFile source target t with ⟨-, hfail⟩ |
    ⟨origin, contents, mode, goal, old, hfind, hw, hcopy⟩
  · rw [hrun] at hfail
    exact absurd rfl (hfail a)
  · rw [hcopy] at hrun
    obtain ⟨-, rfl⟩ := Prod.mk.inj hrun
    obtain ⟨entry, hfind', hsame⟩ := h.find hs hfind
    obtain ⟨old', hw'⟩ := h.writable? ht hf hw
    cases entry with
    | directory mode' => cases hsame
    | file contents' mode' =>
      simp only [Entry.withMode, Entry.file.injEq, and_true] at hsame
      subst hsame
      refine ⟨u.put goal (.file (if goal = origin then .text "" else contents') mode'), ?_,
        h.put_both goal rfl⟩
      unfold copyFile
      rw [run_bind, run_ask, hfind']
      dsimp only
      rw [run_bind, run_ask, hw']
      rfl

theorem repeats_copyEntry (hs : Passes base seen source) (ht : Passes base seen target)
    (hf : firm (base.lexicalPlace target)) :
    Repeats (Carries base seen firm) (FileTree.copyEntry source target) :=
  repeats_doing_ofAction (repeats_copyFile hs ht hf) _

theorem repeats_fileTree_copyFile (hs : Passes base seen source) (ht : Passes base seen target)
    (hf : firm (base.lexicalPlace target)) :
    Repeats (Carries base seen firm) (FileTree.copyFile source target) :=
  (repeats_ensureParent ht).bind fun _ => repeats_copyEntry hs ht hf

/-- Two trees on which the same copy has come as far. The source is still as it was. -/
structure Abreast (base : Tree) (seen firm : Place → Prop) (origin : Place) (t u : Tree) : Prop where
  carries : Carries base seen firm t u
  regular : t.Regular
  keyed : t.Keyed
  keyed' : u.Keyed
  outgrown : Outgrown base t
  source : ∀ rel, t.look (origin ++ rel) = base.look (origin ++ rel)

theorem Repeats.abreast {ε α : Type} {job : ExceptT ε (StateM Tree) α} {inside : Place → Prop}
    {way : List Place} (h : Repeats (Carries base seen firm) job)
    (hr : Regulates job) (hg : Follows Outgrown job) (hc : Confines base inside way job)
    (hs : ∀ rel, ¬inside (origin ++ rel))
    (hw : ∀ rel, origin ++ rel ∈ way → (base.at? (origin ++ rel)).isSome) :
    Repeats (Abreast base seen firm origin) job := by
  intro t t' u a ha hrun
  obtain ⟨u', hrun', h'⟩ := h t t' u a ha.carries hrun
  have hregular := hr t ha.regular
  have houtgrown := hg t
  have hconfined := hc t ha.carries.first
  have hconfined' := hc u ha.carries.second
  rw [hrun] at hregular houtgrown hconfined
  rw [hrun'] at hconfined'
  refine ⟨u', hrun', h', hregular, hconfined.keyed ha.keyed, hconfined'.keyed ha.keyed',
    lasting_outgrown.trans ha.outgrown houtgrown, fun rel => ?_⟩
  rw [← ha.source rel]
  rcases hconfined.outside _ (hs rel) with hsame | ⟨hway, hnone, -⟩
  · exact congrArg _ hsame
  · have hsome := hw rel hway
    rw [← isSome_look, ← ha.source rel, isSome_look, hnone] at hsome
    cases hsome

/-- What a copy of a directory looks at is seen, and its source and the places where files are put
are firm. -/
structure Copies (base : Tree) (seen firm : Place → Prop) (origin goal : Place) : Prop where
  asunder : Asunder origin goal
  source : ∀ rel, seen (origin ++ rel) ∧ firm (origin ++ rel)
  target : ∀ rel, (base.at? (origin ++ rel)).isSome → seen (goal ++ rel)
  files : ∀ rel contents, base.look (origin ++ rel) = some (.file contents 0) → firm (goal ++ rel)

/-- Paths to the same place below two directories, of which one is copied to the other. -/
structure Beside (base : Tree) (seen : Place → Prop) (origin goal rel : Place)
    (source target : Path) : Prop where
  place_source : base.lexicalPlace source = origin ++ rel
  place_target : base.lexicalPlace target = goal ++ rel
  passes : Passes base seen source
  passes' : Passes base seen target
  above : ∀ place ∈ base.way target, origin <+: place → (base.at? place).isSome

variable {rel : Place} {name : String}

theorem Abreast.isDirectory_join (h : Abreast base seen firm origin t u)
    (hc : Copies base seen firm origin goal) (hs : base.lexicalPlace source = origin ++ rel)
    (hd : base.isDirectory source = true) (hps : Passes base seen source) (hn : IsName name) :
    t.isDirectory (source.join ⟨name⟩) = base.isDirectory (source.join ⟨name⟩) ∧
      u.isDirectory (source.join ⟨name⟩) = base.isDirectory (source.join ⟨name⟩) := by
  have hplace (t : Tree) (hw : t.working = base.working) :
      t.lexicalPlace source ++ [name] = origin ++ (rel ++ [name]) := by
    rw [lexicalPlace_congr hw, hs, List.append_assoc]
  have hpasses : Passes base seen (source.join ⟨name⟩) := by
    intro place hm
    rcases (mem_way_join hn).1 hm with hm | rfl
    · exact hps place hm
    · rw [hplace base rfl]
      exact (hc.source _).1
  have hback (t : Tree) (hw : t.working = base.working)
      (hlook : t.look (origin ++ (rel ++ [name])) = base.look (origin ++ (rel ++ [name])))
      (ht : t.isDirectory (source.join ⟨name⟩) = true) :
      base.isDirectory (source.join ⟨name⟩) = true := by
    obtain ⟨hfits, -, hthere⟩ := (isDirectory_join_iff hn).1 ht
    rw [hplace t hw] at hthere
    refine (isDirectory_join_iff hn).2 ⟨hfits, enters_of_isDirectory hd, ?_⟩
    rw [hplace base rfl]
    exact look_eq_directory.1 (hlook ▸ look_eq_directory.2 hthere)
  have hforth (ht : base.isDirectory (source.join ⟨name⟩) = true) :
      t.isDirectory (source.join ⟨name⟩) = true := by
    obtain ⟨written, hg⟩ := h.outgrown
    exact isDirectory_of_grown hg ht
  have hlook := h.source (rel ++ [name])
  obtain ⟨hseen, hfirm⟩ := hc.source (rel ++ [name])
  constructor <;> rw [Bool.eq_iff_iff]
  · exact ⟨hback t h.carries.first hlook, hforth⟩
  · exact ⟨hback u h.carries.second ((h.carries.of_firm hseen hfirm).trans hlook),
      fun hb => h.carries.isDirectory hpasses (hforth hb)⟩

section
variable (hc : Copies base seen firm origin goal)
include hc

theorem Beside.next (h : Beside base seen origin goal rel source target) (hn : IsName name)
    (hthere : (base.at? (origin ++ (rel ++ [name]))).isSome) :
    Beside base seen origin goal (rel ++ [name]) (source.join ⟨name⟩) (target.join ⟨name⟩) := by
  have hs : base.lexicalPlace (source.join ⟨name⟩) = origin ++ (rel ++ [name]) := by
    rw [lexicalPlace_join hn, h.place_source, List.append_assoc]
  have ht : base.lexicalPlace (target.join ⟨name⟩) = goal ++ (rel ++ [name]) := by
    rw [lexicalPlace_join hn, h.place_target, List.append_assoc]
  refine ⟨hs, ht, fun place hm => ?_, fun place hm => ?_, fun place hm hp => ?_⟩
  · rcases (mem_way_join hn).1 hm with hm | rfl
    · exact h.passes place hm
    · rw [← lexicalPlace_join hn, hs]
      exact (hc.source _).1
  · rcases (mem_way_join hn).1 hm with hm | rfl
    · exact h.passes' place hm
    · rw [← lexicalPlace_join hn, ht]
      exact hc.target _ hthere
  · rcases (mem_way_join hn).1 hm with hm | rfl
    · exact h.above place hm hp
    · rw [← lexicalPlace_join hn, ht] at hp
      exact absurd hp (Asunder.not_mem ⟨hc.asunder.2, hc.asunder.1⟩ _)

theorem repeats_listDirectory (hb : Beside base seen origin goal rel source target)
    {names : List String} (h : Abreast base seen firm origin t u)
    (hrun : (listDirectory source).run.run t = (.ok names, t')) :
    t' = t ∧ (listDirectory source).run.run u = (.ok names, u) ∧
      ∀ name ∈ names, IsName name ∧ (base.at? (origin ++ (rel ++ [name]))).isSome := by
  unfold listDirectory at hrun ⊢
  rw [run_ask] at hrun
  rw [run_ask]
  obtain ⟨hlist, rfl⟩ := Prod.mk.inj hrun
  refine ⟨rfl, ?_⟩
  split at hlist
  · cases hlist
  · cases hlist
  · rename_i place mode hfind
    cases hlist
    obtain ⟨entry, hfind', hsame⟩ := h.carries.find hb.passes hfind
    obtain rfl : place = origin ++ rel :=
      (h.carries.reached hb.passes (find_ok hfind).1).1.trans hb.place_source
    have hthere (name : String) : (t.at? (origin ++ rel ++ [name])).isSome =
        (base.at? (origin ++ (rel ++ [name]))).isSome := by
      rw [List.append_assoc, ← isSome_look, h.source, isSome_look]
    have hnames : u.names (origin ++ rel) = t.names (origin ++ rel) := by
      refine names_congr h.keyed h.keyed' fun name => ?_
      obtain ⟨hseen, hfirm⟩ := hc.source (rel ++ [name])
      rw [List.append_assoc, ← isSome_look, h.carries.of_firm hseen hfirm, isSome_look]
    constructor
    · rw [hfind']
      cases entry with
      | file contents mode' => cases hsame
      | directory mode' =>
        dsimp only
        rw [hnames]
    · intro name hm
      have hat := mem_names.1 hm
      exact ⟨h.regular.named _ _ hat, hthere name ▸ hat⟩

theorem repeats_copyEntry_abreast (hb : Beside base seen origin goal rel source target) :
    Repeats (Abreast base seen firm origin) (FileTree.copyEntry source target) := by
  intro t t' u a h hrun
  have hgoal (other : Place) : ¬origin ++ other = goal ++ rel := fun he =>
    hc.asunder.not_mem other (he ▸ List.prefix_append goal rel)
  have hfirm : firm (base.lexicalPlace target) := by
    rcases run_copyFile source target t with ⟨-, hfail⟩ | ⟨place, contents, mode, -, -, hfind, -, -⟩
    · have hcopy : (copyFile source target).run.run t = (.ok a, t') :=
        run_adapt_eq_ok.1 (run_adapt_eq_ok.1 hrun)
      rw [hcopy] at hfail
      exact absurd rfl (hfail a)
    · obtain ⟨hl, hat⟩ := find_ok hfind
      obtain rfl : place = origin ++ rel := (h.carries.reached hb.passes hl).1.trans hb.place_source
      rw [hb.place_target]
      exact hc.files rel contents (by rw [← h.source]; exact look_file hat)
  have hconfines : Confines base (· = goal ++ rel) [] (FileTree.copyEntry source target) :=
    follows_doing (follows_ofAction (confines_copyFile hb.place_target source)) _
  refine (repeats_copyEntry hb.passes hb.passes' hfirm).abreast ?_ ?_ hconfines hgoal (by simp)
    t t' u a h hrun
  · exact follows_doing (follows_ofAction (regular_copyFile source target)) _
  · exact follows_doing (follows_ofAction fun t => ⟨_, grown_copyFile source target t⟩) _

theorem repeats_copyDirectoryFrom (fuel : Nat)
    (hb : Beside base seen origin goal rel source target) (hd : base.isDirectory source = true) :
    Repeats (Abreast base seen firm origin) (FileTree.copyDirectoryFrom fuel source target) := by
  induction fuel generalizing source target rel with
  | zero => intro t t' u a h hrun; cases hrun
  | succ fuel ih =>
    have hconfines : Confines base (fun _ => False) (base.way target)
        (FileTree.ensureDirectory target) := confines_fileTree_ensureDirectory target
    have hensure : Repeats (Abreast base seen firm origin) (FileTree.ensureDirectory target) :=
      (repeats_fileTree_ensureDirectory hb.passes').abreast (regular_ensureDirectory target)
        (outgrown_ensureDirectory target) hconfines (fun _ => id)
        fun rel hm => hb.above _ hm (List.prefix_append ..)
    rw [FileTree.copyDirectoryFrom]
    refine hensure.bind fun _ => ?_
    intro t t' u a h hrun
    obtain ⟨names, t₁, hlist, hcopy⟩ := run_bind_eq_ok.1 hrun
    obtain ⟨rfl, hlist', hnames⟩ := repeats_listDirectory hc hb h (run_on_eq_ok.1 hlist)
    have hall : Repeats (Abreast base seen firm origin) (names.forM fun name => do
        let origin := source.join ⟨name⟩
        let goal := target.join ⟨name⟩
        if (← get).isDirectory origin then FileTree.copyDirectoryFrom fuel origin goal
        else FileTree.copyEntry origin goal) := by
      refine .forM fun name hm => ?_
      obtain ⟨hn, hthere⟩ := hnames name hm
      have hnext := hb.next hc hn hthere
      intro t t' u a h hrun
      obtain ⟨hsame, hsame'⟩ := h.isDirectory_join hc hb.place_source hd hb.passes hn
      rw [run_bind, run_get] at hrun ⊢
      dsimp only at hrun ⊢
      rw [hsame] at hrun
      rw [hsame']
      split at hrun
      · rename_i hdirectory
        rw [if_pos hdirectory]
        exact ih hnext hdirectory t t' u a h hrun
      · rename_i hfile
        rw [if_neg hfile]
        exact repeats_copyEntry_abreast hc hnext t t' u a h hrun
    obtain ⟨u', hcopy', h'⟩ := hall t₁ t' u a h hcopy
    exact ⟨u', run_bind_eq_ok.2 ⟨names, u, run_on_eq_ok.2 hlist', hcopy'⟩, h'⟩

theorem Carries.copyDirectory (h : Carries base seen firm base u) (hr : base.Regular)
    (hk : base.Keyed) (hk' : u.Keyed) (hb : Beside base seen origin goal [] source target)
    (hd : base.isDirectory source = true)
    (hrun : (FileTree.copyDirectory source target).run.run base = (.ok (), t')) :
    ∃ u', (FileTree.copyDirectory source target).run.run u = (.ok (), u') := by
  have habreast : Abreast base seen firm origin base u :=
    ⟨h, hr, hk, hk', lasting_outgrown.refl base, fun _ => rfl⟩
  obtain ⟨u', hrun', -⟩ :=
    repeats_copyDirectoryFrom hc (pathLimit + 1) hb hd base t' u () habreast hrun
  exact ⟨u', hrun'⟩

end

namespace Carries

theorem replaceable (h : Carries base seen firm t u)
    (hg : ∀ rel, seen (goal ++ rel) ∧ firm (goal ++ rel)) {entry entry' : Entry}
    (he : entry'.withMode 0 = entry.withMode 0)
    (hr : t.replaceable origin goal entry (t.at? goal) = .ok ()) :
    u.replaceable origin goal entry' (u.at? goal) = .ok () := by
  have hlook (rel : Place) : u.look (goal ++ rel) = t.look (goal ++ rel) :=
    h.of_firm (hg rel).1 (hg rel).2
  have hfile {e e' : Entry} (hsame : e'.withMode 0 = e.withMode 0) : e'.isFile = e.isFile := by
    rw [← isFile_withMode 0 e', hsame, isFile_withMode]
  rw [replaceable_eq_ok] at hr ⊢
  refine ⟨hr.1, fun old' hold' => ?_⟩
  have hgoal := hlook []
  rw [List.append_nil, look, look, Option.mem_def.1 hold', Option.map_some] at hgoal
  obtain ⟨old, hold, hsame⟩ := Option.map_eq_some_iff.1 hgoal.symm
  obtain ⟨hkind, hempty⟩ := hr.2 old hold
  refine ⟨by rw [← hfile hsame, hkind, hfile he], fun hd => ?_⟩
  have hnone := hempty (by rw [hfile hsame]; exact hd)
  rw [List.isEmpty_iff, List.eq_nil_iff_forall_not_mem] at hnone ⊢
  intro name hm
  rw [mem_names, ← isSome_look, hlook, isSome_look] at hm
  exact hnone name (mem_names.2 hm)

theorem rename (h : Carries base seen firm t u) (hs : Passes base seen source)
    (ht : Passes base seen target)
    (hg : ∀ rel, seen (base.lexicalPlace target ++ rel) ∧ firm (base.lexicalPlace target ++ rel))
    (hrun : (Tree.rename source target).run.run t = (.ok (), t')) :
    ∃ u', (Tree.rename source target).run.run u = (.ok (), u') := by
  obtain ⟨entry, hl, hl', hn, hn', ha, hends, hmoved⟩ := run_rename_eq_ok.1 hrun
  rw [(h.lexicalPlace source).1] at hl ha hmoved
  rw [(h.lexicalPlace target).1] at hl' hmoved
  have hlook := h.of_some hs.last (by rw [ha]; rfl)
  rw [look, look, ha, Option.map_some, Option.map_eq_some_iff] at hlook
  obtain ⟨entry', ha', hsame⟩ := hlook
  have hfile : entry'.isFile = entry.isFile := by
    rw [← isFile_withMode 0 entry', hsame, isFile_withMode]
  have hrename (u' : Tree) := @run_rename_eq_ok u u' source target
  rw [(h.lexicalPlace source).2, (h.lexicalPlace target).2] at hrename
  rcases hmoved with ⟨hself, -⟩ | ⟨hne, hreplace, -⟩
  · exact ⟨u, (hrename u).2 ⟨entry', h.locate hs hl, h.locate ht hl', hn, hn', ha',
      by rw [hfile, hends], .inl ⟨hself, rfl⟩⟩⟩
  · exact ⟨_, (hrename _).2 ⟨entry', h.locate hs hl, h.locate ht hl', hn, hn', ha',
      by rw [hfile, hends], .inr ⟨hne, h.replaceable hg hsame hreplace, rfl⟩⟩⟩

theorem move (h : Carries base seen firm t u) (hs : Passes base seen source)
    (ht : Passes base seen target)
    (hg : ∀ rel, seen (base.lexicalPlace target ++ rel) ∧ firm (base.lexicalPlace target ++ rel))
    (hrun : (FileTree.move source target).run.run t = (.ok (), t')) :
    ∃ u', (FileTree.move source target).run.run u = (.ok (), u') := by
  obtain ⟨⟨⟩, t₁, hparents, hmove⟩ := run_bind_eq_ok.1 hrun
  obtain ⟨u₁, hparents', h₁⟩ := repeats_ensureParent ht t t₁ u () h hparents
  obtain ⟨u', hmove'⟩ := h₁.rename hs ht hg (run_adapt_eq_ok.1 (run_adapt_eq_ok.1 hmove))
  exact ⟨u', run_bind_eq_ok.2 ⟨(), u₁, hparents', run_adapt_eq_ok.2 (run_adapt_eq_ok.2 hmove')⟩⟩

theorem retrace_emptied (h : Carries base seen firm t u) (hp : Passes base seen p)
    {entry entry' : Entry} (hf : t.find p = .ok (place, entry))
    (hf' : u.find p = .ok (place, entry')) :
    (u.emptied place entry').retrace p = (t.emptied place entry).retrace p := by
  obtain ⟨hl, ha⟩ := find_ok hf
  obtain ⟨-, ha'⟩ := find_ok hf'
  obtain ⟨up, rest, hroute, hretrace⟩ := retrace_eq base p
  rw [hretrace (u.emptied place entry') h.second, hretrace (t.emptied place entry) h.first]
  obtain ⟨-, -, -, hw⟩ := locate_eq_ok.1 hl
  rw [(h.origin p).1] at hw
  obtain ⟨-, hover⟩ := walk_eq_ok.1 hw
  refine walk_of_look fun before s hs => ?_
  have hpre : up ++ before ++ [s] <+: route p := by
    rw [← hroute, List.append_assoc]
    exact (List.prefix_append_right_inj up).2 hs
  obtain ⟨mode, hd⟩ := (hover _ s hpre).1
  rw [List.foldl_append] at hd
  have hlook := h.of_some (hp _ (mem_way_of_route hroute ((List.prefix_append before [s]).trans hs)))
    (by rw [hd]; rfl)
  by_cases hbelow : ∃ name rel, before.foldl stepInto (up.foldl stepInto (base.origin p)) =
      place ++ name :: rel
  · obtain ⟨name, rel, he⟩ := hbelow
    rw [he, look, look, at?_emptied_below, at?_emptied_below]
  · unfold look at hlook ⊢
    rw [(at?_emptied ha' _).resolve_right fun hc => hbelow hc.2,
      (at?_emptied ha _).resolve_right fun hc => hbelow hc.2, hlook]

theorem removeDirectory (h : Carries base seen firm t u) (hp : Passes base seen p) {mode : Nat}
    (hf : t.find p = .ok (place, .directory mode))
    (hrun : (Tree.removeDirectory p).run.run t = (.ok (), t')) :
    ∃ u', (Tree.removeDirectory p).run.run u = (.ok (), u') := by
  obtain ⟨entry, hf', hsame⟩ := h.find hp hf
  cases entry with
  | file contents mode' => cases hsame
  | directory mode' =>
    have hretrace := h.retrace_emptied hp hf hf'
    have hfirst (t : Tree) (mode : Nat) (hf : t.find p = .ok (place, .directory mode)) :
        (Tree.removeDirectory p).run.run t =
          (removeEmptied p place).run.run (t.emptied place (.directory mode)) := by
      unfold Tree.removeDirectory
      rw [run_bind, run_ask, hf]
      rfl
    rw [hfirst t mode hf] at hrun
    rw [hfirst u mode' hf']
    cases hwalk : (t.emptied place (.directory mode)).retrace p with
    | ok goal =>
      rw [hwalk] at hretrace
      rcases run_removeEmptied hretrace place with ⟨-, hok⟩ | ⟨hno, -⟩
      · exact ⟨_, hok⟩
      · rcases run_removeEmptied hwalk place with ⟨hends, -⟩ | ⟨-, e, hfail⟩
        · rw [hno] at hends
          cases hends
        · rw [hfail] at hrun
          cases hrun
    | error e =>
      unfold removeEmptied at hrun ⊢
      rw [run_bind, run_get] at hrun ⊢
      dsimp only at hrun ⊢
      rw [hwalk] at hrun
      rw [hretrace, hwalk]
      cases e <;> first | exact ⟨_, rfl⟩ | cases hrun

theorem remove (h : Carries base seen firm t u) (hp : Passes base seen p)
    (hx : t.pathExists p = true) (hrun : (FileTree.remove p).run.run t = (.ok (), t')) :
    ∃ u', (FileTree.remove p).run.run u = (.ok (), u') := by
  have hx' := h.pathExists hp hx
  unfold FileTree.remove at hrun ⊢
  rw [run_bind, run_get] at hrun ⊢
  dsimp only at hrun ⊢
  cases hd : t.isDirectory p with
  | true =>
    obtain ⟨mode, hf⟩ := find_of_isDirectory hd
    rw [if_pos hd] at hrun
    rw [if_pos (h.isDirectory hp hd)]
    obtain ⟨u', hrun'⟩ := h.removeDirectory hp hf (run_on_eq_ok.1 hrun)
    exact ⟨u', run_on_eq_ok.2 hrun'⟩
  | false =>
    unfold Tree.pathExists find? at hx
    cases hf : t.find p with
    | error e => rw [hf] at hx; cases hx
    | ok found =>
      obtain ⟨place, entry⟩ := found
      obtain ⟨entry', hf', hsame⟩ := h.find hp hf
      have hfile : entry.isDirectory = false := by
        simpa [Tree.isDirectory, find?, hf, Except.toOption] using hd
      have hfile' : entry'.isDirectory = false := by
        rw [Entry.isDirectory, ← isFile_withMode 0 entry', hsame, isFile_withMode]
        exact hfile
      have hno : u.isDirectory p = false := by
        simpa [Tree.isDirectory, find?, hf', Except.toOption] using hfile'
      rw [if_neg (by simp [hno])]
      refine ⟨u.removeBelow place, run_on_eq_ok.2 ?_⟩
      unfold FileTree.removeFileIfThere
      rw [run_bind, run_get]
      dsimp only
      rw [if_pos hx']
      unfold removeFile
      rw [run_bind, run_ask, hf']
      dsimp only
      rw [if_neg (by simp [hfile'])]
      rfl

end Carries

end Patchboard.Tree
