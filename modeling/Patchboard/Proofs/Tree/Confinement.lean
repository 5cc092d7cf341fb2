import Mathlib.Data.List.Infix
import Patchboard.Proofs.Tree.Following
import Patchboard.Proofs.Tree.Ways

set_option autoImplicit false

namespace Patchboard.Tree

/-- No two entries of a tree stand at the same place. -/
def Keyed (t : Tree) : Prop := (t.entries.map (·.1)).Nodup

instance (t : Tree) : Decidable t.Keyed := inferInstanceAs (Decidable (List.Nodup _))

/-- The places that the steps of a path lead through, where it starts and ends included. -/
def way (t : Tree) (p : Path) : List Place :=
  p.steps.inits.map fun steps => steps.foldl stepInto (t.origin p)

/-- Outside some places a tree stays as it is, but for directories on the way that were made where
nothing stood. -/
structure Confined (inside : Place → Prop) (way : List Place) (t t' : Tree) : Prop where
  working : t'.working = t.working
  keyed : t.Keyed → t'.Keyed
  outside : ∀ place, ¬inside place → t'.at? place = t.at? place ∨
    place ∈ way ∧ t.at? place = none ∧ t'.at? place = some (.directory modeOfNewDirectory)

variable {t t' t'' base : Tree} {inside inside' : Place → Prop} {way way' : List Place}

theorem Confined.refl (t : Tree) : Confined inside way t t :=
  ⟨rfl, id, fun _ _ => .inl rfl⟩

theorem Confined.trans (h : Confined inside way t t') (h' : Confined inside way t' t'') :
    Confined inside way t t'' := by
  refine ⟨h'.working.trans h.working, fun hk => h'.keyed (h.keyed hk), fun place hp => ?_⟩
  rcases h.outside place hp with hk | ⟨hw, hn, hd⟩
  · rw [← hk]
    exact h'.outside place hp
  · rcases h'.outside place hp with hk' | ⟨-, hn', -⟩
    · exact .inr ⟨hw, hn, hk'.trans hd⟩
    · rw [hd] at hn'
      cases hn'

theorem Confined.mono (h : Confined inside way t t') (hi : ∀ place, inside place → inside' place)
    (hw : ∀ place ∈ way, inside' place ∨ place ∈ way') : Confined inside' way' t t' :=
  ⟨h.working, h.keyed, fun place hp =>
    (h.outside place fun hc => hp (hi place hc)).imp_right
      (And.imp_left fun hm => (hw place hm).resolve_left hp)⟩

theorem Confined.narrow (h : Confined inside way t t')
    (hw : ∀ place ∈ way, t.at? place = none → inside place ∨ place ∈ way') :
    Confined inside way' t t' :=
  ⟨h.working, h.keyed, fun place hp =>
    (h.outside place hp).imp_right fun hc =>
      ⟨(hw place hc.1 hc.2.1).resolve_left hp, hc.2⟩⟩

theorem Confined.kept (h : Confined inside way t t') {place : Place} (hp : ¬inside place)
    {entry : Entry} (ha : t.at? place = some entry) : t'.at? place = some entry := by
  rcases h.outside place hp with hk | ⟨-, hn, -⟩
  · exact hk.trans ha
  · rw [ha] at hn
    cases hn

theorem Confined.same (h : Confined inside way t t') {place : Place} (hi : ¬inside place)
    (hw : place ∉ way) : t'.at? place = t.at? place :=
  (h.outside place hi).resolve_right fun hc => hw hc.1

theorem mem_way {p : Path} {place : Place} : place ∈ base.way p ↔
    ∃ steps, steps <+: p.steps ∧ steps.foldl stepInto (base.origin p) = place := by
  simp [Tree.way, List.mem_inits]

theorem lexicalPlace_mem_way (base : Tree) (p : Path) : base.lexicalPlace p ∈ base.way p :=
  mem_way.2 ⟨p.steps, List.prefix_rfl, (lexicalPlace_eq base p).symm⟩

theorem mem_way_of_parent {p parent : Path} (h : p.parent? = some parent) {place : Place}
    (hp : place ∈ base.way parent) : place ∈ base.way p := by
  obtain ⟨habsolute, hsteps⟩ := Path.parent?_eq_some h
  obtain ⟨steps, hs, rfl⟩ := mem_way.1 hp
  refine mem_way.2 ⟨steps, (hsteps ▸ hs).trans (List.dropLast_prefix _), ?_⟩
  rw [origin, origin, habsolute]

theorem mem_way_of_mem_ancestorsFrom {p ancestor : Path} {place : Place} {fuel : Nat}
    (ha : ancestor ∈ p.ancestorsFrom fuel) (hp : place ∈ base.way ancestor) :
    place ∈ base.way p := by
  induction fuel generalizing p with
  | zero =>
    rw [Path.ancestorsFrom, List.mem_singleton] at ha
    exact ha ▸ hp
  | succ fuel ih =>
    rw [Path.ancestorsFrom] at ha
    split at ha
    · rename_i parent hparent
      rcases List.mem_cons.1 ha with rfl | ha
      · exact hp
      · exact mem_way_of_parent hparent (ih ha)
    · exact List.mem_singleton.1 ha ▸ hp

theorem mem_way_join {name : String} (hn : Path.IsName name) {p : Path} {place : Place} :
    place ∈ base.way (p.join ⟨name⟩) ↔
      place ∈ base.way p ∨ place = base.lexicalPlace p ++ [name] := by
  have horigin : base.origin (p.join ⟨name⟩) = base.origin p := by
    rw [origin, origin, Path.isAbsolute_join hn.piece.relative]
  rw [mem_way, mem_way, Path.steps_join hn, horigin, lexicalPlace_eq]
  simp only [List.prefix_concat_iff]
  constructor
  · rintro ⟨steps, rfl | hs, rfl⟩
    · refine .inr ?_
      rw [List.foldl_append, List.foldl_cons, List.foldl_nil, stepInto_of_isName hn]
    · exact .inl ⟨steps, hs, rfl⟩
  · rintro (⟨steps, hs, rfl⟩ | rfl)
    · exact ⟨steps, .inr hs, rfl⟩
    · refine ⟨_, .inl rfl, ?_⟩
      rw [List.foldl_append, List.foldl_cons, List.foldl_nil, stepInto_of_isName hn]

theorem directory_of_mem_way {p : Path} (h : t.Enters p) {place : Place} (hp : place ∈ t.way p) :
    ∃ mode, t.at? place = some (.directory mode) := by
  obtain ⟨steps, hs, rfl⟩ := mem_way.1 hp
  rw [← filter_route, List.prefix_filter_iff] at hs
  obtain ⟨before, ⟨rest, hrest⟩, rfl⟩ := hs
  rw [← foldl_stepInto]
  by_cases hr : rest = []
  · rw [hr, List.append_nil] at hrest
    rw [hrest]
    exact h.directory
  · have hwalked := h.walked
    rw [← hrest] at hwalked
    exact directory_of_walk hwalked hr

theorem keys_insertAt (place : Place) (entry : Entry) (entries : List (Place × Entry)) :
    (insertAt place entry entries).map (·.1) =
      if place ∈ entries.map (·.1) then entries.map (·.1) else entries.map (·.1) ++ [place] := by
  induction entries with
  | nil => rfl
  | cons e rest ih =>
    by_cases he : e.1 = place
    · simp [insertAt, he]
    · rw [insertAt, if_neg he, List.map_cons, List.map_cons, ih]
      by_cases hm : place ∈ rest.map (·.1)
      · rw [if_pos hm, if_pos (List.mem_cons_of_mem _ hm)]
      · have hne : place ∉ e.1 :: rest.map (·.1) := by
          rw [List.mem_cons, not_or]
          exact ⟨fun h => he h.symm, hm⟩
        rw [if_neg hm, if_neg hne, List.cons_append]

theorem Keyed.put (h : t.Keyed) (place : Place) (entry : Entry) : (t.put place entry).Keyed := by
  unfold Keyed Tree.put at *
  rw [keys_insertAt]
  split
  · exact h
  · rename_i hp
    rw [List.nodup_append]
    refine ⟨h, by simp, fun a ha b hb hab => hp ?_⟩
    rw [← List.mem_singleton.1 hb, ← hab]
    exact ha

theorem confined_put {place : Place} (hi : inside place) (entry : Entry) :
    Confined inside way t (t.put place entry) := by
  refine ⟨rfl, fun hk => hk.put place entry, fun other ho => .inl ?_⟩
  rw [at?_put, if_neg]
  rintro ⟨rfl, -⟩
  exact ho hi

theorem confined_put_directory {place : Place} (hw : place ∈ way) (ha : t.at? place = none) :
    Confined inside way t (t.put place (.directory modeOfNewDirectory)) := by
  refine ⟨rfl, fun hk => hk.put place _, fun other _ => ?_⟩
  rw [at?_put]
  split
  · rename_i hc
    exact .inr ⟨hc.1 ▸ hw, hc.1 ▸ ha, rfl⟩
  · exact .inl rfl

section
variable {ε α β : Type}

def Confines (base : Tree) (inside : Place → Prop) (way : List Place)
    (job : ExceptT ε (StateM Tree) α) : Prop :=
  Follows (fun t t' => t.working = base.working → Confined inside way t t') job

theorem lasting_confined :
    Lasting fun t t' => t.working = base.working → Confined inside way t t' where
  refl t _ := .refl t
  trans h h' := fun ht => (h ht).trans (h' ((h ht).working.trans ht))

theorem Confines.of_reads {job : ExceptT ε (StateM Tree) α} (h : ∀ t, (job.run.run t).2 = t) :
    Confines base inside way job :=
  Follows.of_reads lasting_confined h

theorem Confines.throw (e : ε) :
    Confines base inside way (MonadExcept.throw e : ExceptT ε (StateM Tree) α) :=
  Follows.throw lasting_confined e

theorem Confines.ask (f : Tree → Except FileError α) :
    Confines base inside way (Tree.ask f) :=
  Follows.ask lasting_confined f

theorem Confines.bind {x : ExceptT ε (StateM Tree) α} {f : α → ExceptT ε (StateM Tree) β}
    (hx : Confines base inside way x) (hf : ∀ a, Confines base inside way (f a)) :
    Confines base inside way (x >>= f) :=
  Follows.bind lasting_confined hx hf

theorem confines_on {action : Action α} (h : Confines base inside way action) (context : String)
    (p : Path) : Confines base inside way (Job.on context p action) :=
  follows_on h context p

theorem Confines.mono {job : ExceptT ε (StateM Tree) α} (h : Confines base inside way job)
    (hi : ∀ place, inside place → inside' place)
    (hw : ∀ place ∈ way, inside' place ∨ place ∈ way') : Confines base inside' way' job :=
  fun t ht => (h t ht).mono hi hw

end

section
variable {α : Type}

theorem run_doing (context : String) (job : Job α) (t : Tree) :
    (Job.doing context job).run.run t =
      ((job.run.run t).1.mapError (Failure.within context), (job.run.run t).2) := rfl

theorem run_on (context : String) (p : Path) (action : Action α) (t : Tree) :
    (Job.on context p action).run.run t =
      (((action.run.run t).1.mapError fun e => Failure.ofCause (.file e)).mapError
        (Failure.within (context ++ p.text)), (action.run.run t).2) := rfl

theorem run_on_eq_ok {context : String} {p : Path} {action : Action α} {a : α} :
    (Job.on context p action).run.run t = (.ok a, t') ↔ action.run.run t = (.ok a, t') := by
  rw [run_on]
  rcases action.run.run t with ⟨result, after⟩
  cases result with
  | error e => constructor <;> (intro h; cases h)
  | ok b => constructor <;> (intro h; cases h; rfl)

theorem run_bind_eq_ok {ε β : Type} {x : ExceptT ε (StateM Tree) α}
    {f : α → ExceptT ε (StateM Tree) β} {b : β} : (x >>= f).run.run t = (.ok b, t') ↔
      ∃ a u, x.run.run t = (.ok a, u) ∧ (f a).run.run u = (.ok b, t') := by
  rw [run_bind]
  rcases x.run.run t with ⟨e | a, u⟩
  · constructor
    · intro h
      cases h
    · rintro ⟨a, u', h, -⟩
      cases h
  · constructor
    · exact fun h => ⟨a, u, rfl, h⟩
    · rintro ⟨a', u', h, h'⟩
      cases h
      exact h'

end

theorem confines_makeDirectory {p : Path} (hp : base.lexicalPlace p ∈ way) :
    Confines base inside way (makeDirectory p) := by
  intro t ht
  rw [run_makeDirectory]
  split
  · exact .refl t
  · rename_i place hl
    split
    · exact .refl t
    · rename_i hn
      have hplace : place ∈ way := by
        rw [locate_ok hl, lexicalPlace_congr ht]
        exact hp
      exact confined_put_directory hplace (by simpa using hn)

theorem confines_ensureDirectory {p : Path} (hp : base.lexicalPlace p ∈ way) :
    Confines base inside way (ensureDirectory p) := by
  intro t ht
  have hmake : Confined inside way t ((makeDirectory p).run.run t).2 :=
    confines_makeDirectory hp t ht
  unfold ensureDirectory
  rw [run_bind, run_get]
  dsimp only
  split
  · rename_i t' h
    rw [h] at hmake
    exact hmake
  · split
    · exact .refl t
    · exact .refl t

theorem confines_makeDirectoriesFrom (fuel : Nat) {p : Path}
    (hw : ∀ place ∈ base.way p, place ∈ way) :
    Confines base inside way (makeDirectoriesFrom fuel p) := by
  induction fuel generalizing p with
  | zero => exact .throw _
  | succ fuel ih =>
    have hself := hw _ (lexicalPlace_mem_way base p)
    intro t ht
    have hmake : Confined inside way t ((makeDirectory p).run.run t).2 :=
      confines_makeDirectory hself t ht
    rw [makeDirectoriesFrom]
    split
    · exact .refl t
    · rw [run_bind, run_get]
      dsimp only
      split
      · rename_i t' h
        rw [h] at hmake
        exact hmake
      · split
        · exact .refl t
        · rename_i parent hparent
          have habove := ih fun place hm => hw place (mem_way_of_parent hparent hm)
          exact (habove.bind fun _ => confines_ensureDirectory hself) t ht
      · split
        · exact .refl t
        · exact .refl t

theorem confines_makeDirectories (p : Path) :
    Confines base inside (base.way p) (makeDirectories p) :=
  confines_makeDirectoriesFrom _ fun _ => id

theorem confines_fileTree_ensureDirectory (p : Path) :
    Confines base inside (base.way p) (FileTree.ensureDirectory p) :=
  confines_on (confines_makeDirectories p) _ _

theorem confines_ensureParent {p parent : Path} (h : p.parent? = some parent) :
    Confines base inside (base.way parent) (FileTree.ensureParent p) := by
  unfold FileTree.ensureParent
  rw [h]
  exact confines_fileTree_ensureDirectory parent

theorem confines_makeParents (p : Path) : Confines base inside (base.way p) (makeParents p) := by
  unfold makeParents
  split
  · rename_i parent hp
    exact (confines_makeDirectories parent).mono (fun _ => id)
      fun place hm => .inr (mem_way_of_parent hp hm)
  · exact .of_reads fun _ => rfl

theorem isDirectory_of_ensureParent {p parent : Path} (hp : p.parent? = some parent)
    (he : parent.text.isEmpty = false) (h : (FileTree.ensureParent p).run.run t = (.ok (), t')) :
    t'.isDirectory parent = true := by
  unfold FileTree.ensureParent at h
  rw [hp] at h
  exact isDirectory_of_makeDirectoriesFrom he (run_on_eq_ok.1 h)

theorem confines_writeContents {p : Path} (hp : inside (base.lexicalPlace p)) (contents : Contents) :
    Confines base inside way (writeContents p contents) := by
  intro t ht
  rw [run_writeContents]
  split
  · exact .refl t
  · rename_i place mode h
    refine confined_put ?_ _
    rw [(writable?_ok h).1, lexicalPlace_congr ht]
    exact hp

theorem confines_copyFile {target : Path} (hp : inside (base.lexicalPlace target)) (source : Path) :
    Confines base inside way (copyFile source target) := by
  refine (Confines.ask _).bind fun found => ?_
  obtain ⟨origin, entry⟩ := found
  cases entry with
  | directory mode => exact .throw _
  | file contents mode =>
    intro t ht
    dsimp only
    rw [run_bind, run_ask]
    split
    · rename_i found t' h
      obtain ⟨place, old⟩ := found
      obtain ⟨hw, rfl⟩ := Prod.mk.inj h
      refine confined_put ?_ _
      rw [(writable?_ok hw).1, lexicalPlace_congr ht]
      exact hp
    · rename_i t' h
      obtain ⟨-, rfl⟩ := Prod.mk.inj h
      exact .refl t

end Patchboard.Tree
