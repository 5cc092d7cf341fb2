import Patchboard.Proofs.Tree.Access
import Patchboard.Proofs.Tree.Listing

set_option autoImplicit false

namespace Patchboard.Tree
open Path

variable {t t' : Tree} {source target : Path} {origin goal place : Place} {name : String}

/-- Neither place is the other or lies below it. -/
def Asunder (a b : Place) : Prop := ¬a <+: b ∧ ¬b <+: a

instance (a b : Place) : Decidable (Asunder a b) := inferInstanceAs (Decidable (¬_ ∧ ¬_))

theorem Asunder.append {a b : Place} (h : Asunder a b) (more rest : Place) :
    Asunder (a ++ more) (b ++ rest) := by
  have hcompare {x y z : Place} (hx : x <+: z) (hy : y <+: z) : x <+: y ∨ y <+: x :=
    List.prefix_or_prefix_of_prefix hx hy
  refine ⟨fun hp => ?_, fun hp => ?_⟩
  · exact (hcompare ((List.prefix_append a more).trans hp) (List.prefix_append b rest)).elim h.1 h.2
  · exact (hcompare (List.prefix_append a more) ((List.prefix_append b rest).trans hp)).elim h.1 h.2

theorem Asunder.not_mem {a b : Place} (h : Asunder a b) (rest : Place) : ¬b <+: a ++ rest := by
  have happend := h.append rest []
  rw [List.append_nil] at happend
  exact happend.2

/-- What stands below a place has names that are names, and stands in directories. -/
structure Rooted (t : Tree) (base : Place) : Prop where
  named : ∀ rel name, (t.at? (base ++ rel ++ [name])).isSome → IsName name
  closed : ∀ rel name, (t.at? (base ++ rel ++ [name])).isSome →
    ∃ mode, t.at? (base ++ rel) = some (.directory mode)

/-- Every name in a tree is a name. -/
def Named (t : Tree) : Prop := ∀ place name, (t.at? (place ++ [name])).isSome → IsName name

theorem named_of_entries (h : ∀ e ∈ t.entries, ∀ name ∈ e.1, IsName name) : t.Named := by
  intro place name hs
  rw [at?_isSome (by simp), List.mem_map] at hs
  obtain ⟨e, he, hplace⟩ := hs
  exact h e he name (by simp [hplace])

theorem rooted_of_closed (hc : t.Closed) (hn : t.Named) (base : Place) : t.Rooted base :=
  ⟨fun rel name => hn (base ++ rel) name, fun rel name => hc.parent (base ++ rel) name⟩

theorem Rooted.below {base : Place} (h : t.Rooted base) (rel : Place) : t.Rooted (base ++ rel) := by
  refine ⟨fun more name hs => h.named (rel ++ more) name ?_, fun more name hs => ?_⟩
  · rwa [← List.append_assoc]
  · rw [List.append_assoc base] at hs ⊢
    exact h.closed (rel ++ more) name hs

theorem Rooted.congr {base : Place} (h : t.Rooted base)
    (he : ∀ rel, t'.at? (base ++ rel) = t.at? (base ++ rel)) : t'.Rooted base := by
  have hname (rel : Place) (name : String) :
      t'.at? (base ++ rel ++ [name]) = t.at? (base ++ rel ++ [name]) := by
    rw [List.append_assoc, he]
  refine ⟨fun rel name hs => h.named rel name ?_, fun rel name hs => ?_⟩
  · rwa [← hname]
  · rw [he]
    exact h.closed rel name (by rwa [← hname])

theorem Rooted.absent {base : Place} (h : t.Rooted base)
    (hd : ∀ mode, t.at? base ≠ some (.directory mode)) {rel : Place} (hr : rel ≠ []) :
    t.at? (base ++ rel) = none := by
  induction rel using List.reverseRecOn with
  | nil => exact absurd rfl hr
  | append_singleton rel name ih =>
    cases ha : t.at? (base ++ (rel ++ [name])) with
    | none => rfl
    | some entry =>
      rw [← List.append_assoc] at ha
      obtain ⟨mode, hm⟩ := h.closed rel name (by rw [ha]; rfl)
      by_cases hrel : rel = []
      · rw [hrel, List.append_nil] at hm
        exact absurd hm (hd mode)
      · rw [ih hrel] at hm
        cases hm

theorem Rooted.absent_of_name {base : Place} (h : t.Rooted base)
    (hn : t.at? (base ++ [name]) = none) (rel : Place) : t.at? (base ++ name :: rel) = none := by
  by_cases hempty : rel = []
  · rw [hempty]
    exact hn
  · have habsent := (h.below [name]).absent (by simp [hn]) hempty
    rwa [List.append_assoc] at habsent

/-- What stands at a place after something was copied over it. -/
def overlay : Option Entry → Option Entry → Option Entry
  | none, old => old
  | some (.file contents mode), _ => some (.file contents mode)
  | some (.directory _), some (.directory mode) => some (.directory mode)
  | some (.directory _), _ => some (.directory modeOfNewDirectory)

theorem overlay_overlay (new old : Option Entry) :
    overlay new (overlay new old) = overlay new old := by
  rcases new with _ | _ | _ <;> rcases old with _ | _ | _ <;> rfl

/-- A run that copies what is at and below `origin` to `goal`, as far as it gets. -/
structure Copied (origin goal : Place) (t : Tree) (ran : Except Failure Unit × Tree) : Prop where
  confined : Confined (goal <+: ·) [] t ran.2
  grown : ∃ written, Grown t ran.2 written
  overlaid : ran.1 = .ok () → ∀ rel,
    ran.2.at? (goal ++ rel) = overlay (t.at? (origin ++ rel)) (t.at? (goal ++ rel))

theorem Copied.of_failure {f : Failure} : Copied origin goal t (.error f, t) :=
  ⟨.refl t, ⟨[], .refl t []⟩, by simp⟩

theorem run_copyFile (source target : Path) (t : Tree) :
    ((copyFile source target).run.run t).2 = t ∧
        (∀ u, ((copyFile source target).run.run t).1 ≠ .ok u) ∨
      ∃ origin contents mode goal old, t.find source = .ok (origin, .file contents mode) ∧
        t.writable? target = .ok (goal, old) ∧ (copyFile source target).run.run t =
          (.ok (), t.put goal (.file (if goal = origin then .text "" else contents) mode)) := by
  unfold copyFile
  rw [run_bind, run_ask]
  cases hs : t.find source with
  | error e => exact .inl ⟨rfl, fun u h => by cases h⟩
  | ok found =>
    obtain ⟨origin, entry⟩ := found
    cases entry with
    | directory mode => exact .inl ⟨rfl, fun u h => by cases h⟩
    | file contents mode =>
      dsimp only
      rw [run_bind, run_ask]
      cases hw : t.writable? target with
      | error e => exact .inl ⟨rfl, fun u h => by cases h⟩
      | ok found =>
        obtain ⟨goal, old⟩ := found
        exact .inr ⟨origin, contents, mode, goal, old, rfl, rfl, rfl⟩

theorem copied_entry (hs : t.lexicalPlace source = origin) (hg : t.lexicalPlace target = goal)
    (ha : Asunder origin goal) (hr : t.Rooted origin) :
    Copied origin goal t ((FileTree.copyEntry source target).run.run t) := by
  have hrun : (FileTree.copyEntry source target).run.run t =
      ((((copyFile source target).run.run t).1.mapError fun e =>
          Failure.ofCause (.file e)).mapError
            (Failure.within (FileTree.fromTo "copy" source target)),
        ((copyFile source target).run.run t).2) := rfl
  rw [hrun]
  rcases run_copyFile source target t with ⟨htree, hfail⟩ |
    ⟨place, contents, mode, written, old, hfind, hw, hcopy⟩
  · rw [htree]
    cases hresult : ((copyFile source target).run.run t).1 with
    | error e => exact .of_failure
    | ok u => exact absurd hresult (hfail u)
  · obtain ⟨hl, hat⟩ := find_ok hfind
    obtain ⟨hplace, hnew⟩ := writable?_ok hw
    obtain rfl : place = origin := (locate_ok hl).trans hs
    obtain rfl : written = goal := hplace.trans hg
    have hne : written ≠ place := fun he => ha.1 (he ▸ List.prefix_rfl)
    have hroot : written ≠ [] := fun he => ha.2 (he ▸ List.nil_prefix)
    rw [hcopy]
    refine ⟨confined_put List.prefix_rfl _, ⟨[written], grown_put_file hnew _ _⟩, fun _ rel => ?_⟩
    dsimp only
    rw [at?_put, if_neg hne]
    by_cases hrel : rel = []
    · rw [hrel, List.append_nil, List.append_nil, if_pos ⟨rfl, hroot⟩, hat]
      rfl
    · rw [if_neg (by simp [hrel]), hr.absent (by simp [hat]) hrel]
      rfl

theorem locate_join_ne_notFound (hn : IsName name) (he : t.Enters target) :
    t.locate (target.join ⟨name⟩) ≠ .error .notFound := by
  intro hj
  obtain ⟨mode, hd⟩ := he.directory
  obtain ⟨-, -, hw⟩ := (locate_eq_notFound (text_join hn.piece target)).1 hj
  rw [walk_join hn.piece, he.walked] at hw
  dsimp only at hw
  rw [walk_name hn, hd] at hw
  dsimp only at hw
  split at hw <;> cases hw

theorem run_makeDirectories_join (hn : IsName name) (he : t.Enters target)
    (hg : t.lexicalPlace target = goal) :
    (∃ e, (makeDirectories (target.join ⟨name⟩)).run.run t = (.error e, t)) ∨
      t.isDirectory (target.join ⟨name⟩) = true ∧
        (makeDirectories (target.join ⟨name⟩)).run.run t = (.ok (), t) ∨
      t.locate (target.join ⟨name⟩) = .ok (goal ++ [name]) ∧ t.at? (goal ++ [name]) = none ∧
        (makeDirectories (target.join ⟨name⟩)).run.run t =
          (.ok (), t.put (goal ++ [name]) (.directory modeOfNewDirectory)) := by
  have hplace {place : Place} (hj : t.locate (target.join ⟨name⟩) = .ok place) :
      place = goal ++ [name] := by
    rw [((locate_join_iff hn).1 hj).2.2, hg]
  unfold makeDirectories
  rw [makeDirectoriesFrom, if_neg (by simp [text_join hn.piece]), run_bind, run_get]
  dsimp only
  rw [run_makeDirectory]
  cases hj : t.locate (target.join ⟨name⟩) with
  | error e =>
    have he : e ≠ .notFound := fun hnot => locate_join_ne_notFound hn he (hnot ▸ hj)
    dsimp only
    split
    · rename_i hc
      cases hc
    · rename_i hc
      cases hc
      exact absurd rfl he
    · split
      · rename_i hdirectory
        exact .inr (.inl ⟨hdirectory, rfl⟩)
      · exact .inl ⟨_, rfl⟩
  | ok place =>
    obtain rfl := hplace hj
    dsimp only
    cases ha : t.at? (goal ++ [name]) with
    | none => exact .inr (.inr ⟨rfl, rfl, rfl⟩)
    | some entry =>
      dsimp only [Option.isSome_some, if_true]
      rw [if_pos rfl]
      dsimp only
      split
      · rename_i hdirectory
        exact .inr (.inl ⟨hdirectory, rfl⟩)
      · exact .inl ⟨_, rfl⟩

/-- A run that makes a directory at a place, or finds one there. -/
structure Made (target : Path) (goal : Place) (t t' : Tree) : Prop where
  confined : Confined (· = goal) [] t t'
  grown : Grown t t' []
  enters : t'.Enters target
  place : t'.lexicalPlace target = goal
  overlaid : ∀ mode, t'.at? goal = overlay (some (.directory mode)) (t.at? goal)

theorem made_join (hn : IsName name) (he : t.Enters target) (hg : t.lexicalPlace target = goal) :
    (∃ f, (FileTree.ensureDirectory (target.join ⟨name⟩)).run.run t = (.error f, t)) ∨
      ∃ t', (FileTree.ensureDirectory (target.join ⟨name⟩)).run.run t = (.ok (), t') ∧
        Made (target.join ⟨name⟩) (goal ++ [name]) t t' := by
  unfold FileTree.ensureDirectory
  rw [run_on]
  have hplace : t.lexicalPlace (target.join ⟨name⟩) = goal ++ [name] := by
    rw [lexicalPlace_join hn, hg]
  rcases run_makeDirectories_join hn he hg with ⟨e, hrun⟩ | ⟨hthere, hrun⟩ | ⟨hj, hnone, hrun⟩
  · rw [hrun]
    exact .inl ⟨_, rfl⟩
  · rw [hrun]
    have henters := enters_of_isDirectory hthere
    obtain ⟨mode, hat⟩ := henters.directory
    rw [hplace] at hat
    exact .inr ⟨t, rfl, .refl t, .refl t [], henters, hplace, fun m => by rw [hat]; rfl⟩
  · rw [hrun]
    have hgrown := grown_put_directory hnone modeOfNewDirectory
    have hconfined : Confined (· = goal ++ [name]) [] t
        (t.put (goal ++ [name]) (.directory modeOfNewDirectory)) := by
      apply confined_put
      rfl
    have hat : (t.put (goal ++ [name]) (.directory modeOfNewDirectory)).at? (goal ++ [name]) =
        some (.directory modeOfNewDirectory) := by
      rw [at?_put, if_pos ⟨rfl, by simp⟩]
    have hthere := isDirectory_iff.2 ⟨_, _, locate_of_grown hgrown hj, hat⟩
    exact .inr ⟨_, rfl, hconfined, hgrown, enters_of_isDirectory hthere,
      (lexicalPlace_congr hconfined.working _).trans hplace, fun m => by rw [hat, hnone]; rfl⟩

/-- The order in which the entries of directories are read, which is up to the system. A directory
is read once in a copy. -/
structure Order where
  arrange : Tree → Place → List String
  perm : ∀ t place, (arrange t place).Perm (t.names place)

namespace Order

/-- The order of the listing. -/
def listed : Order := ⟨names, fun _ _ => .refl _⟩

def backward : Order :=
  ⟨fun t place => ((t.entries.map (·.1)).filterMap (nameIn place)).reverse,
    fun t place => (List.reverse_perm _).trans (names_eq t place).symm⟩

end Order

def readDirectory (order : Order) (p : Path) : Action (List String) := ask fun t =>
  match t.find p with
  | .error e => .error e
  | .ok (_, .file _ _) => .error .notDirectory
  | .ok (place, .directory _) => .ok (order.arrange t place)

/-- Copies a directory as `FileTree.copyDirectoryFrom` does, whatever the order of the entries. -/
def copyFrom (order : Order) : Nat → Path → Path → Job Unit
  | 0, _, _ => Job.fail (.file .nameTooLong)
  | fuel + 1, source, target => do
    FileTree.ensureDirectory target
    let names ← Job.on "failed to read directory: " source (readDirectory order source)
    names.forM fun name => do
      let origin := source.join ⟨name⟩
      let goal := target.join ⟨name⟩
      if (← get).isDirectory origin then copyFrom order fuel origin goal
      else FileTree.copyEntry origin goal

theorem copyFrom_listed (fuel : Nat) (source target : Path) :
    copyFrom .listed fuel source target = FileTree.copyDirectoryFrom fuel source target := by
  induction fuel generalizing source target with
  | zero => rfl
  | succ fuel ih =>
    rw [copyFrom, FileTree.copyDirectoryFrom]
    simp only [ih]
    rfl

def copyName (order : Order) (fuel : Nat) (source target : Path) (name : String) : Job Unit := do
  if (← get).isDirectory (source.join ⟨name⟩) then
    copyFrom order fuel (source.join ⟨name⟩) (target.join ⟨name⟩)
  else FileTree.copyEntry (source.join ⟨name⟩) (target.join ⟨name⟩)

def copyNames (order : Order) (fuel : Nat) (source target : Path) : Job Unit := do
  let names ← Job.on "failed to read directory: " source (readDirectory order source)
  names.forM (copyName order fuel source target)

theorem copyFrom_succ (order : Order) (fuel : Nat) (source target : Path) :
    copyFrom order (fuel + 1) source target =
      (FileTree.ensureDirectory target >>= fun _ => copyNames order fuel source target) := rfl

structure Facing (source target : Path) (origin goal : Place) (t : Tree) : Prop where
  source : t.lexicalPlace source = origin
  enters : t.Enters target
  target : t.lexicalPlace target = goal
  asunder : Asunder origin goal
  rooted : t.Rooted origin

def Below (base place : Place) : Prop := ∃ name rel, place = base ++ name :: rel

theorem not_below_self (base : Place) : ¬Below base base := by
  rintro ⟨name, rel, h⟩
  simp at h

theorem Asunder.not_below {a b : Place} (h : Asunder a b) (rest : Place) :
    ¬Below b (a ++ rest) := by
  rintro ⟨name, rel, he⟩
  exact h.not_mem rest (he ▸ List.prefix_append b _)

theorem below_of_prefix {base : Place} (h : base ++ [name] <+: place) : Below base place := by
  obtain ⟨rel, rfl⟩ := h
  exact ⟨name, rel, by simp⟩

theorem at?_of_confined {inside : Place → Prop} (h : Confined inside [] t t') (hp : ¬inside place) :
    t'.at? place = t.at? place :=
  (h.outside place hp).resolve_right fun hc => by simp at hc

theorem Facing.next (h : Facing source target origin goal t)
    (hc : Confined (Below goal) [] t t') (hg : ∃ written, Grown t t' written) :
    Facing source target origin goal t' := by
  obtain ⟨written, hg⟩ := hg
  exact ⟨(lexicalPlace_congr hc.working _).trans h.source, h.enters.of_grown hg,
    (lexicalPlace_congr hc.working _).trans h.target, h.asunder,
    h.rooted.congr fun rel => at?_of_confined hc (h.asunder.not_below rel)⟩

/-- The copying of subdirectories, as far as the fuel goes. -/
def Descends (order : Order) (fuel : Nat) : Prop :=
  ∀ {source target : Path} {origin goal : Place} {name : String} {t : Tree}, IsName name →
    Facing source target origin goal t → t.isDirectory (source.join ⟨name⟩) = true →
    Copied (origin ++ [name]) (goal ++ [name]) t
      ((copyFrom order fuel (source.join ⟨name⟩) (target.join ⟨name⟩)).run.run t)

variable {order : Order} {fuel : Nat}

theorem copied_name (hf : Descends order fuel) (hn : IsName name)
    (h : Facing source target origin goal t) : Copied (origin ++ [name]) (goal ++ [name]) t
      ((copyName order fuel source target name).run.run t) := by
  unfold copyName
  rw [run_bind, run_get]
  dsimp only
  split
  · rename_i hd
    exact hf hn h hd
  · refine copied_entry ?_ ?_ (h.asunder.append _ _) (h.rooted.below _)
    · rw [lexicalPlace_join hn, h.source]
    · rw [lexicalPlace_join hn, h.target]

/-- A run that copies the entries of a directory that have some names. -/
structure Merged (names : List String) (origin goal : Place) (t : Tree)
    (ran : Except Failure Unit × Tree) : Prop where
  confined : Confined (Below goal) [] t ran.2
  grown : ∃ written, Grown t ran.2 written
  overlaid : ran.1 = .ok () → ∀ name rel, ran.2.at? (goal ++ name :: rel) =
    if name ∈ names then overlay (t.at? (origin ++ name :: rel)) (t.at? (goal ++ name :: rel))
    else t.at? (goal ++ name :: rel)

theorem merged_names (hf : Descends order fuel) {names : List String}
    (hn : ∀ name ∈ names, IsName name) (h : Facing source target origin goal t) :
    Merged names origin goal t ((names.forM (copyName order fuel source target)).run.run t) := by
  induction names generalizing t with
  | nil => exact ⟨.refl t, ⟨[], .refl t []⟩, fun _ name rel => by simp; rfl⟩
  | cons name names ih =>
    have hfirst := copied_name hf (hn name (List.mem_cons_self ..)) h
    have hbelow : Confined (Below goal) [] t _ :=
      hfirst.confined.mono (fun _ => below_of_prefix) (by simp)
    change Merged _ _ _ _ ((copyName order fuel source target name >>= fun _ =>
      names.forM (copyName order fuel source target)).run.run t)
    rw [run_bind]
    rcases hrun : (copyName order fuel source target name).run.run t with ⟨result, t'⟩
    rw [hrun] at hfirst hbelow
    cases result with
    | error f => exact ⟨hbelow, hfirst.grown, by simp⟩
    | ok u =>
      have hrest := ih (fun other ho => hn other (List.mem_cons_of_mem _ ho))
        (h.next hbelow hfirst.grown)
      obtain ⟨written, hg⟩ := hfirst.grown
      obtain ⟨written', hg'⟩ := hrest.grown
      refine ⟨hbelow.trans hrest.confined, ⟨_, hg.trans hg'⟩, fun hok other rel => ?_⟩
      have hsource : t'.at? (origin ++ other :: rel) = t.at? (origin ++ other :: rel) :=
        at?_of_confined hbelow (h.asunder.not_below _)
      have htarget : t'.at? (goal ++ other :: rel) =
          if other = name then
            overlay (t.at? (origin ++ other :: rel)) (t.at? (goal ++ other :: rel))
          else t.at? (goal ++ other :: rel) := by
        split
        · rename_i he
          have hsame := hfirst.overlaid rfl rel
          simp only [List.append_assoc, List.singleton_append] at hsame
          rw [he, hsame]
        · rename_i hne
          refine at?_of_confined hfirst.confined fun hp => hne ?_
          obtain ⟨rest, hrest⟩ := hp
          simp at hrest
          exact hrest.1.symm
      rw [hrest.overlaid hok, hsource, htarget]
      by_cases he : other = name
      · split <;> simp [he, overlay_overlay]
      · simp [he]

/-- A run that copies what is strictly below `origin` to `goal`, as far as it gets. -/
structure Filled (origin goal : Place) (t : Tree) (ran : Except Failure Unit × Tree) : Prop where
  confined : Confined (Below goal) [] t ran.2
  grown : ∃ written, Grown t ran.2 written
  directory : ran.1 = .ok () → ∃ mode, t.at? origin = some (.directory mode)
  overlaid : ran.1 = .ok () → ∀ rel, rel ≠ [] →
    ran.2.at? (goal ++ rel) = overlay (t.at? (origin ++ rel)) (t.at? (goal ++ rel))

theorem filled_names (hf : Descends order fuel) (h : Facing source target origin goal t) :
    Filled origin goal t ((copyNames order fuel source target).run.run t) := by
  unfold copyNames
  rw [run_bind, run_on, readDirectory, run_ask]
  split
  · rename_i names t' hlist
    obtain ⟨hresult, rfl⟩ := Prod.mk.inj hlist
    dsimp only at hresult
    split at hresult
    · cases hresult
    · cases hresult
    · rename_i place mode hfind
      cases hresult
      obtain ⟨hl, hd⟩ := find_ok hfind
      obtain rfl : place = origin := (locate_ok hl).trans h.source
      have hmem (name : String) : name ∈ order.arrange t place ↔
          (t.at? (place ++ [name])).isSome :=
        (order.perm t place).mem_iff.trans mem_names
      have hnames : ∀ name ∈ order.arrange t place, IsName name := by
        intro name hname
        refine h.rooted.named [] name ?_
        rw [List.append_nil]
        exact (hmem name).1 hname
      have hmerged := merged_names hf hnames h
      refine ⟨hmerged.confined, hmerged.grown, fun _ => ⟨mode, hd⟩, fun hok rel hrel => ?_⟩
      obtain ⟨name, rel, rfl⟩ := List.exists_cons_of_ne_nil hrel
      rw [hmerged.overlaid hok]
      split
      · rfl
      · -- what is not listed is not there, nor is anything below it
        rename_i hname
        rw [hmem, Option.not_isSome_iff_eq_none] at hname
        rw [h.rooted.absent_of_name hname]
        rfl
  · rename_i f t' hlist
    obtain ⟨-, rfl⟩ := Prod.mk.inj hlist
    exact ⟨.refl t, ⟨[], .refl t []⟩, by simp, by simp⟩

theorem descends (order : Order) (fuel : Nat) : Descends order fuel := by
  induction fuel with
  | zero =>
    intro source target origin goal name t hn h hd
    exact .of_failure
  | succ fuel ih =>
    intro source target origin goal name t hn h hd
    obtain ⟨mode', hfind⟩ := find_of_isDirectory hd
    have hsource : t.lexicalPlace (source.join ⟨name⟩) = origin ++ [name] := by
      rw [lexicalPlace_join hn, h.source]
    rw [hsource] at hfind
    have horigin := (find_ok hfind).2
    rw [copyFrom_succ, run_bind]
    rcases made_join hn h.enters h.target with ⟨f, hfail⟩ | ⟨t', hok, hmade⟩
    · rw [hfail]
      exact .of_failure
    · rw [hok]
      dsimp only
      have hleaves (rel : Place) : t'.at? (origin ++ [name] ++ rel) =
          t.at? (origin ++ [name] ++ rel) := by
        refine at?_of_confined hmade.confined fun he => ?_
        exact (h.asunder.append [name] [name]).not_mem rel (he ▸ List.prefix_rfl)
      have hfacing : Facing (source.join ⟨name⟩) (target.join ⟨name⟩) (origin ++ [name])
          (goal ++ [name]) t' :=
        ⟨(lexicalPlace_congr hmade.confined.working _).trans hsource, hmade.enters, hmade.place,
          h.asunder.append _ _, (h.rooted.below [name]).congr hleaves⟩
      have hfilled := filled_names ih hfacing
      obtain ⟨written, hg⟩ := hfilled.grown
      refine ⟨?_, ⟨_, hmade.grown.trans hg⟩, fun hdone rel => ?_⟩
      · refine (hmade.confined.mono ?_ (by simp)).trans (hfilled.confined.mono ?_ (by simp))
        · rintro _ rfl
          exact List.prefix_rfl
        · rintro _ ⟨_, _, rfl⟩
          exact List.prefix_append ..
      · by_cases hrel : rel = []
        · rw [hrel, List.append_nil, List.append_nil,
            at?_of_confined hfilled.confined (not_below_self _), hmade.overlaid mode', horigin]
        · rw [hfilled.overlaid hdone rel hrel, hleaves]
          refine congrArg _ (at?_of_confined hmade.confined fun he => hrel ?_)
          simpa using he

theorem filled_copyFrom (order : Order) (fuel : Nat) {made : Tree}
    (hmade : (FileTree.ensureDirectory target).run.run t = (.ok (), made))
    (h : Facing source target origin goal made) :
    Filled origin goal made ((copyFrom order (fuel + 1) source target).run.run t) := by
  rw [copyFrom_succ, run_bind, hmade]
  exact filled_names (descends order fuel) h

theorem enters_of_ensureDirectory {made : Tree} (he : target.text.isEmpty = true → t.Enters target)
    (hmade : (FileTree.ensureDirectory target).run.run t = (.ok (), made)) :
    made.Enters target ∧ Confined (fun _ => False) (t.way target) t made ∧ Grown t made [] := by
  have hconfined : Confined (fun _ => False) (t.way target) t
      ((FileTree.ensureDirectory target).run.run t).2 :=
    confines_fileTree_ensureDirectory target t rfl
  have hgrown := (prepared_makeDirectoriesFrom (target.chars.length + 1) target t).grown
  have hmakes := run_on_eq_ok.1 hmade
  unfold makeDirectories at hmakes
  unfold after at hgrown
  rw [hmade] at hconfined
  rw [hmakes] at hgrown
  refine ⟨?_, hconfined, hgrown⟩
  cases hempty : target.text.isEmpty with
  | true => exact (he hempty).of_grown hgrown
  | false => exact enters_of_isDirectory (isDirectory_of_makeDirectoriesFrom hempty hmakes)

/-- A directory is copied over another one that is apart from it, whatever is there and missing of
the target: what is below the source lies over what was below the target. -/
theorem copied_directory (he : target.text.isEmpty = false) (hs : t.lexicalPlace source = origin)
    (hg : t.lexicalPlace target = goal) (ha : Asunder origin goal) (hr : t.Rooted origin)
    (hw : ∀ place ∈ t.way target, ¬origin <+: place ∧ ¬Below goal place) :
    Confined (goal <+: ·) (t.way target) t
        ((FileTree.copyDirectory source target).run.run t).2 ∧
      (((FileTree.copyDirectory source target).run.run t).1 = .ok () → ∀ rel,
        ((FileTree.copyDirectory source target).run.run t).2.at? (goal ++ rel) =
          overlay (t.at? (origin ++ rel)) (t.at? (goal ++ rel))) := by
  have hensure : Confined (fun _ => False) (t.way target) t
      ((FileTree.ensureDirectory target).run.run t).2 :=
    confines_fileTree_ensureDirectory target t rfl
  unfold FileTree.copyDirectory
  rw [← copyFrom_listed]
  rcases hrun : (FileTree.ensureDirectory target).run.run t with ⟨result, t'⟩
  rw [hrun] at hensure
  have hwide : Confined (goal <+: ·) (t.way target) t t' :=
    hensure.mono (fun _ h => h.elim) fun _ h => .inr h
  cases result with
  | error f =>
    rw [copyFrom_succ, run_bind, hrun]
    exact ⟨hwide, by simp⟩
  | ok u =>
    obtain ⟨henters, -, -⟩ := enters_of_ensureDirectory (by simp [he]) hrun
    have hplace : t'.lexicalPlace target = goal := (lexicalPlace_congr hensure.working _).trans hg
    obtain ⟨mode, hd⟩ := henters.directory
    rw [hplace] at hd
    have horigin (rel : Place) : t'.at? (origin ++ rel) = t.at? (origin ++ rel) :=
      (hensure.outside _ id).resolve_right fun hc =>
        (hw _ hc.1).1 (List.prefix_append origin rel)
    have hgoal (rel : Place) (hrel : rel ≠ []) : t'.at? (goal ++ rel) = t.at? (goal ++ rel) := by
      obtain ⟨name, rel, rfl⟩ := List.exists_cons_of_ne_nil hrel
      exact (hensure.outside _ id).resolve_right fun hc => (hw _ hc.1).2 ⟨name, rel, rfl⟩
    have htop (mode' : Nat) : t'.at? goal = overlay (some (.directory mode')) (t.at? goal) := by
      rcases hensure.outside goal id with hk | ⟨-, hn, hnew⟩
      · rw [← hk, hd]
        rfl
      · rw [hn, hnew]
        rfl
    have hfilled := filled_copyFrom .listed pathLimit hrun
      ⟨(lexicalPlace_congr hensure.working _).trans hs, henters, hplace, ha, hr.congr horigin⟩
    refine ⟨hwide.trans (hfilled.confined.mono ?_ (by simp)), fun hok rel => ?_⟩
    · rintro _ ⟨_, _, rfl⟩
      exact List.prefix_append ..
    · by_cases hrel : rel = []
      · obtain ⟨mode', hat⟩ := hfilled.directory hok
        have hsame := horigin []
        rw [List.append_nil, hat] at hsame
        rw [hrel, List.append_nil, List.append_nil,
          at?_of_confined hfilled.confined (not_below_self _), htop mode', hsame]
      · rw [hfilled.overlaid hok rel hrel, horigin, hgoal rel hrel]

end Patchboard.Tree
