import Mathlib.Data.List.Find
import Patchboard.Permissions
import Patchboard.Proofs.Path.Names
import Patchboard.Proofs.Tree.Copying
import Patchboard.Proofs.Tree.Listing
import Patchboard.Proofs.Tree.Removal
import Patchboard.Proofs.Tree.View

set_option autoImplicit false

namespace Patchboard.Tree
open Path

/-- Places that a tree keeps for itself: what is below some is hidden, and some are directories that
have to stay. -/
structure Reserve where
  closed : List Place
  kept : List Place

/-- Not below any closed place. -/
def Off (r : Reserve) (place : Place) : Prop := ∀ k ∈ r.closed, ¬Below k place

/-- Neither at, nor above, nor below any closed place, and not at or above any that is kept. -/
structure Aloof (r : Reserve) (place : Place) : Prop where
  closed : ∀ k ∈ r.closed, Asunder k place
  kept : ∀ k ∈ r.kept, ¬place <+: k

/-- A place all of whose names are names. -/
def Spelled (place : Place) : Prop := ∀ name ∈ place, IsName name

instance (base place : Place) : Decidable (Below base place) :=
  decidable_of_iff (base <+: place ∧ base ≠ place) <| by
    constructor
    · rintro ⟨⟨_ | ⟨name, rel⟩, rfl⟩, hne⟩
      · exact absurd (List.append_nil base).symm hne
      · exact ⟨name, rel, rfl⟩
    · rintro ⟨name, rel, rfl⟩
      exact ⟨List.prefix_append .., by simp⟩

instance (place : Place) : Decidable (Spelled place) :=
  inferInstanceAs (Decidable (∀ name ∈ place, IsName name))

instance (r : Reserve) (place : Place) : Decidable (Off r place) :=
  inferInstanceAs (Decidable (∀ k ∈ r.closed, ¬Below k place))

instance (r : Reserve) (place : Place) : Decidable (Aloof r place) :=
  decidable_of_iff ((∀ k ∈ r.closed, Asunder k place) ∧ ∀ k ∈ r.kept, ¬place <+: k)
    ⟨fun h => ⟨h.1, h.2⟩, fun h => ⟨h.closed, h.kept⟩⟩

/-- A relation between two trees that what happens off some places keeps up, and that shows the same
there. A directory may not be put out of the way of a file. -/
structure Blind (r : Reserve) (base : Tree) (Q : Tree → Tree → Prop) : Prop where
  spelled : Spelled base.working
  working : ∀ {t u}, Q t u → t.working = base.working ∧ u.working = base.working
  named : ∀ {t u}, Q t u → t.Named
  at? : ∀ {t u place}, Q t u → Off r place → u.at? place = t.at? place
  names : ∀ {t u place}, Q t u → (∀ k ∈ r.closed, ¬k <+: place) → u.names place = t.names place
  put : ∀ {t u place entry}, Q t u → Off r place → Spelled place →
    (∀ mode, t.at? place = some (.directory mode) → entry.isDirectory = true) →
    Q (t.put place entry) (u.put place entry)
  removeBelow : ∀ {t u place}, Q t u → Aloof r place →
    Q (t.removeBelow place) (u.removeBelow place)
  relocate : ∀ {t u source goal}, Q t u → Aloof r source → Aloof r goal → Spelled goal →
    Q (t.relocate source goal) (u.relocate source goal)

/-- A path that leads through nothing below some places. -/
def Seen (r : Reserve) (base : Tree) (p : Path) : Prop := ∀ place ∈ base.way p, Off r place

/-- A path that also lies apart from these places. -/
structure Clear (r : Reserve) (base : Tree) (p : Path) : Prop where
  seen : Seen r base p
  apart : Aloof r (base.lexicalPlace p)

instance (r : Reserve) (base : Tree) (p : Path) : Decidable (Seen r base p) :=
  inferInstanceAs (Decidable (∀ place ∈ base.way p, Off r place))

instance (r : Reserve) (base : Tree) (p : Path) : Decidable (Clear r base p) :=
  decidable_of_iff (Seen r base p ∧ Aloof r (base.lexicalPlace p))
    ⟨fun h => ⟨h.1, h.2⟩, fun h => ⟨h.seen, h.apart⟩⟩

variable {r : Reserve} {base t u : Tree} {Q : Tree → Tree → Prop} {p : Path} {place : Place}

theorem Aloof.off (h : Aloof r place) : Off r place := by
  rintro k hk ⟨name, rel, rfl⟩
  exact (h.closed k hk).1 (List.prefix_append ..)

theorem Aloof.append (h : Aloof r place) (rel : Place) : Aloof r (place ++ rel) := by
  refine ⟨fun k hk => ⟨fun hp => ?_, fun hp => ?_⟩, fun k hk hp => ?_⟩
  · rcases List.prefix_or_prefix_of_prefix hp (List.prefix_append place rel) with hp | hp
    · exact (h.closed k hk).1 hp
    · exact (h.closed k hk).2 hp
  · exact (h.closed k hk).2 ((List.prefix_append ..).trans hp)
  · exact h.kept k hk ((List.prefix_append ..).trans hp)

theorem spelled_stepInto (h : Spelled place) {s : List Char} (hs : '/' ∉ s) :
    Spelled (stepInto place s) := by
  unfold stepInto
  split
  · exact fun name hn => h name (List.mem_of_mem_dropLast hn)
  · rename_i hup
    split
    · exact h
    · rename_i hidle
      intro name hn
      rcases List.mem_append.1 hn with hn | hn
      · exact h name hn
      · rw [List.mem_singleton.1 hn]
        refine ⟨?_, ?_, ?_⟩ <;> rw [String.toList_ofList]
        · simpa using hidle
        · exact hs
        · exact hup

theorem spelled_foldl {segments : List (List Char)} (h : Spelled place)
    (hs : ∀ s ∈ segments, '/' ∉ s) : Spelled (segments.foldl stepInto place) := by
  induction segments generalizing place with
  | nil => exact h
  | cons s segments ih =>
    exact ih (spelled_stepInto h (hs s (List.mem_cons_self ..))) fun other ho =>
      hs other (List.mem_cons_of_mem _ ho)

theorem spelled_lexicalPlace (h : Spelled base.working) (p : Path) :
    Spelled (base.lexicalPlace p) := by
  rw [lexicalPlace_eq]
  refine spelled_foldl ?_ fun s hs => not_mem_of_mem_segments (List.mem_filter.1 hs).1
  unfold origin
  split
  · simp [Spelled]
  · exact h

theorem seen_of_parent {parent : Path} (h : Seen r base p) (hp : p.parent? = some parent) :
    Seen r base parent :=
  fun place hw => h place (mem_way_of_parent hp hw)

theorem seen_of_mem_ancestorsFrom {fuel : Nat} {ancestor : Path} (h : Seen r base p)
    (ha : ancestor ∈ p.ancestorsFrom fuel) : Seen r base ancestor :=
  fun place hw => h place (mem_way_of_mem_ancestorsFrom ha hw)

theorem Clear.join {name : String} (hn : IsName name) (h : Clear r base p) :
    Clear r base (p.join ⟨name⟩) := by
  have hplace : Aloof r (base.lexicalPlace p ++ [name]) := h.apart.append _
  refine ⟨fun place hp => ?_, ?_⟩
  · rcases (mem_way_join hn).1 hp with hp | rfl
    · exact h.seen place hp
    · exact hplace.off
  · rw [lexicalPlace_join hn]
    exact hplace

theorem Clear.seen_withFileName {name : String} (hn : IsName name) (h : Clear r base p) :
    Seen r base (p.withFileName name.toList) := by
  have hjoin (q : Path) (hq : Seen r base q) (hp : base.lexicalPlace q <+: base.lexicalPlace p) :
      Seen r base (q.join ⟨name⟩) := by
    intro place hw
    rcases (mem_way_join hn).1 hw with hw | rfl
    · exact hq place hw
    · rintro k hk ⟨first, rel, he⟩
      have hlength := congrArg List.length he
      simp only [List.length_append, List.length_cons, List.length_nil] at hlength
      have habove : k <+: base.lexicalPlace q :=
        List.prefix_of_prefix_length_le ⟨first :: rel, he.symm⟩ (List.prefix_append _ [name])
          (by omega)
      exact (h.apart.closed k hk).1 (habove.trans hp)
  have hname : Path.ofChars name.toList = ⟨name⟩ := by rw [Path.ofChars, String.ofList_toList]
  unfold withFileName
  rw [hname]
  cases hfile : p.fileName? with
  | none => exact hjoin p h.seen List.prefix_rfl
  | some n =>
    dsimp only
    cases hparent : p.parent? with
    | none => exact hjoin p h.seen List.prefix_rfl
    | some q =>
      refine hjoin q (seen_of_parent h.seen hparent) ?_
      obtain ⟨habsolute, hsteps⟩ := parent?_eq_some hparent
      obtain ⟨hlast, hforth⟩ := getLast?_steps hfile
      obtain ⟨before, hbefore⟩ := List.getLast?_eq_some_iff.1 hlast
      have hsolid : isIdle n = false := by
        have hm := List.mem_of_getLast? hlast
        simpa [steps] using (List.mem_filter.1 hm).2
      rw [hbefore, List.dropLast_concat] at hsteps
      rw [lexicalPlace_eq, lexicalPlace_eq, origin, origin, habsolute, hsteps, hbefore,
        List.foldl_append]
      simp [stepInto, hforth, hsolid]

section
variable (hw : t.working = base.working ∧ u.working = base.working)
include hw

theorem locate_of_way (h : ∀ place ∈ base.way p, u.look place = t.look place) :
    u.locate p = t.locate p := by
  have horigin : t.origin p = base.origin p ∧ u.origin p = base.origin p := by
    simp only [origin, hw, and_self]
  have hsame : u.walk (u.origin p) (route p) = t.walk (t.origin p) (route p) := by
    rw [horigin.1, horigin.2]
    refine walk_congr fun before hb => h _ (mem_way.2 ⟨_, ?_, (foldl_stepInto before _).symm⟩)
    rw [← filter_route]
    exact hb.filter _
  unfold Tree.locate
  unfold origin at hsame
  rw [hsame]

theorem find_of_way (h : ∀ place ∈ base.way p, u.at? place = t.at? place) :
    u.find p = t.find p := by
  unfold Tree.find
  rw [locate_of_way hw fun place hm => congrArg _ (h place hm)]
  cases hl : t.locate p with
  | error e => rfl
  | ok place =>
    have hplace : place = base.lexicalPlace p := (locate_ok hl).trans (lexicalPlace_congr hw.1 p)
    dsimp only
    rw [hplace, h _ (lexicalPlace_mem_way base p)]

theorem text?_of_way (h : ∀ place ∈ base.way p, u.look place = t.look place) :
    u.text? p = t.text? p := by
  unfold Tree.text? contents? Tree.find
  rw [locate_of_way hw h]
  cases hl : t.locate p with
  | error e => rfl
  | ok place =>
    obtain rfl : place = base.lexicalPlace p :=
      (locate_ok hl).trans (lexicalPlace_congr hw.1 p)
    have hlast := h _ (lexicalPlace_mem_way base p)
    unfold look at hlast
    dsimp only
    cases ht : t.at? (base.lexicalPlace p) with
    | none =>
      rw [ht, Option.map_none, Option.map_eq_none_iff] at hlast
      rw [hlast]
    | some entry =>
      rw [ht, Option.map_some] at hlast
      obtain ⟨entry', hu, hsame⟩ := Option.map_eq_some_iff.1 hlast
      rw [hu]
      cases entry <;> cases entry' <;> cases hsame
      all_goals cases endsInSeparator p <;> rfl

end

section
variable (h : Blind r base Q) (hq : Q t u)
include h hq

theorem Blind.lexicalPlace (p : Path) :
    t.lexicalPlace p = base.lexicalPlace p ∧ u.lexicalPlace p = base.lexicalPlace p :=
  ⟨lexicalPlace_congr (h.working hq).1 p, lexicalPlace_congr (h.working hq).2 p⟩

theorem Blind.same (hp : Seen r base p) : ∀ place ∈ base.way p, u.at? place = t.at? place :=
  fun place hw => h.at? hq (hp place hw)

theorem Blind.locate (hp : Seen r base p) : u.locate p = t.locate p :=
  locate_of_way (h.working hq) fun place hw => congrArg _ (h.same hq hp place hw)

theorem Blind.off_of_locate (hp : Seen r base p) (hl : t.locate p = .ok place) :
    Off r place ∧ Spelled place ∧ place = base.lexicalPlace p := by
  obtain rfl : place = base.lexicalPlace p := (locate_ok hl).trans (h.lexicalPlace hq p).1
  exact ⟨hp _ (lexicalPlace_mem_way base p), spelled_lexicalPlace h.spelled p, rfl⟩

theorem Blind.find (hp : Seen r base p) : u.find p = t.find p :=
  find_of_way (h.working hq) (h.same hq hp)

theorem Blind.retrace (hp : Seen r base p) : u.retrace p = t.retrace p := by
  have hw : u.working = t.working := (h.working hq).2.trans (h.working hq).1.symm
  refine retrace_of_way hw fun place hm => h.same hq hp place ?_
  rwa [way, origin, (h.working hq).1] at hm

theorem Blind.find? (hp : Seen r base p) : u.find? p = t.find? p := by
  unfold Tree.find?
  rw [h.find hq hp]

theorem Blind.view (hp : Seen r base p) : u.view p = t.view p := by
  unfold Tree.view
  rw [h.find? hq hp]

theorem Blind.pathExists (hp : Seen r base p) : u.pathExists p = t.pathExists p := by
  unfold Tree.pathExists
  rw [h.find? hq hp]

theorem Blind.isFile (hp : Seen r base p) : u.isFile p = t.isFile p := by
  unfold Tree.isFile
  rw [h.find? hq hp]

theorem Blind.isDirectory (hp : Seen r base p) : u.isDirectory p = t.isDirectory p := by
  unfold Tree.isDirectory
  rw [h.find? hq hp]

theorem Blind.text? (hp : Seen r base p) : u.text? p = t.text? p :=
  text?_of_way (h.working hq) fun place hw => congrArg _ (h.same hq hp place hw)

theorem Blind.writable? (hp : Seen r base p) : u.writable? p = t.writable? p := by
  unfold Tree.writable?
  rw [h.locate hq hp]
  cases hl : t.locate p with
  | error e => rfl
  | ok place =>
    dsimp only
    rw [h.at? hq (h.off_of_locate hq hp hl).1]

theorem Blind.probe? (hp : Seen r base p) : u.probe? p = t.probe? p ∧
    ∀ target ∈ t.probe? p, Seen r base target := by
  have hancestor (ancestor : Path)
      (ha : ancestor ∈ p.ancestors.filter fun a => !a.text.isEmpty) : Seen r base ancestor :=
    seen_of_mem_ancestorsFrom hp (List.mem_filter.1 ha).1
  have hfirst : u.firstExisting? p = t.firstExisting? p :=
    List.find?_congr fun ancestor ha => h.pathExists hq (hancestor ancestor ha)
  unfold Tree.probe?
  rw [h.pathExists hq hp, hfirst]
  refine ⟨rfl, fun target ht => ?_⟩
  split at ht
  · exact Option.some.inj ht ▸ hp
  · exact hancestor target (List.mem_of_find?_eq_some ht)

theorem Blind.isWritable (hp : Seen r base p) : u.isWritable p = t.isWritable p := by
  obtain ⟨hsame, hseen⟩ := h.probe? hq hp
  unfold Tree.isWritable
  rw [hsame]
  cases ht : t.probe? p with
  | none => rfl
  | some target =>
    rw [Option.any_some, Option.any_some]
    unfold hasWriteBit mode?
    rw [h.find? hq (hseen target ht)]

end

end Patchboard.Tree
