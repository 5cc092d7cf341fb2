import Patchboard.Proofs.Tree.Confinement
import Patchboard.Proofs.Tree.View
import Patchboard.Proofs.Tree.Walking

set_option autoImplicit false

namespace Patchboard.Tree
open Path

/-- What is seen of `t` stands in `u`. Where nothing stood there may be a directory by now, unless
the place is firm. -/
structure Carries (base : Tree) (seen firm : Place → Prop) (t u : Tree) : Prop where
  first : t.working = base.working
  second : u.working = base.working
  stays : ∀ place, seen place → u.look place = t.look place ∨
    ¬firm place ∧ t.look place = none ∧ u.look place = some (.directory 0)

/-- All that a path leads through is seen. -/
def Passes (base : Tree) (seen : Place → Prop) (p : Path) : Prop := ∀ place ∈ base.way p, seen place

variable {base t t' u u' : Tree} {seen firm seen' firm' : Place → Prop} {p : Path}
  {place goal : Place}

theorem Passes.parent {parent : Path} (h : Passes base seen p) (hp : p.parent? = some parent) :
    Passes base seen parent :=
  fun place hm => h place (mem_way_of_parent hp hm)

theorem Passes.last (h : Passes base seen p) : seen (base.lexicalPlace p) :=
  h _ (lexicalPlace_mem_way base p)

theorem look_eq_none : t.look place = none ↔ t.at? place = none := Option.map_eq_none_iff

theorem isSome_look (t : Tree) (place : Place) : (t.look place).isSome = (t.at? place).isSome :=
  Option.isSome_map

theorem look_eq_directory :
    t.look place = some (.directory 0) ↔ ∃ mode, t.at? place = some (.directory mode) :=
  ⟨at?_of_look_directory, fun ⟨_, h⟩ => look_directory h⟩

namespace Carries

theorem refl (h : t.working = base.working) : Carries base seen firm t t :=
  ⟨h, h, fun _ _ => .inl rfl⟩

theorem mono (h : Carries base seen firm t u) (hs : ∀ place, seen' place → seen place)
    (hf : ∀ place, firm' place → firm place) : Carries base seen' firm' t u :=
  ⟨h.first, h.second, fun place hp =>
    (h.stays place (hs place hp)).imp_right (And.imp_left fun hn hc => hn (hf place hc))⟩

section
variable (h : Carries base seen firm t u)
include h

theorem directory (hp : seen place) (hd : t.look place = some (.directory 0)) :
    u.look place = some (.directory 0) := by
  rcases h.stays place hp with hsame | ⟨-, hn, -⟩
  · rw [hsame, hd]
  · rw [hd] at hn
    cases hn

theorem of_directory (hp : seen place) (hd : u.look place = some (.directory 0)) :
    t.look place = none ∨ t.look place = some (.directory 0) := by
  rcases h.stays place hp with hsame | ⟨-, hn, -⟩
  · exact .inr (hsame ▸ hd)
  · exact .inl hn

theorem of_firm (hp : seen place) (hf : firm place) : u.look place = t.look place :=
  (h.stays place hp).resolve_right fun hc => hc.1 hf

theorem of_some (hp : seen place) (hs : (t.at? place).isSome) : u.look place = t.look place := by
  refine (h.stays place hp).resolve_right fun hc => ?_
  rw [look_eq_none.1 hc.2.1] at hs
  cases hs

theorem lexicalPlace (p : Path) :
    t.lexicalPlace p = base.lexicalPlace p ∧ u.lexicalPlace p = base.lexicalPlace p :=
  ⟨lexicalPlace_congr h.first p, lexicalPlace_congr h.second p⟩

theorem origin (p : Path) : t.origin p = base.origin p ∧ u.origin p = base.origin p := by
  simp only [Tree.origin, h.first, h.second, and_self]

theorem locate (hp : Passes base seen p) (hl : t.locate p = .ok place) :
    u.locate p = .ok place := by
  obtain ⟨hz, he, hb, hw⟩ := locate_eq_ok.1 hl
  rw [(h.origin p).1] at hw
  obtain ⟨hgoal, hover⟩ := walk_eq_ok.1 hw
  refine locate_eq_ok.2 ⟨hz, he, hb, ?_⟩
  rw [(h.origin p).2]
  refine walk_eq_ok.2 ⟨hgoal, fun before s hs => ?_⟩
  obtain ⟨hd, hshort⟩ := hover before s hs
  have hseen := hp _ (mem_way_of_start ((List.prefix_append before [s]).trans hs))
  exact ⟨look_eq_directory.1 (h.directory hseen (look_eq_directory.2 hd)), hshort⟩

theorem reached (hp : Passes base seen p) (hl : t.locate p = .ok place) :
    place = base.lexicalPlace p ∧ seen place := by
  obtain rfl : place = base.lexicalPlace p := (locate_ok hl).trans (h.lexicalPlace p).1
  exact ⟨rfl, hp.last⟩

theorem find (hp : Passes base seen p) {entry : Entry} (hf : t.find p = .ok (place, entry)) :
    ∃ entry', u.find p = .ok (place, entry') ∧ entry'.withMode 0 = entry.withMode 0 := by
  obtain ⟨hl, ha⟩ := find_ok hf
  have hlook := h.of_some (h.reached hp hl).2 (by rw [ha]; rfl)
  rw [look, look, ha] at hlook
  obtain ⟨entry', ha', hsame⟩ := Option.map_eq_some_iff.1 hlook
  refine ⟨entry', ?_, hsame⟩
  have hfile : entry'.isFile = entry.isFile := by
    rw [← isFile_withMode 0 entry', hsame, isFile_withMode]
  unfold Tree.find at hf ⊢
  rw [hl] at hf
  rw [h.locate hp hl]
  dsimp only at hf ⊢
  rw [ha] at hf
  rw [ha']
  dsimp only at hf ⊢
  rw [hfile]
  split at hf
  · cases hf
  · rename_i hends
    rw [if_neg hends]

theorem pathExists (hp : Passes base seen p) (hx : t.pathExists p = true) :
    u.pathExists p = true := by
  unfold Tree.pathExists find? at hx ⊢
  cases hf : t.find p with
  | error e => rw [hf] at hx; cases hx
  | ok found =>
    obtain ⟨place, entry⟩ := found
    obtain ⟨entry', hf', -⟩ := h.find hp hf
    rw [hf']
    rfl

theorem isDirectory (hp : Passes base seen p) (hd : t.isDirectory p = true) :
    u.isDirectory p = true := by
  obtain ⟨place, mode, hl, ha⟩ := isDirectory_iff.1 hd
  obtain ⟨mode', ha'⟩ := look_eq_directory.1 (h.directory (h.reached hp hl).2 (look_directory ha))
  exact isDirectory_iff.2 ⟨place, mode', h.locate hp hl, ha'⟩

theorem put_both (place : Place) {entry entry' : Entry}
    (he : entry'.withMode 0 = entry.withMode 0) :
    Carries base seen firm (t.put place entry) (u.put place entry') := by
  refine ⟨h.first, h.second, fun other hp => ?_⟩
  rw [look_put, look_put]
  split
  · exact .inl (congrArg some he)
  · exact h.stays other hp

theorem put_first (hd : u.look place = some (.directory 0)) (mode : Nat) :
    Carries base seen firm (t.put place (.directory mode)) u := by
  refine ⟨h.first, h.second, fun other hp => ?_⟩
  rw [look_put]
  split
  · rename_i hc
    exact .inl (hc.1 ▸ hd)
  · exact h.stays other hp

theorem of_look (hw : u'.working = u.working) (hl : ∀ place, u'.look place = u.look place) :
    Carries base seen firm t u' := by
  refine ⟨h.first, hw.trans h.second, fun place hp => ?_⟩
  rw [hl]
  exact h.stays place hp

theorem confined {inside : Place → Prop} {way : List Place} (hc : Confined inside way u u')
    (hs : ∀ place, seen' place → seen place ∧ ¬inside place)
    (hf : ∀ place, seen' place → firm' place →
      firm place ∧ ¬(place ∈ way ∧ t.at? place = none)) : Carries base seen' firm' t u' := by
  refine ⟨h.first, hc.working.trans h.second, fun place hp => ?_⟩
  obtain ⟨hseen, hinside⟩ := hs place hp
  have hbefore := h.stays place hseen
  rcases hc.outside place hinside with hsame | ⟨hway, hn, hd⟩
  · have hlook : u'.look place = u.look place := congrArg _ hsame
    rw [hlook]
    exact hbefore.imp_right (And.imp_left fun hnot hfirm => hnot (hf place hp hfirm).1)
  · have hlook : t.look place = none := by
      rcases hbefore with hk | ⟨-, hn', -⟩
      · rw [← hk]
        exact look_eq_none.2 hn
      · exact hn'
    exact .inr ⟨fun hfirm => (hf place hp hfirm).2 ⟨hway, look_eq_none.1 hlook⟩, hlook,
      look_directory hd⟩

end

theorem steadyFrom_of_isSome {segments : List (List Char)}
    (h : ∀ before s, before ++ [s] <+: segments →
      (t.at? (before.foldl stepInto place)).isSome → (u.at? (before.foldl stepInto place)).isSome)
    (hs : SteadyFrom t place segments) : SteadyFrom u place segments := by
  induction segments generalizing place with
  | nil => trivial
  | cons s segments ih =>
    obtain ⟨hup, hs⟩ := hs
    refine ⟨fun he => h [] s (by simp) (hup he), ih (fun before s' hb => ?_) hs⟩
    exact h (s :: before) s' (List.cons_prefix_cons.2 ⟨rfl, hb⟩)

theorem steady (h : Carries base seen firm base u) (hp : Passes base seen p)
    (hs : base.Steady p) : u.Steady p := by
  unfold Tree.Steady at hs ⊢
  rw [(h.origin p).2]
  refine steadyFrom_of_isSome (fun before s hpre hthere => ?_) hs
  have hseen := hp _ (mem_way_of_start ((List.prefix_append before [s]).trans hpre))
  rw [← isSome_look, h.of_some hseen hthere, isSome_look]
  exact hthere

section
variable (h : Carries base seen firm base u) (hc : base.Closed) (hs : base.Steady p)
  (hp : Passes base seen p)
include h hc hs hp

/-- What is there and can be reached now could be reached before, unless the way goes up out of
something new. -/
theorem locate_of_steady (hl : u.locate p = .ok goal) (ha : (base.at? goal).isSome) :
    base.locate p = .ok goal := by
  obtain ⟨hz, he, hb, hw⟩ := locate_eq_ok.1 hl
  rw [(h.origin p).2] at hw
  obtain ⟨hgoal, hover⟩ := walk_eq_ok.1 hw
  refine locate_eq_ok.2 ⟨hz, he, hb, walk_eq_ok.2 ⟨hgoal, fun before s hpre => ?_⟩⟩
  obtain ⟨hd, hshort⟩ := hover before s hpre
  have hseen := hp _ (mem_way_of_start ((List.prefix_append before [s]).trans hpre))
  refine ⟨look_eq_directory.1 ?_, hshort⟩
  refine (h.of_directory hseen (look_eq_directory.2 hd)).resolve_left fun hn => ?_
  obtain ⟨rest, hrest⟩ := hpre
  rw [Steady, ← hrest, List.append_assoc, steadyFrom_append] at hs
  rw [hgoal, ← hrest, List.append_assoc, List.foldl_append,
    absent_of_steadyFrom hc (look_eq_none.1 hn) hs.2] at ha
  cases ha

theorem view (hf : firm (base.lexicalPlace p)) : u.view p = base.view p := by
  have hlook := h.of_firm hp.last hf
  have hview (t : Tree) (hl : t.locate p = .ok (base.lexicalPlace p)) : t.view p =
      (t.look (base.lexicalPlace p)).bind fun e =>
        if endsInSeparator p && e.isFile then none else some e := by
    unfold Tree.view find? Tree.find look
    rw [hl]
    dsimp only
    cases t.at? (base.lexicalPlace p) with
    | none => rfl
    | some entry =>
      rw [Option.map_some, Option.bind_some, isFile_withMode]
      dsimp only
      split <;> rfl
  have hmissing (t : Tree) (hl : ∀ place, t.locate p = .ok place → t.at? place = none) :
      t.view p = none := by
    unfold Tree.view find? Tree.find
    cases hlocate : t.locate p with
    | error e => rfl
    | ok place =>
      dsimp only
      rw [hl place hlocate]
      rfl
  cases hl : base.locate p with
  | ok place =>
    obtain rfl := locate_ok hl
    rw [hview u (h.locate hp hl), hview base hl, hlook]
  | error e =>
    rw [hmissing base (by simp [hl]), hmissing u fun place hl' => ?_]
    by_contra hn
    obtain rfl : place = base.lexicalPlace p := (locate_ok hl').trans (h.lexicalPlace p).2
    have hsome := isSome_look u (base.lexicalPlace p)
    rw [hlook, isSome_look, Option.isSome_iff_ne_none.2 hn] at hsome
    rw [h.locate_of_steady hc hs hp hl' hsome] at hl
    cases hl

end

end Carries

end Patchboard.Tree
