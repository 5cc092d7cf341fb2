import Patchboard.Proofs.Tree.Carrying

set_option autoImplicit false

namespace Patchboard.Tree
open Path

/-- A place, alone or with everything below it. -/
structure Region where
  place : Place
  whole : Bool

namespace Region
variable {r s : Region} {place : Place}

def Holds (r : Region) (place : Place) : Prop :=
  if r.whole then r.place <+: place else place = r.place

instance (r : Region) (place : Place) : Decidable (r.Holds place) :=
  inferInstanceAs (Decidable (if r.whole then _ else _))

def Meets (r s : Region) : Prop := r.Holds s.place ∨ s.Holds r.place

instance (r s : Region) : Decidable (r.Meets s) := inferInstanceAs (Decidable (_ ∨ _))

theorem meets_of_holds (hr : r.Holds place) (hs : s.Holds place) : r.Meets s := by
  obtain ⟨above, whole⟩ := r
  obtain ⟨above', whole'⟩ := s
  unfold Holds at hr hs
  unfold Meets Holds
  cases whole with
  | false => exact .inr ((show place = above from hr) ▸ hs)
  | true =>
    cases whole' with
    | false => exact .inl ((show place = above' from hs) ▸ hr)
    | true => exact List.prefix_or_prefix_of_prefix hr hs

end Region

def spot (t : Tree) (p : Path) : Region := ⟨t.lexicalPlace p, false⟩

def whole (t : Tree) (p : Path) : Region := ⟨t.lexicalPlace p, true⟩

/-- The places on the way to a path where nothing stands. -/
def missing (t : Tree) (p : Path) : List Place := (t.way p).filter fun place => (t.at? place).isNone

/-- The places that a job passes, those that it has to find as they are, those that it may alter,
and those where it may make a directory that is missing. -/
structure Deed where
  passes : List Place
  finds : List Region
  alters : List Region
  makes : List Place

theorem mem_missing {t : Tree} {p : Path} {place : Place} (hm : place ∈ t.way p)
    (hn : t.at? place = none) : place ∈ t.missing p :=
  List.mem_filter.2 ⟨hm, by rw [hn]; rfl⟩

namespace Deed

def looking (t : Tree) (paths : List Path) : Deed :=
  ⟨paths.flatMap t.way, paths.map t.spot, [], []⟩

def making (t : Tree) (p : Path) : Deed := ⟨t.way p, [], [], t.missing p⟩

def writing (t : Tree) (p : Path) : Deed := ⟨t.way p, [t.spot p], [t.spot p], t.missing p⟩

def Alters (d : Deed) (place : Place) : Prop := ∃ r ∈ d.alters, r.Holds place

def Firm (d : Deed) (place : Place) : Prop := ∃ r ∈ d.finds, r.Holds place

def Seen (d : Deed) (place : Place) : Prop := place ∈ d.passes ∨ d.Firm place

/-- A later job passes no place that this one alters, and finds nothing that this one alters or
makes. -/
structure Spares (d e : Deed) : Prop where
  passes : ∀ place ∈ e.passes, ¬d.Alters place
  finds : ∀ s ∈ e.finds, ∀ r ∈ d.alters, ¬r.Meets s
  makes : ∀ place ∈ d.makes, ¬e.Firm place

instance (d : Deed) (place : Place) : Decidable (d.Alters place) :=
  inferInstanceAs (Decidable (∃ r ∈ d.alters, r.Holds place))

instance (d : Deed) (place : Place) : Decidable (d.Firm place) :=
  inferInstanceAs (Decidable (∃ r ∈ d.finds, r.Holds place))

instance (d e : Deed) : Decidable (d.Spares e) :=
  decidable_of_iff ((∀ place ∈ e.passes, ¬d.Alters place) ∧
      (∀ s ∈ e.finds, ∀ r ∈ d.alters, ¬r.Meets s) ∧ ∀ place ∈ d.makes, ¬e.Firm place)
    ⟨fun h => ⟨h.1, h.2.1, h.2.2⟩, fun h => ⟨h.passes, h.finds, h.makes⟩⟩

end Deed

/-- What some jobs may leave of a tree. -/
def Left (base : Tree) (done : List Deed) (u : Tree) : Prop :=
  Carries base (fun place => ∀ d ∈ done, ¬d.Alters place) (fun place => ∀ d ∈ done, place ∉ d.makes)
    base u

variable {base u u' : Tree} {done : List Deed} {d e : Deed} {p : Path} {place : Place}

theorem Left.start (base : Tree) : Left base [] base := .refl rfl

theorem Left.mono {more : List Deed} (h : Left base done u) (hm : ∀ d ∈ done, d ∈ more) :
    Left base more u :=
  Carries.mono h (fun _ hp d hd => hp d (hm d hd)) fun _ hp d hd => hp d (hm d hd)

theorem Left.of_look (h : Left base done u) (hw : u'.working = u.working)
    (hl : ∀ place, u'.look place = u.look place) : Left base done u' :=
  Carries.of_look h hw hl

/-- Between two trees nothing is done but what a job may do. -/
def Deed.Allows (d : Deed) (base u u' : Tree) : Prop :=
  ∃ way, Confined d.Alters way u u' ∧
    ∀ place ∈ way, base.at? place = none → place ∈ d.makes ∨ d.Alters place

theorem Left.next (h : Left base done u) (ha : d.Allows base u u') :
    Left base (done ++ [d]) u' := by
  have hd : d ∈ done ++ [d] := List.mem_append_right _ (List.mem_singleton_self d)
  have hmore := h.mono fun e he => List.mem_append_left [d] he
  obtain ⟨way, hc, hw⟩ := ha
  refine Carries.confined hmore hc (fun place hp => ⟨hp, hp d hd⟩)
    fun place hp hf => ⟨hf, fun ⟨hway, hn⟩ => ?_⟩
  exact (hw place hway hn).elim (hf d hd) (hp d hd)

theorem Left.carries (h : Left base done u) (hs : ∀ d ∈ done, d.Spares e) :
    Carries base e.Seen e.Firm base u := by
  refine Carries.mono h (fun place hp d hd hc => ?_)
    fun place hp d hd hm => (hs d hd).makes place hm hp
  rcases hp with hp | ⟨s, hmem, hp⟩
  · exact (hs d hd).passes place hp hc
  · obtain ⟨r, hr, hc⟩ := hc
    exact (hs d hd).finds s hmem r hr (Region.meets_of_holds hc hp)

theorem view_of_looking {paths : List Path} (h : Left base done u)
    (hs : ∀ d ∈ done, d.Spares (.looking base paths)) (hc : base.Closed) (hp : p ∈ paths)
    (hsteady : base.Steady p) : u.view p = base.view p := by
  refine (h.carries hs).view hc hsteady (fun place hm => .inl (List.mem_flatMap.2 ⟨p, hp, hm⟩)) ?_
  exact ⟨base.spot p, List.mem_map_of_mem hp, rfl⟩

end Patchboard.Tree
