import Patchboard.Proofs.Tree.Confinement

set_option autoImplicit false

namespace Patchboard.Tree
open Path

variable {t t' : Tree} {p : Path} {place : Place}

theorem within_iff {base : Place} : within place base = true ↔ base <+: place :=
  List.isPrefixOf_iff_prefix

theorem at?_removeBelow (t : Tree) {base : Place} (hb : base ≠ []) (place : Place) :
    (t.removeBelow base).at? place = if base <+: place then none else t.at? place := by
  by_cases hroot : place = []
  · rw [hroot, if_neg (by simpa using hb)]
    rfl
  have hat (t : Tree) : t.at? place = (t.entries.find? fun e => e.1 = place).map (·.2) := by
    rw [at?, if_neg (by simpa using hroot)]
  rw [hat, hat, removeBelow, List.find?_filter]
  split
  · rename_i hp
    rw [List.find?_eq_none.2, Option.map_none]
    intro e _
    simp only [Bool.not_eq_true', decide_eq_true_eq, not_and]
    rintro hn rfl
    rw [within_iff.2 hp] at hn
    cases hn
  · rename_i hp
    refine congrArg _ (congrArg (List.find? · t.entries) (funext fun e => ?_))
    by_cases he : e.1 = place
    · have hfalse : within place base = false := by
        rw [Bool.eq_false_iff, ne_eq, within_iff]
        exact hp
      simp [he, hfalse]
    · simp [he]

theorem at?_removeBelow_root (t : Tree) (name : String) (rel : Place) :
    (t.removeBelow []).at? (name :: rel) = none := by
  simp [at?, removeBelow, within]

theorem Keyed.removeBelow (h : t.Keyed) (base : Place) : (t.removeBelow base).Keyed :=
  (List.filter_sublist.map _).nodup h

theorem confined_removeBelow {inside : Place → Prop} {way : List Place} {base : Place}
    (hb : base ≠ []) (hi : ∀ place, base <+: place → inside place) :
    Confined inside way t (t.removeBelow base) := by
  refine ⟨rfl, fun hk => hk.removeBelow base, fun other ho => .inl ?_⟩
  rw [at?_removeBelow t hb, if_neg fun hp => ho (hi other hp)]

theorem walk_congr {u : Tree} {place : Place} {segments : List (List Char)}
    (h : ∀ before, before <+: segments →
      u.look (before.foldl stepInto place) = t.look (before.foldl stepInto place)) :
    u.walk place segments = t.walk place segments := by
  induction segments generalizing place with
  | nil => rfl
  | cons s segments ih =>
    have hhere : u.look place = t.look place := h [] List.nil_prefix
    have hrest := ih fun before hb => h (s :: before) (List.cons_prefix_cons.2 ⟨rfl, hb⟩)
    rw [walk, walk, hrest]
    unfold look at hhere
    cases ht : t.at? place with
    | none =>
      rw [ht, Option.map_none, Option.map_eq_none_iff] at hhere
      rw [hhere]
    | some entry =>
      rw [ht, Option.map_some] at hhere
      obtain ⟨entry', hu, hsame⟩ := Option.map_eq_some_iff.1 hhere
      rw [hu]
      cases entry <;> cases entry' <;> first | rfl | cases hsame

/-- A path that leads through something below the place it leads to. -/
def DoublesBack (t : Tree) (p : Path) : Prop :=
  ∃ name rel, t.lexicalPlace p ++ name :: rel ∈ t.way p

theorem doublesBack_congr {u : Tree} (h : u.working = t.working) (p : Path) :
    u.DoublesBack p ↔ t.DoublesBack p := by
  unfold DoublesBack way origin
  rw [lexicalPlace_congr h, h]

theorem retrace_eq (t : Tree) (p : Path) : ∃ up rest, up ++ rest = route p ∧
    ∀ u : Tree, u.working = t.working →
      u.retrace p = u.walk (up.foldl stepInto (t.origin p)) rest := by
  refine ⟨(route p).takeWhile climbs, (route p).dropWhile climbs,
    List.takeWhile_append_dropWhile, fun u hw => ?_⟩
  rw [origin, ← hw]
  rfl

theorem mem_way_of_route {up rest before : List (List Char)} (hr : up ++ rest = route p)
    (hb : before <+: rest) :
    before.foldl stepInto (up.foldl stepInto (t.origin p)) ∈ t.way p := by
  rw [← List.foldl_append, foldl_stepInto]
  refine mem_way.2 ⟨_, ?_, rfl⟩
  rw [← filter_route, ← hr]
  exact ((List.prefix_append_right_inj up).2 hb).filter _

theorem retrace_of_way {u : Tree} (hw : u.working = t.working)
    (h : ∀ place ∈ t.way p, u.at? place = t.at? place) : u.retrace p = t.retrace p := by
  obtain ⟨up, rest, hroute, hretrace⟩ := retrace_eq t p
  rw [hretrace u hw, hretrace t rfl]
  exact walk_congr fun before hb => congrArg _ (h _ (mem_way_of_route hroute hb))

theorem walk_of_fewer {u : Tree} {place goal : Place} {segments : List (List Char)}
    (h : ∀ place, u.at? place = t.at? place ∨ u.at? place = none)
    (hw : t.walk place segments = .ok goal) : u.walk place segments = .ok goal ∨
      u.walk place segments = .error .notFound ∧ ∃ before, before <+: segments ∧
        (t.at? (before.foldl stepInto place)).isSome ∧
          u.at? (before.foldl stepInto place) = none := by
  induction segments generalizing place with
  | nil => exact .inl hw
  | cons s segments ih =>
    rw [walk] at hw
    cases hp : t.at? place with
    | none => rw [hp] at hw; cases hw
    | some entry =>
      rcases h place with hsame | hnone
      · cases entry with
        | file contents mode => rw [hp] at hw; cases hw
        | directory mode =>
          rw [hp] at hw
          dsimp only at hw
          split at hw
          · cases hw
          · rename_i hshort
            rw [walk, hsame, hp]
            dsimp only
            rw [if_neg hshort]
            refine (ih hw).imp_right (And.imp_right ?_)
            rintro ⟨before, hb, hthere, hgone⟩
            exact ⟨s :: before, List.cons_prefix_cons.2 ⟨rfl, hb⟩, hthere, hgone⟩
      · exact .inr ⟨by rw [walk, hnone], [], List.nil_prefix, by
          rw [List.foldl_nil, hp]
          rfl, hnone⟩

def emptied (t : Tree) (place : Place) (entry : Entry) : Tree :=
  (t.removeBelow place).put place entry

section
variable {entry : Entry} (ha : t.at? place = some entry)
include ha

theorem at?_emptied (other : Place) :
    (t.emptied place entry).at? other = t.at? other ∨
      (t.emptied place entry).at? other = none ∧ ∃ name rel, other = place ++ name :: rel := by
  by_cases hself : other = place
  · subst hself
    by_cases hroot : other = []
    · subst hroot
      exact .inl rfl
    · exact .inl (by rw [emptied, at?_put, if_pos ⟨rfl, hroot⟩, ha])
  rw [emptied, at?_put_of_ne _ hself]
  by_cases hroot : place = []
  · subst hroot
    obtain ⟨name, rel, rfl⟩ := List.exists_cons_of_ne_nil hself
    exact .inr ⟨at?_removeBelow_root t name rel, name, rel, rfl⟩
  · rw [at?_removeBelow t hroot]
    split
    · rename_i hp
      obtain ⟨_ | ⟨name, rel⟩, rfl⟩ := hp
      · exact absurd (List.append_nil place) hself
      · exact .inr ⟨rfl, name, rel, rfl⟩
    · exact .inl rfl

theorem retrace_emptied (hl : t.locate p = .ok place) :
    (∃ goal, (t.emptied place entry).retrace p = .ok goal) ∨
      (t.emptied place entry).retrace p = .error .notFound ∧ t.DoublesBack p := by
  obtain ⟨up, rest, hroute, hretrace⟩ := retrace_eq t p
  have hwalk : t.walk (t.origin p) (route p) = .ok place := (locate_eq_ok.1 hl).2.2.2
  rw [hretrace (t.emptied place entry) rfl]
  rw [← hroute, walk_append] at hwalk
  cases hup : t.walk (t.origin p) up with
  | error e => rw [hup] at hwalk; cases hwalk
  | ok first =>
    rw [hup, walk_ok hup] at hwalk
    have hfewer (other : Place) : (t.emptied place entry).at? other = t.at? other ∨
        (t.emptied place entry).at? other = none :=
      (at?_emptied ha other).imp_right And.left
    rcases walk_of_fewer hfewer hwalk with hok | ⟨hgone, before, hb, hthere, hnone⟩
    · exact .inl ⟨_, hok⟩
    · refine .inr ⟨hgone, ?_⟩
      rcases at?_emptied ha _ with hsame | ⟨-, name, rel, he⟩
      · rw [← hsame, hnone] at hthere
        cases hthere
      · refine ⟨name, rel, ?_⟩
        rw [← locate_ok hl, ← he]
        exact mem_way_of_route hroute hb

end

theorem at?_emptied_below (t : Tree) (place : Place) (entry : Entry) (name : String) (rel : Place) :
    (t.emptied place entry).at? (place ++ name :: rel) = none := by
  rw [emptied, at?_put_of_ne _ (by simp)]
  by_cases hroot : place = []
  · subst hroot
    exact at?_removeBelow_root t name rel
  · rw [at?_removeBelow t hroot, if_pos (List.prefix_append ..)]

theorem endsInName_iff : endsInName p = true ↔
    ∃ s, (route p).getLast? = some s ∧ s ≠ ['.'] ∧ s ≠ ['.', '.'] := by
  unfold endsInName
  cases (route p).getLast? <;> simp

theorem run_removeEmptied {goal : Place} (h : t.retrace p = .ok goal) (place : Place) :
    endsInName p = true ∧ (removeEmptied p place).run.run t = (.ok (), t.removeBelow place) ∨
      endsInName p = false ∧ ∃ e, (removeEmptied p place).run.run t = (.error e, t) := by
  unfold removeEmptied
  rw [run_bind, run_get]
  dsimp only
  rw [h]
  dsimp only
  cases hends : endsInName p with
  | true =>
    obtain ⟨s, hs, hdot, hdots⟩ := endsInName_iff.1 hends
    refine .inl ⟨rfl, ?_⟩
    rw [hs]
    split
    · rename_i he
      exact absurd (Option.some.inj he) hdot
    · rename_i he
      exact absurd (Option.some.inj he) hdots
    · rename_i he
      cases he
    · rfl
  | false =>
    refine .inr ⟨rfl, ?_⟩
    unfold endsInName at hends
    cases hs : (route p).getLast? with
    | none => exact ⟨_, rfl⟩
    | some s =>
      rw [hs] at hends
      have hdots : s = ['.'] ∨ s = ['.', '.'] := by
        by_contra hn
        rw [not_or] at hn
        simp [hn.1, hn.2] at hends
      rcases hdots with rfl | rfl <;> exact ⟨_, rfl⟩

/-- The removal of a directory leaves it empty when the path leads through what was removed, and it
removes it or not by how the path ends otherwise. -/
theorem removeDirectory_of_find {mode : Nat} (hf : t.find p = .ok (place, .directory mode)) :
    t.DoublesBack p ∧
        (removeDirectory p).run.run t = (.ok (), t.emptied place (.directory mode)) ∨
      endsInName p = true ∧ (removeDirectory p).run.run t =
        (.ok (), (t.emptied place (.directory mode)).removeBelow place) ∨
      endsInName p = false ∧
        ∃ e, (removeDirectory p).run.run t = (.error e, t.emptied place (.directory mode)) := by
  obtain ⟨hl, ha⟩ := find_ok hf
  have hrun : (removeDirectory p).run.run t =
      (removeEmptied p place).run.run (t.emptied place (.directory mode)) := by
    unfold removeDirectory
    rw [run_bind, run_ask, hf]
    rfl
  rw [hrun]
  rcases retrace_emptied ha hl with ⟨goal, hwalk⟩ | ⟨hgone, hback⟩
  · exact .inr (run_removeEmptied hwalk _)
  · refine .inl ⟨hback, ?_⟩
    unfold removeEmptied
    rw [run_bind, run_get]
    dsimp only
    rw [hgone]
    rfl

theorem removeDirectory_cases (p : Path) (t : Tree) :
    (∃ e, (removeDirectory p).run.run t = (.error e, t)) ∨
      ∃ mode, t.find p = .ok (t.lexicalPlace p, .directory mode) := by
  unfold removeDirectory
  rw [run_bind, run_ask]
  cases hf : t.find p with
  | error e => exact .inl ⟨e, rfl⟩
  | ok found =>
    obtain ⟨place, entry⟩ := found
    cases entry with
    | file contents mode => exact .inl ⟨_, rfl⟩
    | directory mode => exact .inr ⟨mode, by rw [locate_ok (find_ok hf).1]⟩

/-- A path that ends in a name and leads to a directory, and not by way of what this holds: nothing
of it is left. -/
theorem run_removeDirectory {mode : Nat} {name : String} (hn : IsName name)
    (hf : t.find (p.join ⟨name⟩) = .ok (place, .directory mode)) :
    ∃ t', (removeDirectory (p.join ⟨name⟩)).run.run t = (.ok (), t') ∧
      Confined (place <+: ·) [] t t' ∧
      (¬t.DoublesBack (p.join ⟨name⟩) → ∀ rel, t'.at? (place ++ rel) = none) := by
  obtain rfl := locate_ok (find_ok hf).1
  have hroot : t.lexicalPlace (p.join ⟨name⟩) ≠ [] := by simp [lexicalPlace_join hn]
  have hends : endsInName (p.join ⟨name⟩) = true := by
    refine endsInName_iff.2 ⟨_, getLast?_route_join hn.piece p, fun he => ?_, hn.forth⟩
    have hsolid := hn.solid
    rw [he] at hsolid
    cases hsolid
  have hclear (entry : Entry) : Confined (t.lexicalPlace (p.join ⟨name⟩) <+: ·) [] t
      (t.emptied (t.lexicalPlace (p.join ⟨name⟩)) entry) :=
    (confined_removeBelow hroot fun _ => id).trans (confined_put List.prefix_rfl entry)
  rcases removeDirectory_of_find hf with ⟨hback, hrun⟩ | ⟨-, hrun⟩ | ⟨hnot, -⟩
  · exact ⟨_, hrun, hclear _, fun hn => absurd hback hn⟩
  · refine ⟨_, hrun, (hclear _).trans (confined_removeBelow hroot fun _ => id), fun _ rel => ?_⟩
    rw [at?_removeBelow _ hroot, if_pos (List.prefix_append _ rel)]
  · rw [hends] at hnot
    cases hnot

end Patchboard.Tree
