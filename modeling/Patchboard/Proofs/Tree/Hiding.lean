import Patchboard.Proofs.Tree.Removal
import Patchboard.Proofs.Tree.Twins

set_option autoImplicit false

namespace Patchboard.Tree
open Path

variable {r : Reserve} {base t u : Tree} {hidden : List Place} {place source goal : Place}
  {entry : Entry}

def without (hidden : List Place) (t : Tree) : Tree :=
  { t with entries := t.entries.filter fun e => e.1 ∉ hidden }

theorem at?_without (h : place ∉ hidden) : (t.without hidden).at? place = t.at? place := by
  unfold at? without
  dsimp only
  rw [List.find?_filter]
  congr 3
  funext e
  by_cases he : e.1 = place
  · simp [he, h]
  · simp [he]

theorem filter_insertAt (hidden : List Place) (place : Place) (entry : Entry)
    (entries : List (Place × Entry)) :
    (insertAt place entry entries).filter (fun e => e.1 ∉ hidden) =
      if place ∈ hidden then entries.filter fun e => e.1 ∉ hidden
      else insertAt place entry (entries.filter fun e => e.1 ∉ hidden) := by
  induction entries with
  | nil => by_cases h : place ∈ hidden <;> simp [insertAt, h]
  | cons e rest ih =>
    by_cases he : e.1 = place
    · by_cases h : place ∈ hidden <;> simp [insertAt, he, h]
    · by_cases h : place ∈ hidden <;> by_cases hm : e.1 ∈ hidden <;> simp_all [insertAt]

theorem without_put (h : place ∉ hidden) (entry : Entry) :
    (t.put place entry).without hidden = (t.without hidden).put place entry := by
  unfold put without
  dsimp only
  rw [filter_insertAt, if_neg h]

theorem without_put_hidden (h : place ∈ hidden) (entry : Entry) :
    (t.put place entry).without hidden = t.without hidden := by
  unfold put without
  dsimp only
  rw [filter_insertAt, if_pos h]

theorem without_removeBelow (t : Tree) (place : Place) :
    (t.removeBelow place).without hidden = (t.without hidden).removeBelow place := by
  unfold without removeBelow
  dsimp only
  rw [List.filter_filter, List.filter_filter]
  simp only [Bool.and_comm]

def moved (source goal : Place) (e : Place × Entry) : Place × Entry :=
  if within e.1 source then (rebase source goal e.1, e.2) else e

theorem relocate_eq (t : Tree) (source goal : Place) :
    t.relocate source goal = { t with entries := t.entries.map (moved source goal) } := rfl

theorem moved_cases (source goal : Place) (e : Place × Entry) :
    (∃ rel, e.1 = source ++ rel ∧ (moved source goal e).1 = goal ++ rel) ∨
      moved source goal e = e := by
  unfold moved rebase
  split
  · rename_i hw
    obtain ⟨rel, hrel⟩ := within_iff.1 hw
    exact .inl ⟨rel, hrel.symm, by simp [← hrel]⟩
  · exact .inr rfl

theorem moved_snd (source goal : Place) (e : Place × Entry) : (moved source goal e).2 = e.2 := by
  unfold moved
  split <;> rfl

theorem moved_fst_eq (hs : ¬source <+: place) (hg : ¬goal <+: place) (e : Place × Entry) :
    (moved source goal e).1 = place ↔ e.1 = place := by
  rcases moved_cases source goal e with ⟨rel, he, hm⟩ | hm
  · rw [he, hm]
    constructor
    · rintro rfl
      exact absurd (List.prefix_append goal rel) hg
    · rintro rfl
      exact absurd (List.prefix_append source rel) hs
  · rw [hm]

theorem at?_relocate (t : Tree) (hs : ¬source <+: place) (hg : ¬goal <+: place) :
    (t.relocate source goal).at? place = t.at? place := by
  have hkey : ((fun e => decide (e.1 = place)) ∘ moved source goal) =
      fun e : Place × Entry => decide (e.1 = place) := by
    funext e
    exact decide_eq_decide.2 (moved_fst_eq hs hg e)
  have hsnd : ((fun e : Place × Entry => e.2) ∘ moved source goal) = fun e => e.2 := by
    funext e
    exact moved_snd source goal e
  unfold at?
  rw [relocate_eq, List.find?_map, hkey, Option.map_map, hsnd]

theorem without_relocate (h : ∀ rel, source ++ rel ∉ hidden) (h' : ∀ rel, goal ++ rel ∉ hidden) :
    (t.relocate source goal).without hidden = (t.without hidden).relocate source goal := by
  have hkey (e : Place × Entry) : (moved source goal e).1 ∈ hidden ↔ e.1 ∈ hidden := by
    rcases moved_cases source goal e with ⟨rel, he, hm⟩ | hm
    · rw [he, hm]
      exact iff_of_false (h' rel) (h rel)
    · rw [hm]
  unfold without
  rw [relocate_eq, relocate_eq]
  dsimp only
  rw [List.filter_map]
  congr 3
  funext e
  simp only [Function.comp_apply, hkey e]

theorem Named.put (h : t.Named) (hp : Spelled place) (entry : Entry) :
    (t.put place entry).Named := by
  intro other name hs
  rw [at?_put] at hs
  split at hs
  · rename_i hc
    exact hp name (by simp [← hc.1])
  · exact h other name hs

theorem Named.removeBelow (h : t.Named) (place : Place) : (t.removeBelow place).Named := by
  intro other name hs
  refine h other name ?_
  rw [at?_isSome (by simp)] at hs ⊢
  exact (List.filter_sublist.map _).subset hs

theorem Named.relocate (h : t.Named) (source : Place) (hg : Spelled goal) :
    (t.relocate source goal).Named := by
  intro other name hs
  rw [at?_isSome (by simp), relocate_eq, List.mem_map] at hs
  obtain ⟨moved', hm, hplace⟩ := hs
  obtain ⟨e, he, rfl⟩ := List.mem_map.1 hm
  have hthere (other : Place) (ho : e.1 = other ++ [name]) : IsName name := by
    refine h other name ?_
    rw [at?_isSome (by simp), ← ho]
    exact List.mem_map_of_mem he
  rcases moved_cases source goal e with ⟨rel, hrel, hgoal⟩ | hsame
  · rw [hgoal] at hplace
    rcases List.eq_nil_or_concat rel with rfl | ⟨before, last, rfl⟩
    · exact hg name (by rw [← List.append_nil goal, hplace]; simp)
    · rw [List.concat_eq_append, ← List.append_assoc] at hplace
      obtain rfl : last = name := by simpa using List.append_inj_right' hplace rfl
      exact hthere (source ++ before) (by rw [hrel, List.concat_eq_append, List.append_assoc])
  · rw [hsame] at hplace
    exact hthere other hplace

theorem Closed.isSome_of_prefix {above : Place} (hc : t.Closed) (h : (t.at? place).isSome)
    (hp : above <+: place) : (t.at? above).isSome := by
  obtain ⟨rel, rfl⟩ := hp
  induction rel using List.reverseRecOn with
  | nil => rwa [List.append_nil] at h
  | append_singleton rel name ih =>
    rw [← List.append_assoc] at h
    obtain ⟨mode, hd⟩ := hc.parent _ _ h
    exact ih (by rw [hd]; rfl)

/-- The closed places and those that are kept are directories. -/
def Reserve.Stands (r : Reserve) (t : Tree) : Prop :=
  ∀ place, place ∈ r.closed ∨ place ∈ r.kept → ∃ mode, t.at? place = some (.directory mode)

/-- Below closed places everything is as it was, and the reserve stands. -/
structure Guarded (r : Reserve) (base t : Tree) : Prop where
  working : t.working = base.working
  named : t.Named
  below : ∀ place, ¬Off r place → t.at? place = base.at? place
  stands : r.Stands t

def Reserved (r : Reserve) (place : Place) : Prop :=
  ¬Off r place ∨ place ∈ r.closed ∨ place ∈ r.kept

theorem Aloof.not_prefix (h : Aloof r source) (hp : Reserved r place) : ¬source <+: place := by
  intro hs
  rcases hp with hp | hp | hp
  · unfold Off at hp
    push Not at hp
    obtain ⟨k, hk, name, rel, rfl⟩ := hp
    rcases List.prefix_or_prefix_of_prefix hs (List.prefix_append k (name :: rel)) with hp | hp
    · exact (h.closed k hk).2 hp
    · exact (h.closed k hk).1 hp
  · exact (h.closed place hp).2 hs
  · exact h.kept place hp hs

theorem Guarded.change {t' : Tree} (h : Guarded r base t) (hw : t'.working = t.working)
    (hn : t'.Named) (hb : ∀ place, ¬Off r place → t'.at? place = t.at? place)
    (hs : ∀ place, place ∈ r.closed ∨ place ∈ r.kept → ∀ mode,
      t.at? place = some (.directory mode) → ∃ mode, t'.at? place = some (.directory mode)) :
    Guarded r base t' where
  working := hw.trans h.working
  named := hn
  below place hp := (hb place hp).trans (h.below place hp)
  stands place hp := by
    obtain ⟨mode, hd⟩ := h.stands place hp
    exact hs place hp mode hd

theorem Guarded.put (h : Guarded r base t) (ho : Off r place) (hp : Spelled place)
    (hd : ∀ mode, t.at? place = some (.directory mode) → entry.isDirectory = true) :
    Guarded r base (t.put place entry) := by
  refine h.change rfl (h.named.put hp entry) (fun other hn => ?_) fun other _ mode hm => ?_
  · rw [at?_put, if_neg]
    rintro ⟨rfl, -⟩
    exact hn ho
  · rw [at?_put]
    split
    · rename_i hc
      have hdirectory := hd mode (hc.1 ▸ hm)
      cases entry with
      | file contents old => cases hdirectory
      | directory new => exact ⟨new, rfl⟩
    · exact ⟨mode, hm⟩

theorem Guarded.removeBelow (h : Guarded r base t) (ha : Aloof r place) :
    Guarded r base (t.removeBelow place) := by
  have hat (other : Place) (ho : Reserved r other) :
      (t.removeBelow place).at? other = t.at? other := by
    have hno := ha.not_prefix ho
    rw [at?_removeBelow t (by rintro rfl; exact hno List.nil_prefix), if_neg hno]
  refine h.change rfl (h.named.removeBelow place) (fun other ho => hat other (.inl ho))
    fun other ho mode hm => ?_
  rw [hat other (.inr ho)]
  exact ⟨mode, hm⟩

theorem Guarded.relocate (h : Guarded r base t) (hs : Aloof r source) (hg : Aloof r goal)
    (hp : Spelled goal) : Guarded r base (t.relocate source goal) := by
  have hat (other : Place) (ho : Reserved r other) :
      (t.relocate source goal).at? other = t.at? other :=
    at?_relocate t (hs.not_prefix ho) (hg.not_prefix ho)
  refine h.change rfl (h.named.relocate source hp) (fun other ho => hat other (.inl ho))
    fun other ho mode hm => ?_
  rw [hat other (.inr ho)]
  exact ⟨mode, hm⟩

theorem Guarded.self (h : Guarded r base t) : Guarded r t t :=
  ⟨rfl, h.named, fun _ _ => rfl, h.stands⟩

theorem Guarded.write (h : Guarded r base t) (hp : Spelled place)
    (hn : ¬(place ∈ r.closed ∨ place ∈ r.kept)) (entry : Entry) :
    Guarded r (t.put place entry) (t.put place entry) := by
  refine ⟨rfl, h.named.put hp entry, fun _ _ => rfl, fun other ho => ?_⟩
  rw [at?_put, if_neg]
  · exact h.stands other ho
  · rintro ⟨rfl, -⟩
    exact hn ho

/-- Two trees, in each of which a reserve is as it was, are the same but for hidden places. -/
structure Parted (r : Reserve) (base base' : Tree) (hidden : List Place) (t u : Tree) : Prop where
  first : Guarded r base t
  second : Guarded r base' u
  same : u.without hidden = t.without hidden

section
variable {base' : Tree} (hh : ∀ place ∈ hidden, ¬Off r place)

theorem Parted.working (h : Parted r base base' hidden t u) : u.working = base.working := by
  have hw : (u.without hidden).working = (t.without hidden).working := by rw [h.same]
  exact hw.trans h.first.working

theorem Parted.at? (h : Parted r base base' hidden t u) (hp : place ∉ hidden) :
    u.at? place = t.at? place := by
  rw [← at?_without hp, h.same, at?_without hp]

theorem Parted.self (h : Parted r base base' hidden t u) : Parted r base u hidden t u :=
  ⟨h.first, h.second.self, h.same⟩

theorem Parted.write (h : Parted r base base' hidden t u) (hm : place ∈ hidden)
    (hp : Spelled place) (hn : ¬(place ∈ r.closed ∨ place ∈ r.kept)) (entry : Entry) :
    Parted r base (u.put place entry) hidden t (u.put place entry) :=
  ⟨h.first, h.second.write hp hn entry, (without_put_hidden hm entry).trans h.same⟩

include hh

theorem not_mem_hidden (ho : Off r place) : place ∉ hidden := fun hm => hh place hm ho

theorem names_without (hp : ∀ k ∈ r.closed, ¬k <+: place) (t : Tree) :
    (t.without hidden).names place = t.names place := by
  unfold names without
  dsimp only
  rw [List.filterMap_filter]
  congr 2
  funext e
  split
  · rfl
  · rename_i hm
    have hdeep : (e.1.length = place.length + 1 && within e.1 place) = false := by
      by_contra hc
      rw [Bool.not_eq_false, Bool.and_eq_true, decide_eq_true_eq, within_iff] at hc
      obtain ⟨hlength, rest, hrest⟩ := hc
      have hone : rest.length = 1 := by
        rw [← hrest, List.length_append] at hlength
        omega
      have hoff := hh e.1 (by simpa using hm)
      unfold Off at hoff
      push Not at hoff
      obtain ⟨k, hk, name, rel, he⟩ := hoff
      have habove : k <+: e.1 := he ▸ List.prefix_append ..
      have hlong := congrArg List.length (hrest.trans he)
      rw [List.length_append, List.length_append, List.length_cons, hone] at hlong
      exact hp k hk (List.prefix_of_prefix_length_le habove ⟨rest, hrest⟩ (by omega))
    rw [hdeep]
    rfl

theorem blind_parted (hb : Spelled base.working) :
    Blind r base (Parted r base base' hidden) where
  spelled := hb
  working h := ⟨h.first.working, h.working⟩
  named h := h.first.named
  at? h ho := h.at? (not_mem_hidden hh ho)
  names h hp := by rw [← names_without hh hp, h.same, names_without hh hp]
  put h ho hp hd := by
    have hno := not_mem_hidden hh ho
    exact ⟨h.first.put ho hp hd, h.second.put ho hp fun mode hm => hd mode (h.at? hno ▸ hm),
      by rw [without_put hno, without_put hno, h.same]⟩
  removeBelow h ha := ⟨h.first.removeBelow ha, h.second.removeBelow ha,
    by rw [without_removeBelow, without_removeBelow, h.same]⟩
  relocate h hs hg hp := by
    have hno {place : Place} (ha : Aloof r place) (rel : Place) : place ++ rel ∉ hidden :=
      not_mem_hidden hh (ha.append rel).off
    exact ⟨h.first.relocate hs hg hp, h.second.relocate hs hg hp, by
      rw [without_relocate (hno hs) (hno hg), without_relocate (hno hs) (hno hg), h.same]⟩

end

end Patchboard.Tree
