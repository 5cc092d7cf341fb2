import Patchboard.Proofs.Search.Literal

set_option autoImplicit false

namespace Patchboard

namespace Pattern

theorem firstWhere_eq_some {p : List Char → Option (List Char)} {u v r : List Char}
    (hv : p v = some r)
    (hmin : ∀ u' v', u ++ v = u' ++ v' → u'.length < u.length → p v' = none) :
    firstWhere p (u ++ v) = some (u, r) := by
  cases hf : firstWhere p (u ++ v) with
  | none =>
    have hnone := firstWhere_none hf u v rfl
    simp [hv] at hnone
  | some hit =>
    obtain ⟨v', hw, hp, hfirst⟩ := firstWhere_some hf
    have hle : ¬ u.length < hit.1.length := fun hlt => by
      have hnone := hfirst u v rfl hlt
      simp [hv] at hnone
    have hge : ¬ hit.1.length < u.length := fun hlt => by
      simp [hmin hit.1 v' hw hlt] at hp
    obtain ⟨hu, hv'⟩ := List.append_inj hw (by omega)
    rw [← hv', hv] at hp
    rw [hu, Option.some_inj.1 hp]

end Pattern

namespace Search
open Pattern

theorem revealed_append (u v : List Char) : revealed (u ++ v) = revealed u ++ revealed v :=
  List.map_append

theorem length_revealed (u : List Char) : (revealed u).length = u.length :=
  List.length_map ..

theorem split_of_revealed {w u v : List Char} (h : revealed w = u ++ v) :
    revealed (w.take u.length) = u ∧ revealed (w.drop u.length) = v := by
  have hw : revealed (w.take u.length) ++ revealed (w.drop u.length) = u ++ v := by
    rw [← revealed_append, List.take_append_drop, h]
  have hl := congrArg List.length h
  rw [length_revealed, List.length_append] at hl
  refine List.append_inj hw ?_
  rw [length_revealed, List.length_take]
  omega

theorem reveal_eq_iff {c d : Char} (hd : reveal d = d) (hs : d ≠ '$') (hb : d ≠ '\\') :
    reveal c = d ↔ c = d := by
  constructor
  · intro h
    unfold reveal at h
    split at h
    · exact absurd h.symm hs
    · split at h
      · exact absurd h.symm hb
      · exact h
  · rintro rfl
    exact hd

theorem reveal_ne (c : Char) : reveal c ≠ hiddenDollar ∧ reveal c ≠ hiddenBackslash := by
  unfold reveal
  split
  · decide
  · split
    · decide
    · rename_i hd hb
      exact ⟨hd, hb⟩

theorem clear_revealed (text : List Char) : Clear (revealed text) := by
  constructor
  · intro h
    obtain ⟨c, -, hc⟩ := List.mem_map.1 h
    exact (reveal_ne c).1 hc
  · intro h
    obtain ⟨c, -, hc⟩ := List.mem_map.1 h
    exact (reveal_ne c).2 hc

theorem revealed_eq_self_iff {text : List Char} : revealed text = text ↔ Clear text :=
  ⟨fun h => h ▸ clear_revealed text, revealed_of_clear⟩

theorem clear_of_subset {s t : List Char} (h : Clear t) (hs : s ⊆ t) : Clear s :=
  ⟨fun hm => h.1 (hs hm), fun hm => h.2 (hs hm)⟩

theorem mem_closings_revealed {s : List Char} : revealed s ∈ closings ↔ s ∈ closings := by
  have hn (c : Char) : reveal c = '\n' ↔ c = '\n' :=
    reveal_eq_iff (by decide) (by decide) (by decide)
  have hq (c : Char) : reveal c = '?' ↔ c = '?' :=
    reveal_eq_iff (by decide) (by decide) (by decide)
  have hg (c : Char) : reveal c = '>' ↔ c = '>' :=
    reveal_eq_iff (by decide) (by decide) (by decide)
  simp [closings, revealed, List.map_eq_cons_iff, hn, hq, hg]

theorem accepted?_eq_some {s : Search} {t after : List Char} :
    s.accepted? t = some after ↔
      t = s.search.toList ++ after ∧ (s.position = .atEnd → after ∈ closings) := by
  unfold accepted?
  cases hp : s.position with
  | atEnd => simp [closingAfter?_eq_some, and_comm]
  | replace | before | after =>
    simp only [reduceCtorEq, false_implies, and_true]
    constructor
    · exact Text.eq_append_of_after?
    · rintro rfl
      exact Text.after?_append ..

variable {s : Search} {w : List Char}

theorem accepted?_revealed (hs : Clear s.search.toList) {v r : List Char}
    (h : s.accepted? v = some r) : s.accepted? (revealed v) = some (revealed r) := by
  rw [accepted?_eq_some] at h ⊢
  obtain ⟨rfl, hr⟩ := h
  refine ⟨?_, fun hp => mem_closings_revealed.2 (hr hp)⟩
  rw [revealed_append, revealed_of_clear hs]

theorem accepted?_of_revealed {v r : List Char} (h : s.accepted? (revealed v) = some r)
    (hv : Clear (v.take s.search.toList.length)) :
    ∃ r', s.accepted? v = some r' ∧ revealed r' = r := by
  rw [accepted?_eq_some] at h
  obtain ⟨hw, hr⟩ := h
  obtain ⟨hhead, htail⟩ := split_of_revealed hw
  rw [revealed_of_clear hv] at hhead
  refine ⟨v.drop s.search.toList.length, accepted?_eq_some.2 ⟨?_, fun hp => ?_⟩, htail⟩
  · have hv := List.take_append_drop s.search.toList.length v
    rw [hhead] at hv
    exact hv.symm
  · rw [← mem_closings_revealed, htail]
    exact hr hp

theorem clear_of_accepted? (hs : Clear s.search.toList) {v r : List Char}
    (h : s.accepted? v = some r) : Clear (v.take s.search.toList.length) := by
  obtain ⟨rfl, -⟩ := accepted?_eq_some.1 h
  rwa [List.take_left]

theorem place?_eq_none_of_revealed (hs : Clear s.search.toList)
    (h : s.place? (revealed w) = none) : s.place? w = none := by
  rw [← firstWhere_accepted?] at h ⊢
  cases hf : firstWhere s.accepted? w with
  | none => rfl
  | some hit =>
    obtain ⟨v, rfl, hv, -⟩ := firstWhere_some hf
    have hnone := firstWhere_none h (revealed hit.1) (revealed v) (revealed_append ..)
    simp [accepted?_revealed hs hv] at hnone

theorem place?_of_clear (hs : Clear s.search.toList) {before after : List Char}
    (h : s.place? (revealed w) = some (before, after))
    (hc : Clear ((w.drop before.length).take s.search.toList.length)) :
    ∃ before' after', s.place? w = some (before', after') ∧
      revealed before' = before ∧ revealed after' = after := by
  rw [← firstWhere_accepted?] at h
  obtain ⟨v, hw, hv, hmin⟩ := firstWhere_some h
  obtain ⟨hhead, htail⟩ := split_of_revealed hw
  rw [← htail] at hv
  obtain ⟨after', ha, hr⟩ := accepted?_of_revealed hv hc
  refine ⟨w.take before.length, after', ?_, hhead, hr⟩
  have hle : (w.take before.length).length = before.length := by
    rw [← length_revealed, hhead]
  have hfirst := firstWhere_eq_some (u := w.take before.length) ha fun u' v' hu hlt => ?_
  · rwa [List.take_append_drop, firstWhere_accepted?] at hfirst
  · rw [List.take_append_drop] at hu
    rw [hle] at hlt
    have hnone := hmin (revealed u') (revealed v') (by rw [hu, revealed_append])
      (by rwa [length_revealed])
    cases hv' : s.accepted? v' with
    | none => rfl
    | some r => simp [accepted?_revealed hs hv'] at hnone

/-- Where something hidden stands at the place that is shown, a search that applies to the text
applies further on. -/
theorem lt_of_place?_of_not_clear (hs : Clear s.search.toList) {before after : List Char}
    (h : s.place? (revealed w) = some (before, after))
    (hc : ¬ Clear ((w.drop before.length).take s.search.toList.length))
    {hit : List Char × List Char} (hw : s.place? w = some hit) :
    before.length < hit.1.length := by
  rw [← firstWhere_accepted?] at h hw
  obtain ⟨v, rfl, hv, -⟩ := firstWhere_some hw
  obtain ⟨-, -, -, hmin⟩ := firstWhere_some h
  have hle : ¬ hit.1.length < before.length := fun hlt => by
    have hnone := hmin (revealed hit.1) (revealed v) (revealed_append ..)
      (by rwa [length_revealed])
    simp [accepted?_revealed hs hv] at hnone
  have hne : hit.1.length ≠ before.length := fun he => by
    rw [← he, List.drop_left] at hc
    exact hc (clear_of_accepted? hs hv)
  omega

end Search

end Patchboard
