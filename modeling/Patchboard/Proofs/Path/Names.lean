import Patchboard.Proofs.Path.Steps

set_option autoImplicit false

namespace Patchboard.Path
open Text

variable {p q : Path} {n : List Char}

theorem component_inj {s s' : List Char} (h : component s = component s') : s = s' := by
  unfold component at h
  split at h <;> split at h
  · rename_i hs hs'
    rw [hs, hs']
  · cases h
  · cases h
  · exact Component.name.inj h

theorem components_eq (p : Path) : ∃ lead, p.components = lead ++ p.steps.map component ∧
    (lead = [.root] ∨ lead = [.current] ∨ lead = []) := by
  have hidle : isIdle ['.'] = true := rfl
  unfold components steps
  cases hsegments : p.segments with
  | nil => exact absurd hsegments (segments_ne_nil p)
  | cons first rest =>
    rw [List.filter_cons]
    cases p.isAbsolute with
    | true =>
      refine ⟨[.root], ?_, .inl rfl⟩
      cases hfirst : isIdle first with
      | true => simp [bodyComponents, hfirst]
      | false => simp [bodyComponents, hfirst]
    | false =>
      by_cases hdot : first = ['.']
      · exact ⟨[.current], by simp [bodyComponents, hdot, hidle], .inr (.inl rfl)⟩
      · refine ⟨[], ?_, .inr (.inr rfl)⟩
        cases hfirst : isIdle first with
        | true => simp [bodyComponents, hdot, hfirst]
        | false => simp [bodyComponents, hdot, hfirst]

theorem steps_of_same (h : p.same q = true) : p.steps = q.steps := by
  have hsteps (p : Path) : p.components.filter (fun c => c ≠ .root ∧ c ≠ .current) =
      p.steps.map component := by
    have hstep : (p.steps.map component).filter (fun c => c ≠ .root ∧ c ≠ .current) =
        p.steps.map component := by
      rw [List.filter_eq_self]
      intro c hc
      obtain ⟨s, -, rfl⟩ := List.mem_map.1 hc
      unfold component
      split <;> rfl
    obtain ⟨lead, hp, rfl | rfl | rfl⟩ := components_eq p
    · rw [hp, List.filter_append, hstep]
      rfl
    · rw [hp, List.filter_append, hstep]
      rfl
    · rw [hp, List.nil_append, hstep]
  have hcomponents : p.components = q.components := of_decide_eq_true h
  have hmaps := hsteps p
  rw [hcomponents, hsteps q] at hmaps
  exact ((List.map_inj_right fun _ _ => component_inj).1 hmaps).symm

theorem fileName?_eq (p : Path) :
    p.fileName? = p.steps.getLast?.filter fun s => s ≠ ['.', '.'] := by
  obtain ⟨lead, hp, hlead⟩ := components_eq p
  unfold fileName?
  rw [hp, List.getLast?_append, List.getLast?_map]
  cases p.steps.getLast? with
  | none =>
    rcases hlead with rfl | rfl | rfl
    · rfl
    · rfl
    · rfl
  | some s =>
    by_cases hs : s = ['.', '.']
    · simp [component, hs, Option.filter]
    · simp [component, hs, Option.filter]

theorem getLast?_steps (h : p.fileName? = some n) :
    p.steps.getLast? = some n ∧ n ≠ ['.', '.'] := by
  rw [fileName?_eq, Option.filter_eq_some_iff, decide_eq_true_iff] at h
  exact h

theorem parent?_bind_fileName? (p : Path) :
    p.parent?.bind fileName? = p.steps.dropLast.getLast?.filter fun s => s ≠ ['.', '.'] := by
  cases hp : p.parent? with
  | some q => rw [Option.bind_some, fileName?_eq, (parent?_eq_some hp).2]
  | none =>
    have hnone : p.steps = [] := by
      unfold parent? at hp
      split at hp
      · rename_i hempty
        rw [steps, ← filter_dropIdleEnd p.isAbsolute, hempty]
        rfl
      · cases hp
    rw [hnone]
    rfl

theorem not_mem_of_fileName? (h : p.fileName? = some n) : '/' ∉ n := by
  have hlast := List.mem_of_getLast? (getLast?_steps h).1
  exact not_mem_of_mem_segments (List.mem_filter.1 hlast).1

theorem bodyComponents_append (absolute : Bool) {first : List (List Char)} (h : first ≠ [])
    (second : List (List Char)) : bodyComponents absolute (first ++ second) =
      bodyComponents absolute first ++ (second.filter fun s => !isIdle s).map component := by
  cases first with
  | nil => exact absurd rfl h
  | cons s rest => simp [bodyComponents]

theorem bodyComponents_absolute (segments : List (List Char)) :
    bodyComponents true segments = (segments.filter fun s => !isIdle s).map component := by
  cases segments with
  | nil => rfl
  | cons s rest => cases hs : isIdle s <;> simp [bodyComponents, hs]

theorem text_of_body_eq_nil (ha : p.isAbsolute = false) (hb : p.body = []) : p.text = "" := by
  have hchars := chars_eq p
  rw [ha, hb] at hchars
  exact String.toList_eq_nil_iff.1 hchars

theorem components_join (hq : q.isAbsolute = false) (hp : p.text ≠ "") :
    (p.join q).components = p.components ++ q.steps.map component := by
  obtain ⟨piece⟩ := q
  have hsteps : (⟨piece⟩ : Path).steps = (splitOn '/' piece.toList).filter fun s => !isIdle s := by
    unfold steps
    rw [segments_eq, body, if_neg (by simp [hq])]
    rfl
  obtain ⟨before, hbefore, hj⟩ := segments_join_relative (p := p) hq
  unfold components
  rw [isAbsolute_join (p := p) hq, hj, hsteps]
  by_cases hnone : before = []
  · -- only the root has nothing but an empty piece
    have hsegments : p.segments = [[]] := by
      rcases hbefore with hs | hs
      · exact absurd (hs.trans hnone) p.segments_ne_nil
      · rw [hs, hnone]
        rfl
    have hbody : p.body = [] := by
      rw [← joinSegments_splitOn p.body, ← segments_eq, hsegments]
      rfl
    have ha : p.isAbsolute = true := by
      by_contra hr
      exact hp (text_of_body_eq_nil (by simpa using hr) hbody)
    rw [ha, if_pos rfl, if_pos rfl, hnone, hsegments, List.nil_append, bodyComponents_absolute]
    rfl
  · have hempty : bodyComponents p.isAbsolute (before ++ [[]]) =
        bodyComponents p.isAbsolute before := by
      rw [bodyComponents_append _ hnone]
      exact List.append_nil _
    have hsegments : bodyComponents p.isAbsolute p.segments =
        bodyComponents p.isAbsolute before := by
      rcases hbefore with hs | hs
      · rw [hs]
      · rw [hs, hempty]
    have habsolute := bodyComponents_append p.isAbsolute hnone (splitOn '/' piece.toList)
    cases ha : p.isAbsolute with
    | true =>
      rw [ha] at habsolute hsegments
      rw [if_pos rfl, if_pos rfl, habsolute, hsegments]
      rfl
    | false =>
      rw [ha] at habsolute hsegments
      rw [if_neg (by simp), if_neg (by simp), habsolute, hsegments]

theorem startsWith_join (hq : q.isAbsolute = false) (p : Path) :
    (p.join q).startsWith p = true := by
  unfold startsWith
  rw [List.isPrefixOf_iff_prefix]
  by_cases hp : p.text = ""
  · have hnone : p.components = [] := by
      obtain ⟨text⟩ := p
      obtain rfl : text = "" := hp
      rfl
    rw [hnone]
    exact List.nil_prefix
  · rw [components_join hq hp]
    exact List.prefix_append ..

theorem components_ne_nil (hp : p.text ≠ "") : p.components ≠ [] := by
  unfold components
  cases ha : p.isAbsolute with
  | true => simp
  | false =>
    have hchars : p.chars ≠ [] := mt String.toList_eq_nil_iff.1 hp
    obtain ⟨first, rest, hs⟩ := List.exists_cons_of_ne_nil p.segments_ne_nil
    obtain ⟨c, s, rfl, -⟩ := head_segments_of_relative ha hs hchars
    rw [if_neg (by simp), hs, bodyComponents]
    by_cases hdot : c :: s = ['.']
    · simp [hdot]
    · simp [isIdle, hdot]

theorem relative_ofSegments {segments : List (List Char)} (hflat : ∀ s ∈ segments, '/' ∉ s)
    (hfirst : ∀ s ∈ segments.head?, s ≠ []) : (ofSegments false segments).isAbsolute = false := by
  rw [Bool.eq_false_iff, ne_eq, isAbsolute_iff, chars_ofSegments, if_neg (by simp), List.nil_append]
  rintro ⟨rest, hrest⟩
  cases segments with
  | nil => cases hrest
  | cons first segments =>
    obtain ⟨c, s, rfl⟩ := List.exists_cons_of_ne_nil (hfirst first rfl)
    have hc : c = '/' := by
      cases segments with
      | nil => exact (List.cons.inj hrest).1
      | cons next segments =>
        rw [joinSegments_cons (by simp)] at hrest
        exact (List.cons.inj hrest).1
    exact hflat _ (List.mem_cons_self ..) (hc ▸ List.mem_cons_self ..)

theorem dropSegments_subset (n : Nat) (segments : List (List Char)) :
    dropSegments n segments ⊆ segments := by
  induction n generalizing segments with
  | zero => exact List.Subset.refl _
  | succ n ih =>
    exact List.Subset.trans (ih _)
      (List.Subset.trans (List.drop_subset ..) (List.dropWhile_sublist _).subset)

theorem relative_of_stripPrefix? {rest : Path} (h : p.stripPrefix? q = some rest)
    (hq : q.text ≠ "") : rest.isAbsolute = false := by
  have hrelative : ∀ {segments : List (List Char)}, segments ⊆ p.segments →
      (ofSegments false (dropIdleEnd true (segments.dropWhile isIdle))).isAbsolute = false := by
    intro segments hsegments
    have hkept : dropIdleEnd true (segments.dropWhile isIdle) <+: segments.dropWhile isIdle :=
      dropIdleEnd_initial
    refine relative_ofSegments (fun s hs => ?_) (fun s hs hempty => ?_)
    · exact not_mem_of_mem_segments
        (hsegments ((List.dropWhile_sublist _).subset (hkept.subset hs)))
    · obtain ⟨dropped, hd⟩ := hkept
      have hhead := List.head?_dropWhile_not isIdle segments
      rw [← hd, List.head?_append, Option.mem_def.1 hs] at hhead
      simp [hempty, isIdle] at hhead
  unfold stripPrefix? at h
  split at h
  · cases hc : q.components with
    | nil => exact absurd hc (components_ne_nil hq)
    | cons lead steps =>
      rw [hc] at h
      cases lead with
      | root | parent | name n =>
        obtain rfl := Option.some.inj h
        exact hrelative (dropSegments_subset ..)
      | current =>
        obtain rfl := Option.some.inj h
        exact hrelative (List.Subset.trans (dropSegments_subset ..) (List.drop_subset ..))
  · cases h

theorem isName_of_long {name : List Char} (h : '/' ∉ name) (hl : 3 ≤ name.length) :
    IsName (String.ofList name) := by
  refine ⟨?_, ?_, ?_⟩ <;> rw [String.toList_ofList]
  · rw [isIdle, Bool.or_eq_false_iff, List.isEmpty_eq_false_iff, decide_eq_false_iff_not]
    constructor <;> rintro rfl <;> simp at hl
  · exact h
  · rintro rfl
    simp at hl

theorem not_mem_splitName {name : List Char} (h : '/' ∉ name) :
    '/' ∉ (splitName name).1 ∧ ∀ extension ∈ (splitName name).2, '/' ∉ extension := by
  unfold splitName
  dsimp only
  split
  · exact ⟨h, by simp⟩
  · refine ⟨fun hm => h (List.mem_of_mem_take hm), ?_⟩
    rintro extension he hm
    obtain rfl := Option.some.inj he
    exact h (List.mem_reverse.1 ((List.takeWhile_sublist _).subset (List.mem_reverse.1 hm)))

end Patchboard.Path
