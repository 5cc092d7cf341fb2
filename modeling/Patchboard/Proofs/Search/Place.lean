import Patchboard.Proofs.Pattern.Matching

set_option autoImplicit false

namespace Patchboard

namespace Text

theorem after?_eq_ite (t s : List Char) :
    after? t s = if t.isPrefixOf s then some (s.drop t.length) else none := by
  induction t generalizing s with
  | nil => simp [after?]
  | cons c t ih =>
    cases s with
    | nil => rfl
    | cons d s =>
      by_cases h : c = d
      · simp [after?, h, ih]
      · simp [after?, h]

theorem firstWhere_after? (t s : List Char) : Pattern.firstWhere (after? t) s = cut? t s := by
  induction s with
  | nil => cases t <;> rfl
  | cons c s ih =>
    rw [Pattern.firstWhere, cut?, ih]
    cases after? t (c :: s) <;> rfl

/-- The first occurrence of `t` in a text, by what stands before and after it. -/
structure FirstOccurrence (t s before after : List Char) : Prop where
  whole : s = before ++ t ++ after
  first : ∀ u v, s = u ++ t ++ v → before.length ≤ u.length

theorem firstOccurrence_of_cut? {t s before after : List Char}
    (h : cut? t s = some (before, after)) : FirstOccurrence t s before after := by
  rw [← firstWhere_after?] at h
  obtain ⟨rest, hs, hrest, hmin⟩ := Pattern.firstWhere_some h
  have hr := eq_append_of_after? hrest
  refine ⟨by rw [hs, hr, List.append_assoc], fun u v huv => ?_⟩
  refine Nat.le_of_not_lt fun hlt => ?_
  have hnone := hmin u (t ++ v) (by rw [huv, List.append_assoc]) hlt
  simp [after?_append] at hnone

theorem infix_of_cut? {t s : List Char} : (cut? t s).isSome ↔ t <:+: s := by
  constructor
  · intro h
    obtain ⟨⟨before, after⟩, hc⟩ := Option.isSome_iff_exists.1 h
    exact ⟨before, after, (firstOccurrence_of_cut? hc).whole.symm⟩
  · rintro ⟨u, v, rfl⟩
    cases hc : cut? t (u ++ t ++ v) with
    | some hit => rfl
    | none =>
      rw [← firstWhere_after?] at hc
      have hnone := Pattern.firstWhere_none hc u (t ++ v) (List.append_assoc ..)
      simp [after?_append] at hnone

theorem FirstOccurrence.unique {t s before after u v : List Char}
    (h : FirstOccurrence t s before after) (h' : FirstOccurrence t s u v) :
    before = u ∧ after = v := by
  have hlength : before.length = u.length :=
    Nat.le_antisymm (h.first u v h'.whole) (h'.first before after h.whole)
  have hsame := h.whole.symm.trans h'.whole
  rw [List.append_assoc, List.append_assoc] at hsame
  obtain ⟨hbefore, hrest⟩ := List.append_inj hsame hlength
  exact ⟨hbefore, List.append_cancel_left hrest⟩

/-- What takes the place of a first occurrence, and is itself taken out where it first occurs, leaves
the text as it was only when it is found where it was put. -/
theorem FirstOccurrence.restores_iff {t r s before after u v : List Char}
    (h : FirstOccurrence t s before after) (h' : FirstOccurrence r (before ++ r ++ after) u v) :
    u ++ t ++ v = s ↔ FirstOccurrence r (before ++ r ++ after) before after := by
  constructor
  · intro hs
    have hlength : before.length = u.length :=
      Nat.le_antisymm (h.first u v hs.symm) (h'.first before after rfl)
    have hsame := h'.whole
    rw [List.append_assoc, List.append_assoc] at hsame
    obtain ⟨hu, hrest⟩ := List.append_inj hsame hlength
    have hv := List.append_cancel_left hrest
    subst hu hv
    exact h'
  · intro hfirst
    obtain ⟨rfl, rfl⟩ := hfirst.unique h'
    exact h.whole.symm

theorem cut?_eq_some_iff {t s before after : List Char} :
    cut? t s = some (before, after) ↔ FirstOccurrence t s before after := by
  refine ⟨firstOccurrence_of_cut?, fun h => ?_⟩
  have hin : t <:+: s := ⟨before, after, h.whole.symm⟩
  obtain ⟨⟨u, v⟩, hcut⟩ := Option.isSome_iff_exists.1 (infix_of_cut?.2 hin)
  obtain ⟨rfl, rfl⟩ := h.unique (firstOccurrence_of_cut? hcut)
  exact hcut

/-- What is put right behind a first occurrence makes a longer text, whose first occurrence is there
as well: an earlier one would begin with an earlier occurrence of the shorter text, and that would
end before the addition begins. -/
theorem FirstOccurrence.lengthened {t s before after : List Char}
    (h : FirstOccurrence t s before after) (add : List Char) :
    FirstOccurrence (t ++ add) (before ++ (t ++ add) ++ after) before after := by
  refine ⟨rfl, fun u v huv => Nat.le_of_not_lt fun hlt => ?_⟩
  have hlong : before ++ t <+: before ++ (t ++ add) ++ after := ⟨add ++ after, by simp⟩
  have hshort : u ++ t <+: before ++ (t ++ add) ++ after := ⟨add ++ v, by simp [huv]⟩
  have hlength : (u ++ t).length ≤ (before ++ t).length := by
    simp only [List.length_append]
    omega
  obtain ⟨w, hw⟩ := List.prefix_of_prefix_length_le hshort hlong hlength
  have hearlier : s = u ++ t ++ (w ++ after) := by
    rw [h.whole, ← hw, List.append_assoc _ w]
  exact absurd (h.first u (w ++ after) hearlier) (by omega)

/-- A text whose first character stands nowhere else in it cannot overlap with itself, so it first
occurs right behind a text that does not hold it. -/
theorem FirstOccurrence.of_head {c : Char} {t s : List Char} (hc : c ∉ t) (hs : ¬ c :: t <:+: s)
    (after : List Char) : FirstOccurrence (c :: t) (s ++ c :: t ++ after) s after := by
  refine ⟨rfl, fun u v huv => Nat.le_of_not_lt fun hlt => ?_⟩
  rw [List.append_assoc, List.append_assoc] at huv
  rcases List.append_eq_append_iff.1 huv with ⟨u', hu, -⟩ | ⟨s', hsu, hrest⟩
  · rw [hu, List.length_append] at hlt
    omega
  · cases s' with
    | nil => simp [hsu] at hlt
    | cons d s' =>
      rw [List.cons_append, List.cons_append, List.cons.injEq] at hrest
      obtain ⟨rfl, hrest⟩ := hrest
      rcases List.append_eq_append_iff.1 hrest with ⟨s'', hs', -⟩ | ⟨t', ht, hafter⟩
      · exact hs ⟨u, s'', by simp [hsu, hs']⟩
      · cases t' with
        | nil => exact hs ⟨u, [], by simp [hsu, ht]⟩
        | cons e t' =>
          rw [List.cons_append, List.cons_append, List.cons.injEq] at hafter
          exact hc (by simp [ht, hafter.1])

end Text

namespace Search
open Pattern

def closings : List (List Char) := [['\n', '?', '>', '\n'], ['\n', '?', '>'], ['\n'], []]

theorem length_le_of_closings : closings.Pairwise fun a b => b.length ≤ a.length := by
  simp [closings]

theorem length_le_of_find? {p : List Char → Bool} {rest : List Char}
    (h : closings.find? p = some rest) {r : List Char} (hm : r ∈ closings) (hp : p r = true) :
    r.length ≤ rest.length := by
  obtain ⟨-, longer, shorter, hl, hlonger⟩ := List.find?_eq_some_iff_append.1 h
  have hle := length_le_of_closings
  rw [hl, List.pairwise_append] at hle
  rw [hl, List.mem_append] at hm
  rcases hm with hm | hm
  · simpa [hp] using hlonger r hm
  · rcases List.mem_cons.1 hm with he | hm
    · exact Nat.le_of_eq (congrArg List.length he)
    · exact (List.pairwise_cons.1 hle.2.1).1 r hm

def closingAfter? (t s : List Char) : Option (List Char) :=
  (Text.after? t s).bind fun rest => if rest ∈ closings then some rest else none

theorem closingAfter?_eq_some {t s rest : List Char} :
    closingAfter? t s = some rest ↔ rest ∈ closings ∧ s = t ++ rest := by
  unfold closingAfter?
  constructor
  · intro h
    obtain ⟨r, hr, he⟩ := Option.bind_eq_some_iff.1 h
    split at he
    · rename_i hm
      cases he
      exact ⟨hm, Text.eq_append_of_after? hr⟩
    · simp at he
  · rintro ⟨hm, rfl⟩
    simp [Text.after?_append, hm]

/-- The text before an occurrence of `t` that only a closing follows, and the longest such
closing. -/
def closingPlace? (t s : List Char) : Option (List Char × List Char) :=
  (closings.find? fun rest => (t ++ rest).isSuffixOf s).map fun rest =>
    (s.take (s.length - (t ++ rest).length), rest)

theorem firstWhere_closingAfter? (t s : List Char) :
    firstWhere (closingAfter? t) s = closingPlace? t s := by
  unfold closingPlace?
  cases hc : closings.find? fun rest => (t ++ rest).isSuffixOf s with
  | none =>
    cases hf : firstWhere (closingAfter? t) s with
    | none => rfl
    | some hit =>
      obtain ⟨v, hv, hcl, -⟩ := firstWhere_some hf
      obtain ⟨hm, rfl⟩ := closingAfter?_eq_some.1 hcl
      have hsuf : (t ++ hit.2).isSuffixOf s = true :=
        List.isSuffixOf_iff_suffix.2 ⟨hit.1, hv.symm⟩
      exact absurd hsuf (by simpa using List.find?_eq_none.1 hc _ hm)
  | some rest =>
    have hsuf := List.find?_some hc
    obtain ⟨u, hu⟩ := List.isSuffixOf_iff_suffix.1 hsuf
    have hrest : closingAfter? t (t ++ rest) = some rest :=
      closingAfter?_eq_some.2 ⟨List.mem_of_find?_eq_some hc, rfl⟩
    cases hf : firstWhere (closingAfter? t) s with
    | none => simp [firstWhere_none hf u _ hu.symm] at hrest
    | some hit =>
      obtain ⟨v, hv, hcl, hmin⟩ := firstWhere_some hf
      obtain ⟨hm, rfl⟩ := closingAfter?_eq_some.1 hcl
      have hhit : (t ++ hit.2).isSuffixOf s = true :=
        List.isSuffixOf_iff_suffix.2 ⟨hit.1, hv.symm⟩
      have hfirst : ¬ u.length < hit.1.length := fun hlt => by
        simp [hmin u _ hu.symm hlt] at hrest
      have hshort : hit.2.length ≤ rest.length := length_le_of_find? hc hm hhit
      have hlen := congrArg List.length (hv.symm.trans hu.symm)
      simp only [List.length_append] at hlen
      obtain ⟨he, ht⟩ := List.append_inj (hv.symm.trans hu.symm) (by omega)
      have hr : hit.2 = rest := List.append_cancel_left ht
      rw [Option.map_some, ← hu, ← hr, ← he]
      simp

/-- The longest closing of a text, and what stands before it. -/
structure LongestClosing (s body tail : List Char) : Prop where
  whole : s = body ++ tail
  closing : tail ∈ closings
  longest : ∀ other ∈ closings, other <:+ s → other.length ≤ tail.length

theorem closingPlace?_nil (s : List Char) :
    ∃ body tail, closingPlace? [] s = some (body, tail) ∧ LongestClosing s body tail := by
  unfold closingPlace?
  cases hc : closings.find? fun rest => ([] ++ rest).isSuffixOf s with
  | none =>
    have hnil := List.find?_eq_none.1 hc [] (by simp [closings])
    simp at hnil
  | some tail =>
    have hsuf := List.find?_some hc
    obtain ⟨body, hb⟩ := List.isSuffixOf_iff_suffix.1 hsuf
    refine ⟨body, tail, by simp [← hb], hb.symm, List.mem_of_find?_eq_some hc, ?_⟩
    intro other ho hs
    exact length_le_of_find? hc ho (List.isSuffixOf_iff_suffix.2 hs)

theorem isNoop_iff (s : Search) : s.isNoop = true ↔
    if s.position = .atEnd then s.add = "" ∧ s.search = "" else s.add = "" ∨ s.search = "" := by
  unfold isNoop
  split <;> simp [String.isEmpty_iff]

/-- Where a literal search applies: the texts before and after what is searched. -/
def place? (s : Search) (w : List Char) : Option (List Char × List Char) :=
  match s.position with
  | .atEnd => closingPlace? s.search.toList w
  | _ => Text.cut? s.search.toList w

theorem place?_of_ne_atEnd {s : Search} (hs : s.position ≠ .atEnd) (w : List Char) :
    s.place? w = Text.cut? s.search.toList w := by
  unfold place?
  cases hp : s.position with
  | atEnd => exact absurd hp hs
  | replace | before | after => rfl

/-- A text after an edit, put together from what stands before the place that was found, what was
searched, what stands behind it, and what is added. -/
def edited {α : Type} (position : Position) (before searched after add : List α) : List α :=
  match position with
  | .replace => before ++ add ++ after
  | .before => before ++ add ++ searched ++ after
  | .after => before ++ searched ++ add ++ after
  | .atEnd => if searched.isEmpty then before ++ add ++ after else before ++ after

/-- Whether a literal search applies to a text at its start; the text that stands behind. -/
def accepted? (s : Search) (t : List Char) : Option (List Char) :=
  match s.position with
  | .atEnd => closingAfter? s.search.toList t
  | _ => Text.after? s.search.toList t

theorem firstWhere_accepted? (s : Search) (w : List Char) :
    firstWhere s.accepted? w = s.place? w := by
  cases hp : s.position with
  | atEnd =>
    have ha : s.accepted? = closingAfter? s.search.toList := by
      funext t
      simp [accepted?, hp]
    simp [ha, place?, hp, firstWhere_closingAfter?]
  | replace | before | after =>
    have ha : s.accepted? = Text.after? s.search.toList := by
      funext t
      simp [accepted?, hp]
    simp [ha, place?, hp, Text.firstWhere_after?]

theorem eq_of_accepted? {s : Search} {t after : List Char} (h : s.accepted? t = some after) :
    t = s.search.toList ++ after := by
  unfold accepted? at h
  split at h
  · exact (closingAfter?_eq_some.1 h).2
  · exact Text.eq_append_of_after? h

theorem eq_of_place? {s : Search} {w before after : List Char}
    (h : s.place? w = some (before, after)) : w = before ++ s.search.toList ++ after := by
  rw [← firstWhere_accepted?] at h
  obtain ⟨rest, hw, ha, -⟩ := firstWhere_some h
  rw [hw, eq_of_accepted? ha, List.append_assoc]

end Search

end Patchboard
