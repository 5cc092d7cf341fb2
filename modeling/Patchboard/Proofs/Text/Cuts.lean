import Patchboard.Proofs.Search.Place

set_option autoImplicit false

/-!
A text cut at every occurrence of another one, taken from the left without overlap. To replace all
occurrences is to put the pieces together again with something else between them. What is put
behind each occurrence leaves the cuts where they were. What is put before each occurrence may form
an earlier one together with the piece in front of it.
-/

namespace Patchboard.Text

/-- A first occurrence stays the first one whatever follows it: an earlier one ends before it
ends. -/
theorem FirstOccurrence.followed {t s before after : List Char}
    (h : FirstOccurrence t s before after) (after' : List Char) :
    FirstOccurrence t (before ++ t ++ after') before after' := by
  refine ⟨rfl, fun u v huv => Nat.le_of_not_lt fun hlt => ?_⟩
  have hlong : before ++ t <+: before ++ t ++ after' := ⟨after', rfl⟩
  have hshort : u ++ t <+: before ++ t ++ after' := ⟨v, huv.symm⟩
  have hlength : (u ++ t).length ≤ (before ++ t).length := by
    simp only [List.length_append]
    omega
  obtain ⟨w, hw⟩ := List.prefix_of_prefix_length_le hshort hlong hlength
  have hearlier : s = u ++ t ++ (w ++ after) := by
    rw [h.whole, ← hw, List.append_assoc _ w]
  exact absurd (h.first u (w ++ after) hearlier) (by omega)

theorem firstOccurrence_append_iff {t before after : List Char} :
    FirstOccurrence t (before ++ t ++ after) before after ↔
      FirstOccurrence t (before ++ t) before [] := by
  constructor
  · intro h
    simpa using h.followed []
  · intro h
    exact h.followed after

theorem FirstOccurrence.tail {t s before after : List Char} {c : Char}
    (h : FirstOccurrence t (c :: s) (c :: before) after) : FirstOccurrence t s before after := by
  refine ⟨(List.cons.inj h.whole).2, fun u v huv => ?_⟩
  have hu := h.first (c :: u) v (by rw [huv]; rfl)
  simpa using hu

/-- The pieces of a text before each occurrence of `p`, and what follows the last one. -/
inductive Cuts (p : List Char) : List Char → List (List Char) → List Char → Prop where
  | done {s : List Char} (none : ¬ p <:+: s) : Cuts p s [] s
  | cut {s gap rest : List Char} {gaps : List (List Char)} {last : List Char}
      (first : FirstOccurrence p s gap rest) (more : Cuts p rest gaps last) :
      Cuts p s (gap :: gaps) last

/-- Pieces put together with a text behind each of them, and a last piece at the end. -/
def joined (r : List Char) (gaps : List (List Char)) (last : List Char) : List Char :=
  gaps.flatMap (fun gap => gap ++ r) ++ last

theorem joined_nil (r last : List Char) : joined r [] last = last := rfl

theorem joined_cons (r gap : List Char) (gaps : List (List Char)) (last : List Char) :
    joined r (gap :: gaps) last = gap ++ r ++ joined r gaps last := by
  simp [joined]

theorem exists_firstOccurrence {p s : List Char} (h : p <:+: s) :
    ∃ before after, FirstOccurrence p s before after := by
  obtain ⟨⟨before, after⟩, hcut⟩ := Option.isSome_iff_exists.1 (infix_of_cut?.2 h)
  exact ⟨before, after, firstOccurrence_of_cut? hcut⟩

theorem exists_cuts {p : List Char} (hp : p ≠ []) (s : List Char) :
    ∃ gaps last, Cuts p s gaps last := by
  by_cases h : p <:+: s
  · obtain ⟨gap, rest, hfirst⟩ := exists_firstOccurrence h
    -- What follows an occurrence is shorter, since the occurrence is not empty.
    have hshort : rest.length < s.length := by
      have hpos := List.length_pos_iff.2 hp
      rw [hfirst.whole]
      simp only [List.length_append]
      omega
    obtain ⟨gaps, last, hmore⟩ := exists_cuts hp rest
    exact ⟨gap :: gaps, last, .cut hfirst hmore⟩
  · exact ⟨[], s, .done h⟩
termination_by s.length

theorem Cuts.joined_eq {p s : List Char} {gaps : List (List Char)} {last : List Char}
    (h : Cuts p s gaps last) : joined p gaps last = s := by
  induction h with
  | done => rfl
  | cut first _ ih => rw [joined_cons, ih, first.whole]

theorem Cuts.ne_nil {p s : List Char} {gaps : List (List Char)} {last : List Char}
    (h : Cuts p s gaps last) (hin : p <:+: s) : gaps ≠ [] := by
  cases h with
  | done hnone => exact absurd hin hnone
  | cut => exact List.cons_ne_nil _ _

theorem replaceFrom_skip (p r t s : List Char) :
    replaceFrom p r t.length (t ++ s) = replaceFrom p r 0 s := by
  induction t with
  | nil => rfl
  | cons c t ih => exact ih

theorem startsWith_iff {p s : List Char} : startsWith p s = true ↔ p <+: s := by
  unfold startsWith
  rw [after?_eq_ite]
  by_cases h : p <+: s
  · simp [h]
  · simp [h]

theorem replaceFrom_of_absent (p r : List Char) {s : List Char} (h : ¬ p <:+: s) :
    replaceFrom p r 0 s = s := by
  induction s with
  | nil => rfl
  | cons c s ih =>
    have hstart : ¬ startsWith p (c :: s) = true := fun hs => h (startsWith_iff.1 hs).isInfix
    rw [replaceFrom, if_neg hstart, ih fun hin => h (List.infix_cons hin)]

theorem replaceFrom_of_first {p : List Char} (hp : p ≠ []) (r : List Char)
    {s before after : List Char} (h : FirstOccurrence p s before after) :
    replaceFrom p r 0 s = before ++ r ++ replaceFrom p r 0 after := by
  induction before generalizing s with
  | nil =>
    rw [h.whole]
    cases p with
    | nil => exact absurd rfl hp
    | cons c p =>
      have hstart : startsWith (c :: p) (c :: (p ++ after)) = true :=
        startsWith_iff.2 ⟨after, rfl⟩
      change replaceFrom (c :: p) r 0 (c :: (p ++ after)) = _
      rw [replaceFrom, if_pos hstart]
      exact congrArg (r ++ ·) (replaceFrom_skip (c :: p) r p after)
  | cons c before ih =>
    have hs : s = c :: (before ++ p ++ after) := h.whole
    subst hs
    have hstart : ¬ startsWith p (c :: (before ++ p ++ after)) = true := fun hs => by
      obtain ⟨v, hv⟩ := startsWith_iff.1 hs
      have hfirst := h.first [] v hv.symm
      simp at hfirst
    rw [replaceFrom, if_neg hstart, ih h.tail]
    rfl

theorem replaceAll_of_absent (p r : List Char) {s : List Char} (h : ¬ p <:+: s) :
    replaceAll p r s = s := by
  unfold replaceAll
  split
  · rfl
  · exact replaceFrom_of_absent p r h

theorem replaceAll_of_first {p : List Char} (hp : p ≠ []) (r : List Char)
    {s before after : List Char} (h : FirstOccurrence p s before after) :
    replaceAll p r s = before ++ r ++ replaceAll p r after := by
  have he : ¬ p.isEmpty = true := by simpa using hp
  unfold replaceAll
  rw [if_neg he, if_neg he, replaceFrom_of_first hp r h]

theorem Cuts.replaceAll_eq {p : List Char} (hp : p ≠ []) (r : List Char) {s : List Char}
    {gaps : List (List Char)} {last : List Char} (h : Cuts p s gaps last) :
    replaceAll p r s = joined r gaps last := by
  induction h with
  | done hnone => exact replaceAll_of_absent p r hnone
  | cut first _ ih => rw [joined_cons, replaceAll_of_first hp r first, ih]

/-- With an addition behind every occurrence, the longer text is found exactly where the shorter
one was. -/
theorem Cuts.lengthened {p s : List Char} {gaps : List (List Char)} {last : List Char}
    (h : Cuts p s gaps last) (add : List Char) :
    Cuts (p ++ add) (joined (p ++ add) gaps last) gaps last := by
  induction h with
  | done hnone =>
    exact .done fun hin => hnone ((List.infix_append_left ..).trans hin)
  | cut first _ ih =>
    rw [joined_cons]
    exact .cut ((first.lengthened add).followed _) ih

/-- Additions before every occurrence are all taken away again exactly when behind each piece the
addition is found where it was put, and not with the help of the piece further to the left. -/
theorem Cuts.replaceAll_preceded_iff {p s : List Char} {gaps : List (List Char)}
    {last : List Char} (hp : p ≠ []) (add : List Char) (h : Cuts p s gaps last) :
    replaceAll (add ++ p) p (joined (add ++ p) gaps last) = s ↔
      ∀ gap ∈ gaps, FirstOccurrence (add ++ p) (gap ++ (add ++ p)) gap [] := by
  have hne : add ++ p ≠ [] := by simp [hp]
  induction h with
  | @done s hnone =>
    have hlong : ¬ add ++ p <:+: s := fun hin => hnone ((List.infix_append_right ..).trans hin)
    simp [joined_nil, replaceAll_of_absent _ _ hlong]
  | @cut s gap rest gaps last first _ ih =>
    rw [joined_cons, List.forall_mem_cons]
    have hin : add ++ p <:+: gap ++ (add ++ p) ++ joined (add ++ p) gaps last := ⟨_, _, rfl⟩
    obtain ⟨u, v, hfound⟩ := exists_firstOccurrence hin
    rw [replaceAll_of_first hne p hfound]
    constructor
    · intro hs
      -- An earlier match would leave an earlier occurrence of `p` than the first one of the text.
      have hlength : gap.length = u.length :=
        Nat.le_antisymm (first.first u _ hs.symm) (hfound.first gap _ rfl)
      have hhere : FirstOccurrence (add ++ p) (gap ++ (add ++ p) ++ joined (add ++ p) gaps last)
          gap (joined (add ++ p) gaps last) :=
        ⟨rfl, fun u' v' huv => hlength ▸ hfound.first u' v' huv⟩
      obtain ⟨rfl, rfl⟩ := hhere.unique hfound
      rw [first.whole] at hs
      exact ⟨firstOccurrence_append_iff.1 hhere, ih.1 (List.append_cancel_left hs)⟩
    · rintro ⟨hgap, hrest⟩
      obtain ⟨rfl, rfl⟩ := (firstOccurrence_append_iff.2 hgap).unique hfound
      rw [ih.2 hrest, first.whole]

end Patchboard.Text
