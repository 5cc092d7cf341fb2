import Patchboard.Proofs.Pattern.Reading

set_option autoImplicit false

/-!
Reading with a closing parenthesis behind the text. What is read of the text is the same with the
parenthesis behind it, and what is left differs by the parenthesis, unless the text ends in a comment,
which swallows it. Blanks, comments, characters, conditions and sets are read so.
-/

namespace Patchboard.Pattern

/-- What is left of a text, and what is left of it with a closing parenthesis behind it. Behind a
comment nothing is left of either. -/
def Shut (s s' : List Char) : Prop := s' = s ++ [')'] ∨ (s = [] ∧ s' = [])

theorem Shut.append (s : List Char) : Shut s (s ++ [')']) := .inl rfl

theorem Shut.nil : Shut [] [] := .inr ⟨rfl, rfl⟩

theorem Shut.cons {c : Char} {s s' : List Char} (h : Shut (c :: s) s') :
    ∃ t, s' = c :: t ∧ Shut s t := by
  rcases h with rfl | ⟨h, -⟩
  · exact ⟨s ++ [')'], rfl, .append s⟩
  · exact absurd h (List.cons_ne_nil _ _)

theorem Shut.cases {s s' : List Char} (h : Shut s s') :
    (s = [] ∧ (s' = [')'] ∨ s' = [])) ∨ ∃ c t t', s = c :: t ∧ s' = c :: t' ∧ Shut t t' := by
  cases s with
  | nil =>
    rcases h with rfl | ⟨-, rfl⟩
    · exact .inl ⟨rfl, .inl rfl⟩
    · exact .inl ⟨rfl, .inr rfl⟩
  | cons c t =>
    obtain ⟨t', ht', ht⟩ := h.cons
    exact .inr ⟨c, t, t', rfl, ht', ht⟩

theorem Shut.eq_append {s s' : List Char} (h : Shut s s') (hs : s ≠ []) : s' = s ++ [')'] := by
  rcases h with h | ⟨h, -⟩
  · exact h
  · exact absurd h hs

/-- If both answers are there, they are related. -/
def Leads {α β : Type} (R : α → β → Prop) (a : Option α) (b : Option β) : Prop :=
  ∀ x ∈ a, ∀ y ∈ b, R x y

section Leads
variable {α β γ δ : Type} {R : α → β → Prop} {S : γ → δ → Prop}

theorem Leads.none_left (b : Option β) : Leads R none b := fun _ h => by simp at h

theorem Leads.none_right (a : Option α) : Leads R a none := fun _ _ _ h => by simp at h

theorem Leads.some {x : α} {y : β} (h : R x y) : Leads R (some x) (some y) := by
  intro x' hx y' hy
  cases hx
  cases hy
  exact h

theorem Leads.pure {x : α} {y : β} (h : R x y) :
    Leads R (Pure.pure x : Option α) (Pure.pure y) := .some h

theorem Leads.bind {a : Option α} {b : Option β} (h : Leads R a b) {f : α → Option γ}
    {g : β → Option δ} (hf : ∀ x y, R x y → Leads S (f x) (g y)) :
    Leads S (a.bind f) (b.bind g) := by
  intro z hz w hw
  obtain ⟨x, hx, hz⟩ := Option.bind_eq_some_iff.1 hz
  obtain ⟨y, hy, hw⟩ := Option.bind_eq_some_iff.1 hw
  exact hf x y (h x hx y hy) z hz w hw

theorem Leads.bind_same {β : Type} {a : Option β} {f : β → Option γ} {g : β → Option δ}
    (h : ∀ x, Leads S (f x) (g x)) : Leads S (a.bind f) (a.bind g) := by
  cases a with
  | none => exact .none_left _
  | some x => exact h x

theorem Leads.map {a : Option α} {b : Option β} (h : Leads R a b) {f : α → γ} {g : β → δ}
    (hf : ∀ x y, R x y → S (f x) (g y)) : Leads S (a.map f) (b.map g) := by
  intro z hz w hw
  obtain ⟨x, hx, rfl⟩ := Option.map_eq_some_iff.1 hz
  obtain ⟨y, hy, rfl⟩ := Option.map_eq_some_iff.1 hw
  exact hf x y (h x hx y hy)

end Leads

/-- The same answer, and what is left to read. -/
def Alongside {α : Type} (x x' : α × List Char) : Prop := x'.1 = x.1 ∧ Shut x.2 x'.2

theorem Leads.bind_alongside {α β γ : Type} {S : β → γ → Prop} {a b : Option (α × List Char)}
    (h : Leads Alongside a b) {f : α × List Char → Option β} {g : α × List Char → Option γ}
    (hf : ∀ x s s', Shut s s' → Leads S (f (x, s)) (g (x, s'))) :
    Leads S (a.bind f) (b.bind g) := by
  refine h.bind ?_
  rintro ⟨x, s⟩ ⟨x', s'⟩ ⟨hx, hs⟩
  obtain rfl : x' = x := hx
  exact hf x' s s' hs

/-- A reader that reads the same with a closing parenthesis behind the text, when it reads anything
without it. -/
def Carries {α : Type} (f : List Char → Option (α × List Char)) : Prop :=
  ∀ s a rest, f s = some (a, rest) → f (s ++ [')']) = some (a, rest ++ [')'])

theorem Carries.leads {α : Type} {f : List Char → Option (α × List Char)} (h : Carries f)
    (hnil : f [] = none) {s s' : List Char} (hs : Shut s s') : Leads Alongside (f s) (f s') := by
  rcases hs with rfl | ⟨rfl, rfl⟩
  · rintro ⟨a, rest⟩ ha y hy
    rw [h s a rest ha] at hy
    cases hy
    exact ⟨rfl, .append rest⟩
  · rw [hnil]
    exact .none_left _

theorem shut_skipComment (s : List Char) :
    Shut (Reader.skipComment s) (Reader.skipComment (s ++ [')'])) := by
  fun_induction Reader.skipComment s with
  | case1 => exact .nil
  | case2 s => exact .append s
  | case3 c s hc ih =>
    have hskip : Reader.skipComment (c :: s ++ [')']) = Reader.skipComment (s ++ [')']) := by
      rw [List.cons_append, Reader.skipComment.eq_def]
      split <;> simp_all
    rw [hskip]
    exact ih

theorem skipSpaced_shut : Reader.skipSpaced [')'] = [')'] := by
  rw [Reader.skipSpaced, if_neg (by decide), if_neg (by decide)]

theorem shut_skipSpaced {s s' : List Char} (h : Shut s s') :
    Shut (Reader.skipSpaced s) (Reader.skipSpaced s') := by
  rcases h with rfl | ⟨rfl, rfl⟩
  · fun_induction Reader.skipSpaced s with
    | case1 =>
      rw [List.nil_append, skipSpaced_shut]
      exact .append []
    | case2 s ih =>
      rw [List.cons_append, Reader.skipSpaced, if_pos rfl]
      rcases shut_skipComment s with h | ⟨h, h'⟩
      · rw [h]
        exact ih
      · rw [h, h', Reader.skipSpaced]
        exact .nil
    | case3 c s hc hblank ih =>
      rw [List.cons_append, Reader.skipSpaced, if_neg hc, if_pos hblank]
      exact ih
    | case4 c s hc hblank =>
      rw [List.cons_append, Reader.skipSpaced, if_neg hc, if_neg hblank]
      exact .append _
  · rw [Reader.skipSpaced]
    exact .nil

/-- Two readers, the second one with a closing parenthesis behind what the first one reads. They
need not have opened the same number of groups. -/
structure Reader.Shut (r r' : Reader) : Prop where
  rest : Pattern.Shut r.rest r'.rest
  flags : r'.flags = r.flags
  names : r'.names = r.names

namespace Reader.Shut
variable {r r' : Reader}

theorem at' (h : r.Shut r') {s s' : List Char} (hs : Pattern.Shut s s') :
    (r.at' s).Shut (r'.at' s') := ⟨hs, h.flags, h.names⟩

theorem skipped (h : r.Shut r') {s s' : List Char} (hs : Pattern.Shut s s') :
    Pattern.Shut (r.skipped s) (r'.skipped s') := by
  unfold Reader.skipped
  rw [h.flags]
  split
  · exact shut_skipSpaced hs
  · exact hs

theorem skip (h : r.Shut r') : r.skip.Shut r'.skip := ⟨h.skipped h.rest, h.flags, h.names⟩

end Reader.Shut

theorem takeWhile_of_stop {p : Char → Bool} {s : List Char} (h : s.dropWhile p ≠ [])
    (t : List Char) : (s ++ t).takeWhile p = s.takeWhile p := by
  have hshort : ¬ (s.takeWhile p).length = s.length := fun he => by
    have hs := congrArg List.length (List.takeWhile_append_dropWhile (p := p) (l := s))
    rw [List.length_append] at hs
    exact h (List.length_eq_zero_iff.1 (by omega))
  rw [List.takeWhile_append, if_neg hshort]

theorem dropWhile_of_stop {p : Char → Bool} {s : List Char} (h : s.dropWhile p ≠ [])
    (t : List Char) : (s ++ t).dropWhile p = s.dropWhile p ++ t := by
  rw [List.dropWhile_append, if_neg (by simpa using h)]

theorem drop_takeWhile (p : Char → Bool) (s : List Char) :
    s.drop (s.takeWhile p).length = s.dropWhile p := by
  have h := @List.drop_left _ (s.takeWhile p) (s.dropWhile p)
  rwa [List.takeWhile_append_dropWhile] at h

theorem after?_append_of_some {t s rest : List Char} (h : Text.after? t s = some rest)
    (u : List Char) : Text.after? t (s ++ u) = some (rest ++ u) := by
  rw [Text.eq_append_of_after? h, List.append_assoc, Text.after?_append]

theorem ne_nil_of_after? {c : Char} {t s rest : List Char}
    (h : Text.after? (c :: t) s = some rest) : s ≠ [] := by
  rintro rfl
  simp [Text.after?] at h

theorem append_ne_brace {s : List Char} (h : ∀ t, s = '\x7b' :: t → False) (t : List Char) :
    s ++ [')'] = '\x7b' :: t → False := by
  intro ht
  cases s with
  | nil => simp at ht
  | cons c s =>
    rw [List.cons_append, List.cons.injEq] at ht
    exact h s (by rw [ht.1])

theorem carries_hexEscape? (width : Nat) : Carries (hexEscape? width) := by
  intro s a rest h
  unfold hexEscape? at h
  split at h
  · rename_i s
    simp only [Option.bind_eq_bind, Option.bind_eq_some_iff] at h
    obtain ⟨tail, htail, h⟩ := h
    have hne := ne_nil_of_after? htail
    rw [List.cons_append, hexEscape?]
    simp only [takeWhile_of_stop hne, dropWhile_of_stop hne, after?_append_of_some htail,
      Option.bind_eq_bind, Option.bind_some]
    split at h
    · simp at h
    · rename_i hdigits
      simp only [Option.bind_eq_some_iff, Option.pure_def, Option.some.injEq,
        Prod.mk.injEq] at h
      obtain ⟨n, hn, c, hc, rfl, rfl⟩ := h
      rw [if_neg hdigits, hn, Option.bind_some, hc]
      rfl
  · rename_i hs
    split at h
    · simp at h
    · rename_i hlong
      simp only [Option.bind_eq_bind, Option.bind_eq_some_iff, Option.pure_def,
        Option.some.injEq, Prod.mk.injEq] at h
      obtain ⟨n, hn, c, hc, rfl, rfl⟩ := h
      unfold hexEscape?
      split
      · rename_i ht
        exact (append_ne_brace hs _ ht).elim
      · have hle : width ≤ s.length := Nat.le_of_not_lt hlong
        have hlong' : ¬ (s ++ [')']).length < width := by
          rw [List.length_append]
          omega
        rw [if_neg hlong', List.take_append_of_le_length hle, List.drop_append_of_le_length hle, hn]
        simp only [Option.bind_eq_bind, Option.bind_some, hc]
        rfl

theorem bind_append {α β : Type} {a : Option α} {f : α → β} {b : β} {s rest : List Char}
    (h : (a.bind fun x => some (f x, s)) = some (b, rest)) (t : List Char) :
    (a.bind fun x => some (f x, s ++ t)) = some (b, rest ++ t) := by
  obtain ⟨x, rfl, he⟩ := Option.bind_eq_some_iff.1 h
  cases he
  rfl

theorem carries_propertySet? : Carries propertySet? := by
  intro s a rest h
  unfold propertySet? at h
  split at h
  · rename_i s
    simp only [Option.bind_eq_bind, Option.bind_eq_some_iff] at h
    obtain ⟨tail, htail, h⟩ := h
    have hne := ne_nil_of_after? htail
    rw [List.cons_append]
    unfold propertySet?
    simp only [takeWhile_of_stop hne, dropWhile_of_stop hne, after?_append_of_some htail,
      Option.bind_eq_bind, Option.bind_some]
    split at h
    · exact bind_append h _
    · split at h
      · exact bind_append h _
      · exact bind_append h _
  · simp at h
  · rename_i c t hbrace hback
    have he : propertySet? (c :: t ++ [')']) =
        (CharSet.property? [c]).map fun set => (set, t ++ [')']) := by
      rw [List.cons_append]
      unfold propertySet?
      split
      · rename_i he
        exact (hbrace (List.cons.inj he).1).elim
      · rename_i he
        exact (hback (List.cons.inj he).1).elim
      · rename_i he
        cases he
        rfl
      · rename_i he
        cases he
    rw [he]
    obtain ⟨set, hset, he⟩ := Option.map_eq_some_iff.1 h
    cases he
    rw [hset]
    rfl
  · simp at h

theorem carries_boundary? (word : CharSet) : Carries (boundary? word) := by
  intro s a rest h
  unfold boundary? at h
  split at h
  · rename_i c t
    split at h
    · rename_i hc
      simp only [List.drop_one, List.tail_cons, drop_takeWhile, Option.bind_eq_bind,
        Option.bind_eq_some_iff] at h
      obtain ⟨tail, htail, look, hlook, he⟩ := h
      cases he
      have hne := ne_nil_of_after? htail
      have hwhile := takeWhile_of_stop hne [')']
      have hdrop := drop_takeWhile (fun c => c.isAlpha || c = '-') (c :: t ++ [')'])
      rw [hwhile, dropWhile_of_stop hne, List.cons_append] at hdrop
      rw [List.cons_append] at hwhile
      rw [List.cons_append, List.cons_append, boundary?, if_pos hc]
      simp only [List.drop_one, List.tail_cons, hwhile, hdrop, after?_append_of_some htail, hlook,
        Option.bind_eq_bind, Option.bind_some]
      rfl
    · rename_i hc
      cases h
      rw [List.cons_append, List.cons_append, boundary?, if_neg hc]
  · rename_i hs
    cases h
    unfold boundary?
    split
    · rename_i c t ht
      -- The parenthesis is no letter, so the brace before it opens a repetition.
      have hc : c = ')' := by
        cases s with
        | nil => simp at ht
        | cons d s =>
          cases s with
          | nil => exact (List.cons.inj (List.cons.inj ht).2).1.symm
          | cons e s => exact (hs e s (by simp_all)).elim
      subst hc
      rfl
    · rfl

theorem carries_map {α β : Type} {f : List Char → Option (α × List Char)} (hf : Carries f)
    (g : α → β) : Carries fun s => (f s).map fun hit => (g hit.1, hit.2) := by
  intro s b rest h
  obtain ⟨⟨a, tail⟩, ha, he⟩ := Option.map_eq_some_iff.1 h
  cases he
  dsimp only
  rw [hf s a _ ha]
  rfl

theorem carries_property? (f : Flags) : Carries f.property? := by
  intro s a rest h
  unfold Flags.property? at h ⊢
  split at h
  · rename_i hu
    rw [if_pos hu]
    exact carries_map carries_propertySet? f.fold s a rest h
  · simp at h

theorem carries_escape? (f : Flags) : Carries (escape? f) := by
  intro s a rest h
  cases s with
  | nil => simp [escape?] at h
  | cons c s =>
    rw [escape?.eq_def] at h
    rw [List.cons_append, escape?.eq_def]
    dsimp only at h ⊢
    split at h
    case h_4 | h_5 | h_6 =>
      obtain ⟨set, hset, he⟩ := Option.map_eq_some_iff.1 h
      cases he
      rw [hset]
      rfl
    case h_7 => exact carries_map (carries_property? f) Primitive.set s a rest h
    case h_8 =>
      exact carries_map (carries_property? f) (fun set => Primitive.set set.complement) s a rest h
    case h_9 =>
      simp only [Option.bind_eq_bind, Option.bind_eq_some_iff] at h
      obtain ⟨⟨c, tail⟩, hhex, h⟩ := h
      have hhead : (s ++ [')']).head? = s.head? := by
        cases s with
        | nil => simp [hexEscape?] at hhex
        | cons d s => rfl
      rw [carries_hexEscape? 2 s c tail hhex, hhead]
      simp only [Option.bind_eq_bind, Option.bind_some]
      split at h
      · simp at h
      · rename_i hwide
        cases h
        rw [if_neg hwide]
        rfl
    case h_10 => exact carries_map (carries_hexEscape? 4) Primitive.char s a rest h
    case h_11 => exact carries_map (carries_hexEscape? 8) Primitive.char s a rest h
    case h_20 => exact carries_map (carries_boundary? f.word) Primitive.look s a rest h
    case h_24 =>
      split at h
      · rename_i hc
        cases h
        rw [if_pos hc]
      · simp at h
    all_goals
      cases h
      rfl

theorem carries_primitive? (f : Flags) : Carries (primitive? f) := by
  intro s a rest h
  unfold primitive? at h
  split at h
  · simp at h
  · exact carries_escape? f _ a rest h
  · rename_i c s hc
    cases h
    rw [List.cons_append, primitive?]
    exact hc

theorem leads_primitive? (f : Flags) {s s' : List Char} (h : Shut s s') :
    Leads Alongside (primitive? f s) (primitive? f s') :=
  (carries_primitive? f).leads rfl h

/-- The same answer, and readers that stay alongside each other. -/
def Tracks {α : Type} (x x' : α × Reader) : Prop := x'.1 = x.1 ∧ x.2.Shut x'.2

theorem Leads.bind_tracks {α β γ : Type} {S : β → γ → Prop} {a b : Option (α × Reader)}
    (h : Leads Tracks a b) {f : α × Reader → Option β} {g : α × Reader → Option γ}
    (hf : ∀ x q q', q.Shut q' → Leads S (f (x, q)) (g (x, q'))) :
    Leads S (a.bind f) (b.bind g) := by
  refine h.bind ?_
  rintro ⟨x, q⟩ ⟨x', q'⟩ ⟨hx, hq⟩
  obtain rfl : x' = x := hx
  exact hf x' q q' hq

end Patchboard.Pattern
