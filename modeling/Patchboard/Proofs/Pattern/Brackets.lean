import Patchboard.Proofs.Pattern.Alongside

set_option autoImplicit false

namespace Patchboard.Pattern

theorem leads_bracketItem? {r r' : Reader} (h : r.Shut r') :
    Leads Tracks (bracketItem? r) (bracketItem? r') := by
  unfold bracketItem?
  rw [h.flags]
  refine (leads_primitive? r.flags h.rest).bind_alongside fun item rest rest' hrest => ?_
  dsimp only
  split
  · exact .some ⟨rfl, h.at' hrest⟩
  · exact .none_left _

theorem bracketItem?_nil {r : Reader} (h : r.rest = []) : bracketItem? r = none := by
  unfold bracketItem?
  rw [h]
  rfl

theorem leads_bracketRange? {r r' : Reader} (h : r.Shut r') :
    Leads Tracks (bracketRange? r) (bracketRange? r') := by
  unfold bracketRange?
  refine (leads_bracketItem? h).bind_tracks fun first q q' hq => ?_
  have hskip := hq.skip
  dsimp only
  generalize q.skip = a at hskip ⊢
  generalize q'.skip = a' at hskip ⊢
  rcases hskip.rest.cases with ⟨he, -⟩ | ⟨c, t, t', he, he', ht⟩
  · rw [he]
    exact .none_left _
  · have hmore := hskip.skipped ht
    by_cases hc : c = '-'
    · subst hc
      simp only [he, he']
      generalize a.skipped t = u at hmore ⊢
      generalize a'.skipped t' = u' at hmore ⊢
      rcases hmore.cases with ⟨rfl, -⟩ | ⟨d, v, v', rfl, rfl, hv⟩
      · simp only [bracketItem?_nil (r := a.at' []) rfl]
        exact .none_left _
      · by_cases hd : d = ']' ∨ d = '-'
        · rcases hd with rfl | rfl
          · exact .pure ⟨rfl, hskip⟩
          · exact .pure ⟨rfl, hskip⟩
        · rw [not_or] at hd
          simp only [List.cons.injEq, hd.1, hd.2, false_and, imp_self, implies_true]
          refine (leads_bracketItem? (hskip.at' hmore)).bind_tracks fun last b b' hb => ?_
          dsimp only
          split
          · split
            · exact .pure ⟨rfl, hb⟩
            · exact .none_left _
          · exact .none_left _
    · simp only [he, he', List.cons.injEq, hc, false_and, imp_self, implies_true]
      exact .pure ⟨rfl, hskip⟩

def className? (negated : Bool) (s : List Char) : Option ((CharSet × Bool) × List Char) :=
  match s.dropWhile (· ≠ ':') with
  | ':' :: ']' :: rest =>
    (CharSet.asciiClass? (String.ofList (s.takeWhile (· ≠ ':')))).map fun set =>
      ((set, negated), rest)
  | _ => none

def named? : List Char → Option ((CharSet × Bool) × List Char)
  | '[' :: ':' :: s =>
    className? (s.head? = some '^') (if s.head? = some '^' then s.drop 1 else s)
  | _ => none

theorem className?_of_eq {negated : Bool} {s rest : List Char}
    (h : s.dropWhile (· ≠ ':') = ':' :: ']' :: rest) :
    className? negated s =
      (CharSet.asciiClass? (String.ofList (s.takeWhile (· ≠ ':')))).map fun set =>
        ((set, negated), rest) := by
  unfold className?
  simp only [h]

theorem className?_of_not {negated : Bool} {s : List Char}
    (h : ∀ rest, s.dropWhile (· ≠ ':') = ':' :: ']' :: rest → False) :
    className? negated s = none := by
  unfold className?
  split
  · rename_i hs
    exact (h _ hs).elim
  · rfl

theorem named?_of_not {s : List Char} (h : ∀ u, s = '[' :: ':' :: u → False) :
    named? s = none := by
  unfold named?
  split
  · exact (h _ rfl).elim
  · rfl

theorem namedClass?_eq (r : Reader) :
    namedClass? r = (named? r.rest).map fun hit => (hit.1.1, hit.1.2, r.at' hit.2) := by
  unfold namedClass?
  split
  · rename_i hr
    simp only [drop_takeWhile]
    rw [hr, named?]
    split
    · rename_i hs
      rw [className?_of_eq hs]
      cases CharSet.asciiClass? _ <;> rfl
    · rename_i hs
      rw [className?_of_not hs]
      rfl
  · rename_i hr
    rw [named?_of_not hr]
    rfl

theorem className?_append (negated : Bool) (s : List Char) :
    className? negated (s ++ [')']) =
      (className? negated s).map fun hit => (hit.1, hit.2 ++ [')']) := by
  by_cases hs : ∃ rest, s.dropWhile (· ≠ ':') = ':' :: ']' :: rest
  · obtain ⟨rest, hs⟩ := hs
    have hne : s.dropWhile (· ≠ ':') ≠ [] := by
      rw [hs]
      exact List.cons_ne_nil _ _
    have hlong := dropWhile_of_stop hne [')']
    rw [hs] at hlong
    rw [className?_of_eq hs, className?_of_eq hlong, takeWhile_of_stop hne, Option.map_map]
    rfl
  · have hnot (rest : List Char) : s.dropWhile (· ≠ ':') = ':' :: ']' :: rest → False :=
      fun he => hs ⟨rest, he⟩
    rw [className?_of_not hnot, className?_of_not]
    · rfl
    · intro rest he
      by_cases hnil : s.dropWhile (· ≠ ':') = []
      · rw [List.dropWhile_append, hnil] at he
        cases he
      · rw [dropWhile_of_stop hnil] at he
        -- The parenthesis is not the bracket that closes the name.
        rcases hd : s.dropWhile (· ≠ ':') with _ | ⟨c, _ | ⟨d, u⟩⟩
        · exact hnil hd
        · rw [hd] at he
          cases he
        · rw [hd] at he
          cases he
          exact hnot u hd

theorem named?_append (s : List Char) :
    named? (s ++ [')']) = (named? s).map fun hit => (hit.1, hit.2 ++ [')']) := by
  by_cases hs : ∃ u, s = '[' :: ':' :: u
  · obtain ⟨u, rfl⟩ := hs
    rw [List.cons_append, List.cons_append, named?, named?]
    cases u with
    | nil => rfl
    | cons e v =>
      rw [List.cons_append, List.head?_cons, List.head?_cons, ← className?_append]
      split <;> rfl
  · have hnot (u : List Char) : s = '[' :: ':' :: u → False := fun he => hs ⟨u, he⟩
    rw [named?_of_not hnot, named?_of_not]
    · rfl
    · intro u he
      rcases s with _ | ⟨c, _ | ⟨d, t⟩⟩
      · cases he
      · cases he
      · cases he
        exact hnot t rfl

theorem setOperator?_append (s : List Char) :
    setOperator? (s ++ [')']) = (setOperator? s).map fun hit => (hit.1, hit.2 ++ [')']) := by
  rcases s with _ | ⟨c, _ | ⟨d, u⟩⟩
  · rfl
  · unfold setOperator?
    split <;> simp_all
  · rw [List.cons_append, List.cons_append]
    unfold setOperator?
    split
    case h_4 h1 h2 h3 => split <;> simp_all
    all_goals
      rename_i he
      cases he
      rfl

theorem length_skipSpaced (s : List Char) : (Reader.skipSpaced s).length ≤ s.length := by
  fun_induction Reader.skipSpaced s with
  | case1 => exact Nat.le_refl _
  | case2 s ih => exact Nat.le_succ_of_le (Nat.le_trans ih (Reader.length_skipComment s))
  | case3 c s _ _ ih => exact Nat.le_succ_of_le ih
  | case4 c s => exact Nat.le_refl _

theorem length_skipped (r : Reader) (s : List Char) : (r.skipped s).length ≤ s.length := by
  unfold Reader.skipped
  split
  · exact length_skipSpaced s
  · exact Nat.le_refl _

theorem leadingHyphens_of_not {r : Reader} (h : ∀ s, r.rest = '-' :: s → False) (fuel : Nat) :
    leadingHyphens r fuel = (.empty, r) := by
  cases fuel with
  | zero => rfl
  | succ fuel =>
    rw [leadingHyphens]
    split
    · rename_i hs
      exact (h _ hs).elim
    · rfl

theorem tracks_leadingHyphens {n m : Nat} {r r' : Reader} (h : r.Shut r')
    (hn : r.rest.length ≤ n) (hm : r'.rest.length ≤ m) :
    Tracks (leadingHyphens r n) (leadingHyphens r' m) := by
  induction n generalizing m r r' with
  | zero =>
    have he : r.rest = [] := List.length_eq_zero_iff.1 (Nat.le_zero.1 hn)
    have he' (s : List Char) : r'.rest = '-' :: s → False := by
      rcases h.rest.cases with ⟨-, he' | he'⟩ | ⟨c, t, t', ht, -⟩ <;> simp_all
    rw [leadingHyphens, leadingHyphens_of_not he']
    exact ⟨rfl, h⟩
  | succ n ih =>
    rcases h.rest.cases with ⟨he, he'⟩ | ⟨c, t, t', he, he', ht⟩
    · rw [leadingHyphens_of_not (by simp [he]),
        leadingHyphens_of_not (by rcases he' with he' | he' <;> simp [he'])]
      exact ⟨rfl, h⟩
    · by_cases hc : c = '-'
      · subst hc
        rw [he, List.length_cons, Nat.add_le_add_iff_right] at hn
        rw [he', List.length_cons] at hm
        obtain ⟨m, rfl⟩ : ∃ k, m = k + 1 := ⟨m - 1, by omega⟩
        have hlen := length_skipped r t
        have hlen' := length_skipped r' t'
        have hmore := ih (h.at' (h.skipped ht)) (m := m) (by dsimp only [Reader.at']; omega)
          (by dsimp only [Reader.at']; omega)
        rw [leadingHyphens, leadingHyphens]
        simp only [he, he']
        exact ⟨by rw [hmore.1], hmore.2⟩
      · rw [leadingHyphens_of_not (by simp [he, hc]), leadingHyphens_of_not (by simp [he', hc])]
        exact ⟨rfl, h⟩

def bracketStart? (r : Reader) : Option (CharSet × Reader) :=
  let hyphens := leadingHyphens r r.rest.length
  match hyphens.2.rest with
  | [] => none
  | ']' :: s =>
    some (if hyphens.1 matches .empty then (.single ']', (hyphens.2.at' s).skip) else hyphens)
  | _ => some hyphens

theorem openBracket?_eq (r : Reader) :
    openBracket? r =
      (bracketStart? (if r.skip.rest.head? = some '^' then (r.skip.at' (r.skip.rest.drop 1)).skip
        else r.skip)).map fun start => (decide (r.skip.rest.head? = some '^'), start) := by
  unfold openBracket? bracketStart?
  simp only
  generalize (if r.skip.rest.head? = some '^' then (r.skip.at' (r.skip.rest.drop 1)).skip
    else r.skip) = q
  generalize leadingHyphens q q.rest.length = hyphens
  obtain ⟨set, s, flags, groups, names⟩ := hyphens
  rcases s with _ | ⟨c, s⟩
  · rfl
  · by_cases hc : c = ']'
    · subst hc
      cases set <;> rfl
    · simp only [List.cons.injEq, hc, false_and, imp_self, implies_true]
      rfl

theorem leads_bracketStart? {r r' : Reader} (h : r.Shut r') :
    Leads Tracks (bracketStart? r) (bracketStart? r') := by
  have hhyphens := tracks_leadingHyphens h (Nat.le_refl _) (Nat.le_refl _)
  unfold bracketStart?
  dsimp only
  generalize leadingHyphens r r.rest.length = a at hhyphens ⊢
  generalize leadingHyphens r' r'.rest.length = a' at hhyphens ⊢
  obtain ⟨set, q⟩ := a
  obtain ⟨set', q'⟩ := a'
  obtain ⟨hset, hq⟩ := hhyphens
  obtain rfl : set' = set := hset
  dsimp only at hq ⊢
  rcases hq.rest.cases with ⟨he, -⟩ | ⟨c, t, t', he, he', ht⟩
  · rw [he]
    exact .none_left _
  · by_cases hc : c = ']'
    · subst hc
      simp only [he, he']
      split
      · exact .some ⟨rfl, (hq.at' ht).skip⟩
      · exact .some ⟨rfl, hq⟩
    · simp only [he, he', List.cons.injEq, hc, false_and, imp_self, implies_true]
      exact .some ⟨rfl, hq⟩

def Opens (x x' : Bool × CharSet × Reader) : Prop :=
  x'.1 = x.1 ∧ Tracks x.2 x'.2

theorem leads_openBracket? {r r' : Reader} (h : r.Shut r') :
    Leads Opens (openBracket? r) (openBracket? r') := by
  rw [openBracket?_eq, openBracket?_eq]
  have hskip := h.skip
  generalize r.skip = a at hskip ⊢
  generalize r'.skip = a' at hskip ⊢
  have hhead : a'.rest.head? = some '^' ↔ a.rest.head? = some '^' := by
    rcases hskip.rest.cases with ⟨he, he' | he'⟩ | ⟨c, t, t', he, he', -⟩ <;> simp [he, he']
  simp only [hhead]
  refine Leads.map (R := Tracks) ?_ fun _ _ hstart => ⟨rfl, hstart⟩
  split
  · rename_i hc
    obtain ⟨c, t, t', he, he', ht⟩ : ∃ c t t', a.rest = c :: t ∧ a'.rest = c :: t' ∧ Shut t t' := by
      rcases hskip.rest.cases with ⟨he, -⟩ | hmore
      · simp [he] at hc
      · exact hmore
    rw [he, he']
    exact leads_bracketStart? (hskip.at' ht).skip
  · exact leads_bracketStart? hskip

theorem leads_namedClass? {r r' : Reader} (h : r.Shut r') (hr : r.rest ≠ []) :
    namedClass? r = none ∧ namedClass? r' = none ∨
      ∃ set negated q q', namedClass? r = some (set, negated, q) ∧
        namedClass? r' = some (set, negated, q') ∧ q.Shut q' := by
  rw [namedClass?_eq, namedClass?_eq, h.rest.eq_append hr, named?_append]
  cases named? r.rest with
  | none => exact .inl ⟨rfl, rfl⟩
  | some hit => exact .inr ⟨_, _, _, _, rfl, rfl, h.at' (.append _)⟩

def BracketLeads (n : Nat) : Prop :=
  ∀ {m : Nat} {r r' : Reader}, r.Shut r' → Leads Tracks (bracket? n r) (bracket? m r')

def BracketItemsLead (n : Nat) : Prop :=
  ∀ {m : Nat} {left : Option (SetOperator × CharSet)} {items : CharSet} {r r' : Reader},
    r.Shut r' → Leads Tracks (bracketItems? n left items r) (bracketItems? m left items r')

theorem bracketLeads_succ {n : Nat} (hitems : BracketItemsLead n) : BracketLeads (n + 1) := by
  intro m r r' h
  cases m with
  | zero => exact .none_right _
  | succ m =>
    rw [bracket?, bracket?]
    refine (leads_openBracket? h).bind ?_
    rintro ⟨negated, start, q⟩ ⟨negated', start', q'⟩ ⟨hn, hs, hq⟩
    obtain rfl : negated' = negated := hn
    obtain rfl : start' = start := hs
    refine (hitems hq).bind_tracks fun set a a' ha => ?_
    dsimp only
    rw [ha.flags]
    split
    · exact .bind_same fun s => .pure ⟨rfl, ha⟩
    · exact .pure ⟨rfl, ha⟩

theorem bracketItemsLead_succ {n : Nat} (hbracket : BracketLeads n) (hitems : BracketItemsLead n) :
    BracketItemsLead (n + 1) := by
  intro m left items r r' h
  cases m with
  | zero => exact .none_right _
  | succ m =>
    rw [bracketItems?, bracketItems?]
    have hskip := h.skip
    dsimp only
    generalize r.skip = a at hskip ⊢
    generalize r'.skip = a' at hskip ⊢
    rcases hskip.rest.cases with ⟨he, -⟩ | ⟨c, t, t', he, he', ht⟩
    · rw [he]
      exact .none_left _
    · have hne : a.rest ≠ [] := by
        rw [he]
        exact List.cons_ne_nil _ _
      by_cases hclose : c = ']'
      · subst hclose
        simp only [he, he', hskip.flags]
        exact .some ⟨rfl, hskip.at' ht⟩
      · by_cases hopen : c = '['
        · subst hopen
          have hnamed := leads_namedClass? hskip hne
          simp only [he, he']
          rcases hnamed with ⟨hnone, hnone'⟩ | ⟨set, negated, q, q', hsome, hsome', hq⟩
          · simp only [hnone, hnone']
            exact (hbracket (hskip.at' ht)).bind_tracks fun set b b' hb => hitems hb
          · simp only [hsome, hsome', hq.flags]
            split
            · exact .bind_same fun set => hitems hq
            · exact hitems hq
        · have hop := setOperator?_append a.rest
          rw [← hskip.rest.eq_append hne, he, he'] at hop
          simp only [he, he', List.cons.injEq, hclose, hopen, false_and, imp_self, implies_true,
            hop]
          cases setOperator? (c :: t) with
          | none => exact (leads_bracketRange? hskip).bind_tracks fun set b b' hb => hitems hb
          | some hit =>
            simp only [Option.map_some, hskip.flags]
            exact hitems (hskip.at' (.append _))

theorem brackets_lead (n : Nat) : BracketLeads n ∧ BracketItemsLead n := by
  induction n with
  | zero => exact ⟨fun _ => .none_left _, fun _ => .none_left _⟩
  | succ n ih => exact ⟨bracketLeads_succ ih.2, bracketItemsLead_succ ih.1 ih.2⟩

end Patchboard.Pattern
