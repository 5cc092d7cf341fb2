import Patchboard.Proofs.Patch.Rendering

set_option autoImplicit false

/-!
The opening tags at which the scan of a stream stops, and what each of them leaves behind: a token
when its closing tag follows, and a problem when it does not. A tag is recognised up to letter case
in all of Unicode, but is looked up and closed after its ASCII letters are lowered. The only
character on which the two differ for a tag is the long s.
-/

namespace Patchboard.Token
open Text Pattern

/-- An opening tag in a text: what stands before it, the tag as it is written, and what stands
behind it. -/
structure Stop where
  passed : List Char
  written : List Char
  behind : List Char

namespace Stop

/-- The tag as it is looked up and closed. -/
def tag (p : Stop) : List Char := lowerAscii p.written

def bracketed (p : Stop) : List Char := '<' :: p.written ++ ['>', '\n']

/-- The text up to the end of the opening tag. -/
def opened (p : Stop) : List Char := p.passed ++ p.bracketed

structure IsIn (p : Stop) (s : List Char) : Prop where
  whole : s = p.opened ++ p.behind
  isTag : IsTag p.written

structure IsFirst (p : Stop) (s : List Char) : Prop extends p.IsIn s where
  first : ∀ q : Stop, q.IsIn s → p.passed.length ≤ q.passed.length

/-- The closing tag follows somewhere, in any ASCII letter case. -/
def IsClosed (p : Stop) : Prop := closing p.tag <:+: lowerAscii p.behind

/-- A body behind the opening tag, up to the first closing tag as it is written, and the rest. -/
structure Encloses (p : Stop) (body ending rest : List Char) : Prop where
  whole : p.behind = body ++ ending ++ rest
  ends : lowerAscii ending = closing p.tag
  first : FirstOccurrence (closing p.tag) (lowerAscii p.behind) (lowerAscii body) (lowerAscii rest)

/-- What the scan makes of an opening tag. -/
def result (p : Stop) : Scanned :=
  match body? p.tag p.behind with
  | none => .unterminated p.tag
  | some (body, _) => ofTag p.tag body

def token? (p : Stop) : Option Token := p.result.token?

def problem? (p : Stop) : Option Problem := p.result.problem?

end Stop

/-- The stops of a scan. It goes on behind the closing tag, or directly behind an opening tag that
is not closed. -/
inductive Stops : List Char → List Stop → Prop where
  | done {s : List Char} (none : ∀ p : Stop, ¬ p.IsIn s) : Stops s []
  | unclosed {s : List Char} {p : Stop} {later : List Stop} (first : p.IsFirst s)
      (open' : ¬ p.IsClosed) (rest : Stops p.behind later) : Stops s (p :: later)
  | closed {s body ending behind : List Char} {p : Stop} {later : List Stop} (first : p.IsFirst s)
      (encloses : p.Encloses body ending behind) (rest : Stops behind later) : Stops s (p :: later)

theorem Stop.isIn_iff {p : Stop} {s : List Char} : p.IsIn s ↔
    ∃ rest, s = p.passed ++ rest ∧ openingAt? rest = some (p.written, p.behind) := by
  constructor
  · rintro ⟨hs, htag⟩
    exact ⟨p.bracketed ++ p.behind, by rw [hs, opened, List.append_assoc],
      openingAt?_eq_some.2 ⟨htag, rfl⟩⟩
  · rintro ⟨rest, rfl, hopening⟩
    obtain ⟨htag, rfl⟩ := openingAt?_eq_some.1 hopening
    exact ⟨(List.append_assoc ..).symm, htag⟩

theorem isFirst_of_firstWhere {s passed written behind : List Char}
    (h : firstWhere openingAt? s = some (passed, written, behind)) :
    Stop.IsFirst ⟨passed, written, behind⟩ s := by
  obtain ⟨rest, hs, hopening, hfirst⟩ := firstWhere_some h
  refine ⟨Stop.isIn_iff.2 ⟨rest, hs, hopening⟩, fun q hq => Nat.le_of_not_lt fun hlt => ?_⟩
  obtain ⟨qrest, hqs, hqopening⟩ := Stop.isIn_iff.1 hq
  simp [hfirst q.passed qrest hqs hlt] at hqopening

theorem not_isIn_of_firstWhere {s : List Char} (h : firstWhere openingAt? s = none) (p : Stop) :
    ¬ p.IsIn s := by
  intro hp
  obtain ⟨rest, hs, hopening⟩ := Stop.isIn_iff.1 hp
  simp [firstWhere_none h p.passed rest hs] at hopening

theorem Stop.IsFirst.unique {p q : Stop} {s : List Char} (hp : p.IsFirst s) (hq : q.IsFirst s) :
    p = q := by
  obtain ⟨prest, hps, hpopening⟩ := Stop.isIn_iff.1 hp.toIsIn
  obtain ⟨qrest, hqs, hqopening⟩ := Stop.isIn_iff.1 hq.toIsIn
  obtain ⟨hpassed, hrest⟩ := List.append_inj (hps.symm.trans hqs)
    (Nat.le_antisymm (hp.first q hq.toIsIn) (hq.first p hp.toIsIn))
  rw [hrest, hqopening] at hpopening
  cases p
  cases q
  simp_all

theorem Stop.IsFirst.firstWhere_eq {p : Stop} {s : List Char} (hp : p.IsFirst s) :
    firstWhere openingAt? s = some (p.passed, p.written, p.behind) := by
  cases h : firstWhere openingAt? s with
  | none => exact absurd hp.toIsIn (not_isIn_of_firstWhere h p)
  | some hit =>
    obtain ⟨passed, written, behind⟩ := hit
    rw [hp.unique (isFirst_of_firstWhere h)]

theorem opening?_eq_map (s : List Char) :
    opening? s = (firstWhere openingAt? s).map fun hit => hit.2 := by
  induction s with
  | nil => rfl
  | cons c s ih =>
    rw [opening?, firstWhere]
    cases openingAt? (c :: s) with
    | some hit => rfl
    | none =>
      rw [Option.map_map]
      exact ih

theorem Stop.encloses_of_body? {p : Stop} {halves : List Char × List Char}
    (h : body? p.tag p.behind = some halves) : ∃ ending, p.Encloses halves.1 ending halves.2 := by
  obtain ⟨⟨before, after⟩, hcut, he⟩ := Option.map_eq_some_iff.1 h
  have hfirst := firstOccurrence_of_cut? hcut
  obtain ⟨hbefore, hending, hafter⟩ : before = lowerAscii (p.behind.take before.length) ∧
      closing p.tag =
        lowerAscii ((p.behind.drop before.length).take (closing p.tag).length) ∧
      after = lowerAscii (p.behind.drop (before.length + (closing p.tag).length)) := by
    have hwhole := hfirst.whole
    simp only [lowerAscii, List.map_take, List.map_drop] at hwhole ⊢
    rw [hwhole]
    simp
  cases he
  refine ⟨(p.behind.drop before.length).take (closing p.tag).length, ?_, hending.symm, ?_⟩
  · rw [← List.drop_drop, List.append_assoc, List.take_append_drop, List.take_append_drop]
  · rwa [← hbefore, ← hafter]

theorem Stop.not_isClosed_of_body? {p : Stop} (h : body? p.tag p.behind = none) :
    ¬ p.IsClosed := by
  intro hc
  obtain ⟨halves, hcut⟩ := Option.isSome_iff_exists.1 (infix_of_cut?.2 hc)
  simp [body?, hcut] at h

theorem Stop.Encloses.isClosed {p : Stop} {body ending rest : List Char}
    (h : p.Encloses body ending rest) : p.IsClosed :=
  ⟨lowerAscii body, lowerAscii rest, h.first.whole.symm⟩

theorem Stop.Encloses.unique {p : Stop} {body ending rest body' ending' rest' : List Char}
    (h : p.Encloses body ending rest) (h' : p.Encloses body' ending' rest') :
    body = body' ∧ ending = ending' ∧ rest = rest' := by
  obtain ⟨hbody, -⟩ := h.first.unique h'.first
  have hlength : body.length = body'.length := by
    simpa [length_lowerAscii] using congrArg List.length hbody
  have hlength' : ending.length = ending'.length := by
    simpa [length_lowerAscii] using congrArg List.length (h.ends.trans h'.ends.symm)
  have hsame := h.whole.symm.trans h'.whole
  rw [List.append_assoc, List.append_assoc] at hsame
  obtain ⟨hbody, hsame⟩ := List.append_inj hsame hlength
  exact ⟨hbody, List.append_inj hsame hlength'⟩

theorem Stop.Encloses.body?_eq {p : Stop} {body ending rest : List Char}
    (h : p.Encloses body ending rest) : body? p.tag p.behind = some (body, rest) := by
  cases hb : body? p.tag p.behind with
  | none => exact absurd h.isClosed (Stop.not_isClosed_of_body? hb)
  | some halves =>
    obtain ⟨ending', h'⟩ := Stop.encloses_of_body? (p := p) hb
    obtain ⟨rfl, -, rfl⟩ := h.unique h'
    rfl

theorem Stop.body?_eq_none {p : Stop} (h : ¬ p.IsClosed) : body? p.tag p.behind = none := by
  cases hb : body? p.tag p.behind with
  | none => rfl
  | some halves =>
    obtain ⟨ending, h'⟩ := Stop.encloses_of_body? (p := p) hb
    exact absurd h'.isClosed h

theorem Stop.IsIn.length_lt {p : Stop} {s : List Char} (h : p.IsIn s) :
    p.behind.length < s.length := by
  rw [h.whole]
  simp only [opened, bracketed, List.length_append, List.length_cons]
  omega

theorem Stop.Encloses.length_le {p : Stop} {body ending rest : List Char}
    (h : p.Encloses body ending rest) : rest.length ≤ p.behind.length := by
  rw [h.whole, List.length_append]
  exact Nat.le_add_left ..

theorem exists_stops (s : List Char) : ∃ stops, Stops s stops := by
  induction hn : s.length using Nat.strongRecOn generalizing s with
  | ind n ih =>
    subst hn
    cases h : firstWhere openingAt? s with
    | none => exact ⟨[], .done (not_isIn_of_firstWhere h)⟩
    | some hit =>
      let p : Stop := ⟨hit.1, hit.2.1, hit.2.2⟩
      have hp : p.IsFirst s := isFirst_of_firstWhere h
      cases hb : body? p.tag p.behind with
      | none =>
        obtain ⟨later, hlater⟩ := ih _ hp.length_lt p.behind rfl
        exact ⟨p :: later, .unclosed hp (Stop.not_isClosed_of_body? hb) hlater⟩
      | some halves =>
        obtain ⟨ending, hencloses⟩ := Stop.encloses_of_body? (p := p) hb
        obtain ⟨later, hlater⟩ :=
          ih _ (Nat.lt_of_le_of_lt hencloses.length_le hp.length_lt) halves.2 rfl
        exact ⟨p :: later, .closed hp hencloses hlater⟩

theorem Stops.unique {s : List Char} {stops stops' : List Stop} (h : Stops s stops)
    (h' : Stops s stops') : stops = stops' := by
  induction h generalizing stops' with
  | done none =>
    cases h' with
    | done => rfl
    | unclosed first | closed first => exact absurd first.toIsIn (none _)
  | unclosed first open' rest ih =>
    cases h' with
    | done none => exact absurd first.toIsIn (none _)
    | unclosed first' open'' rest' =>
      cases first.unique first'
      rw [ih rest']
    | closed first' encloses' rest' =>
      cases first.unique first'
      exact absurd encloses'.isClosed open'
  | closed first encloses rest ih =>
    cases h' with
    | done none => exact absurd first.toIsIn (none _)
    | unclosed first' open'' rest' =>
      cases first.unique first'
      exact absurd encloses.isClosed open''
    | closed first' encloses' rest' =>
      cases first.unique first'
      obtain ⟨-, -, rfl⟩ := encloses.unique encloses'
      rw [ih rest']

theorem Stops.scanFrom_eq {s : List Char} {stops : List Stop} (h : Stops s stops) {fuel : Nat}
    (hf : s.length < fuel) : scanFrom fuel s = stops.map Stop.result := by
  induction h generalizing fuel with
  | done none =>
    obtain ⟨fuel, rfl⟩ := Nat.exists_eq_add_of_lt hf
    rw [scanFrom, opening?_eq_map]
    cases h : firstWhere openingAt? _ with
    | none => rfl
    | some hit => exact absurd (isFirst_of_firstWhere h).toIsIn (none _)
  | @unclosed s p later first open' rest ih =>
    obtain ⟨fuel, rfl⟩ : ∃ n, fuel = n + 1 := ⟨fuel - 1, by omega⟩
    have hlength := first.length_lt
    have hnone := Stop.body?_eq_none open'
    rw [scanFrom, opening?_eq_map, first.firstWhere_eq, List.map_cons, Stop.result, hnone,
      ← @ih fuel (by omega)]
    simp only [Option.map_some]
    rw [← Stop.tag, hnone]
  | @closed s body ending behind p later first encloses rest ih =>
    obtain ⟨fuel, rfl⟩ : ∃ n, fuel = n + 1 := ⟨fuel - 1, by omega⟩
    have hlength := first.length_lt
    have hlength' := encloses.length_le
    have hbody := encloses.body?_eq
    rw [scanFrom, opening?_eq_map, first.firstWhere_eq, List.map_cons, Stop.result, hbody,
      ← @ih fuel (by omega)]
    simp only [Option.map_some]
    rw [← Stop.tag, hbody]

theorem Stops.tokens_eq {raw : List Char} {stops : List Stop}
    (h : Stops (withoutReturns raw) stops) :
    tokens raw = stops.filterMap Stop.token? ∧ problems raw = stops.filterMap Stop.problem? := by
  have hscan : scan raw = stops.map Stop.result := h.scanFrom_eq (Nat.lt_succ_self _)
  unfold tokens problems
  rw [hscan, List.filterMap_map, List.filterMap_map]
  exact ⟨rfl, rfl⟩

theorem Stops.isTag {s : List Char} {stops : List Stop} (h : Stops s stops) :
    ∀ p ∈ stops, IsTag p.written := by
  induction h with
  | done none => simp
  | unclosed first open' rest ih => exact List.forall_mem_cons.2 ⟨first.isTag, ih⟩
  | closed first encloses rest ih => exact List.forall_mem_cons.2 ⟨first.isTag, ih⟩

theorem mem_sources_of_fold {n m : Nat} (h : CaseFold.fold n = m) :
    n = m ∨ n ∈ CaseFold.spans.filterMap fun r => r.source? m := by
  unfold CaseFold.fold at h
  cases hf : CaseFold.spans.findSome? fun r => r.fold? n with
  | none => exact .inl (by simpa [hf] using h)
  | some k =>
    have hk : k = m := by simpa [hf] using h
    obtain ⟨r, hr, hfold⟩ := List.exists_of_findSome?_eq_some hf
    simp only [CaseFold.Span.fold?, Option.ite_none_right_eq_some, Bool.and_eq_true,
      decide_eq_true_eq, Option.some.injEq] at hfold
    obtain ⟨⟨⟨hfirst, hlast⟩, hstep⟩, rfl⟩ := hfold
    refine .inr (List.mem_filterMap.2 ⟨r, hr, ?_⟩)
    have hback : m - r.target = n - r.first := by omega
    simp only [CaseFold.Span.source?, hback, Option.ite_none_right_eq_some, Bool.and_eq_true,
      decide_eq_true_eq, Option.some.injEq]
    omega

theorem lowerAscii_tags : ∀ tag ∈ TokenKind.tags,
    lowerAscii tag.1.toList = tag.1.toList.map id := by
  decide +kernel

theorem folded_tags : ∀ tag ∈ TokenKind.tags,
    folded tag.1.toList = tag.1.toList.map Char.toNat := by
  decide +kernel

theorem sources_tags : ∀ tag ∈ TokenKind.tags, ∀ m ∈ tag.1.toList.map Char.toNat,
    ∀ n ∈ CaseFold.spans.filterMap (fun r => r.source? m),
      n = 'ſ'.toNat ∨ (65 ≤ n ∧ n ≤ 90) ∧ n + 32 = m := by
  decide +kernel

theorem toLower_of_fold {tag : String × TokenKind} (ht : tag ∈ TokenKind.tags) {c d : Char}
    (hc : c ∈ tag.1.toList) (h : CaseFold.fold d.toNat = CaseFold.fold c.toNat) (hd : d ≠ 'ſ') :
    d.toLower = c := by
  have hlower : c.toLower = c := List.map_inj_left.1 (lowerAscii_tags tag ht) c hc
  have hfold : CaseFold.fold c.toNat = c.toNat := List.map_inj_left.1 (folded_tags tag ht) c hc
  rw [hfold] at h
  rcases mem_sources_of_fold h with hsame | hmem
  · rw [Char.toNat_inj.1 hsame, hlower]
  · rcases sources_tags tag ht _ (List.mem_map_of_mem hc) _ hmem with hlong | ⟨hcapital, hsum⟩
    · exact absurd (Char.toNat_inj.1 hlong) hd
    · apply Char.toNat_inj.1
      rw [toNat_toLower, if_pos hcapital, hsum]

theorem lowerAscii_of_folded {tag : String × TokenKind} (ht : tag ∈ TokenKind.tags)
    {written : List Char} (h : folded written = folded tag.1.toList) (hs : 'ſ' ∉ written) :
    lowerAscii written = tag.1.toList := by
  have hpart : ∀ part written : List Char, (∀ c ∈ part, c ∈ tag.1.toList) →
      folded written = folded part → 'ſ' ∉ written → lowerAscii written = part := by
    intro part
    induction part with
    | nil => simp [folded, lowerAscii]
    | cons c part ih =>
      intro written hmem hfold hs
      cases written with
      | nil => simp [folded] at hfold
      | cons d written =>
        obtain ⟨hhead, htail⟩ := List.cons.inj hfold
        rw [List.mem_cons, not_or] at hs
        obtain ⟨hc, hmem⟩ := List.forall_mem_cons.1 hmem
        have hlower := toLower_of_fold ht hc hhead (Ne.symm hs.1)
        exact congrArg₂ List.cons hlower (ih written hmem htail hs.2)
  exact hpart _ _ (fun _ hc => hc) h hs

theorem long_not_mem_tags : ∀ tag ∈ TokenKind.tags, 'ſ' ∉ tag.1.toList := by
  decide +kernel

theorem IsTag.ofTag?_isSome {written : List Char} (h : IsTag written) :
    (TokenKind.ofTag? (lowerAscii written)).isSome ↔ 'ſ' ∉ written := by
  obtain ⟨tag, ht, hfold⟩ := h
  constructor
  · intro hsome hs
    obtain ⟨kind, hkind⟩ := Option.isSome_iff_exists.1 hsome
    obtain ⟨other, hother, -⟩ := Option.map_eq_some_iff.1 hkind
    have hname : other.1.toList = lowerAscii written := by simpa using List.find?_some hother
    refine long_not_mem_tags other (List.mem_of_find?_eq_some hother) ?_
    rw [hname]
    exact (mem_lowerAscii_iff (by decide)).2 hs
  · intro hs
    rw [lowerAscii_of_folded ht hfold hs, ofTag?_tags tag ht]
    rfl

theorem Stop.of_not_isClosed {p : Stop} (h : ¬ p.IsClosed) :
    p.token? = none ∧ p.problem?.isSome := by
  rw [token?, problem?, result, Stop.body?_eq_none h]
  exact ⟨rfl, rfl⟩

theorem Stop.of_isClosed {p : Stop} (ht : IsTag p.written) (h : p.IsClosed) :
    p.problem? = none ∧ (p.token?.isSome ↔ 'ſ' ∉ p.written) := by
  rw [← ht.ofTag?_isSome, token?, problem?, result]
  cases hb : body? p.tag p.behind with
  | none => exact absurd h (Stop.not_isClosed_of_body? hb)
  | some halves =>
    dsimp only [ofTag]
    rw [tag]
    cases TokenKind.ofTag? (lowerAscii p.written) with
    | none => simp [Scanned.problem?, Scanned.token?]
    | some kind => simp [Scanned.problem?, Scanned.token?]

/-- The stop leaves a token and no problem when its closing tag follows, and a problem and no token
when it does not. -/
def Stop.Accounted (p : Stop) : Prop :=
  (p.IsClosed → p.token?.isSome ∧ p.problem? = none) ∧
    (¬ p.IsClosed → p.token? = none ∧ p.problem?.isSome)

theorem Stop.accounted_iff {p : Stop} (ht : IsTag p.written) :
    p.Accounted ↔ (p.IsClosed → 'ſ' ∉ p.written) := by
  constructor
  · intro h hc
    exact (of_isClosed ht hc).2.1 (h.1 hc).1
  · intro h
    refine ⟨fun hc => ?_, of_not_isClosed⟩
    obtain ⟨hproblem, htoken⟩ := of_isClosed ht hc
    exact ⟨htoken.2 (h hc), hproblem⟩

/-- The tokens and the problems of a stream are what its stops leave behind, in order. Every stop
leaves exactly one of them, except for a closed tag that is written with a long s: it leaves
nothing, and its body is passed over. -/
theorem stops_accounted (raw : List Char) :
    ∃ stops, Stops (withoutReturns raw) stops ∧
      (∀ others, Stops (withoutReturns raw) others → others = stops) ∧
      tokens raw = stops.filterMap Stop.token? ∧ problems raw = stops.filterMap Stop.problem? ∧
      ∀ p ∈ stops, (p.Accounted ↔ ¬ (p.IsClosed ∧ 'ſ' ∈ p.written)) ∧
        (¬ p.Accounted → p.token? = none ∧ p.problem? = none) := by
  obtain ⟨stops, hstops⟩ := exists_stops (withoutReturns raw)
  refine ⟨stops, hstops, fun others hothers => hothers.unique hstops, hstops.tokens_eq.1,
    hstops.tokens_eq.2, fun p hp => ?_⟩
  have htag := hstops.isTag p hp
  rw [Stop.accounted_iff htag, not_and]
  refine ⟨Iff.rfl, fun hnot => ?_⟩
  obtain ⟨hclosed, hlong⟩ := Classical.not_imp.1 hnot
  obtain ⟨hproblem, htoken⟩ := Stop.of_isClosed htag hclosed
  exact ⟨Option.not_isSome_iff_eq_none.1 (mt htoken.1 hlong), hproblem⟩

def longStop : Stop where
  passed := []
  written := "ſearch".toList
  behind := "x\n</ſearch>".toList

def longText : List Char := "<ſearch>\nx\n</ſearch>".toList

theorem stop_not_accounted : ∃ stops, Stops (withoutReturns longText) stops ∧
    longStop ∈ stops ∧ longStop.IsClosed ∧ ¬ longStop.Accounted ∧
    tokens longText = [] ∧ problems longText = [] := by
  have hin : longStop.IsIn (withoutReturns longText) :=
    ⟨by decide +kernel, ("search", .search), by decide, by decide +kernel⟩
  have hencloses : longStop.Encloses "x".toList "\n</ſearch>".toList [] :=
    ⟨by decide +kernel, by decide +kernel, cut?_eq_some_iff.1 (by decide +kernel)⟩
  obtain ⟨later, hlater⟩ := exists_stops []
  refine ⟨longStop :: later, .closed ⟨hin, fun q _ => Nat.zero_le _⟩ hencloses hlater,
    List.mem_cons_self, hencloses.isClosed, fun h => ?_, by decide +kernel, by decide +kernel⟩
  exact (Stop.accounted_iff hin.isTag).1 h hencloses.isClosed (by decide)

end Patchboard.Token
