import Patchboard.Proofs.Pattern.Brackets
import Patchboard.Proofs.Pattern.Groups

set_option autoImplicit false

namespace Patchboard.Pattern

theorem takeWhile_append_close {p : Char → Bool} (h : p ')' = false) (s : List Char) :
    (s ++ [')']).takeWhile p = s.takeWhile p := by
  induction s with
  | nil => simp [h]
  | cons c s ih => simp only [List.cons_append, List.takeWhile_cons, ih]

theorem dropWhile_append_close {p : Char → Bool} (h : p ')' = false) (s : List Char) :
    (s ++ [')']).dropWhile p = s.dropWhile p ++ [')'] := by
  induction s with
  | nil => simp [h]
  | cons c s ih =>
    simp only [List.cons_append, List.dropWhile_cons, ih]
    split <;> rfl

theorem trimStart_append_close (s : List Char) :
    Text.trimStart (s ++ [')']) = Text.trimStart s ++ [')'] :=
  dropWhile_append_close rfl s

theorem carries_count? : Carries count? := by
  intro s n rest h
  unfold count? at h ⊢
  simp only [trimStart_append_close, takeWhile_append_close (p := Char.isDigit) rfl] at h ⊢
  split at h
  · simp at h
  · rename_i hdigits
    cases h
    have hdrop := drop_takeWhile Char.isDigit (Text.trimStart s ++ [')'])
    rw [takeWhile_append_close rfl, dropWhile_append_close rfl] at hdrop
    rw [if_neg hdigits, hdrop, trimStart_append_close, drop_takeWhile]

theorem leads_count? {s s' : List Char} (h : Shut s s') : Leads Alongside (count? s) (count? s') :=
  carries_count?.leads rfl h

theorem leads_after? {c : Char} {t s s' : List Char} (h : Shut s s') :
    Leads Shut (Text.after? (c :: t) s) (Text.after? (c :: t) s') := by
  rcases h with rfl | ⟨rfl, rfl⟩
  · intro rest hrest rest' hrest'
    rw [after?_append_of_some hrest] at hrest'
    cases hrest'
    exact .append rest
  · exact .none_left _

theorem leads_times? {r r' : Reader} (h : r.Shut r') {s s' : List Char} (hs : Shut s s') :
    Leads Alongside (times? r s) (times? r' s') := by
  unfold times?
  refine (leads_count? (h.skipped hs)).bind_alongside fun least u u' hu => ?_
  dsimp only
  rcases hu.cases with ⟨rfl, -⟩ | ⟨c, t, t', rfl, rfl, ht⟩
  · exact .none_left _
  · by_cases hclose : c = '\x7d'
    · subst hclose
      exact .pure ⟨rfl, ht⟩
    · by_cases hcomma : c = ','
      · subst hcomma
        have hmore := h.skipped ht
        simp only
        generalize r.skipped t = v at hmore ⊢
        generalize r'.skipped t' = v' at hmore ⊢
        rcases hmore.cases with ⟨rfl, -⟩ | ⟨d, w, w', rfl, rfl, hw⟩
        · exact .none_left _
        · by_cases hd : d = '\x7d'
          · subst hd
            exact .pure ⟨rfl, hw⟩
          · simp only [List.cons.injEq, hd, false_and, imp_self, implies_true]
            refine (leads_count? hmore).bind_alongside fun most x x' hx => ?_
            refine (leads_after? hx).bind fun rest rest' hrest => ?_
            dsimp only
            split
            · exact .pure ⟨rfl, hrest⟩
            · exact .none_left _
      · simp only [List.cons.injEq, hclose, hcomma, false_and, imp_self, implies_true]
        exact .none_left _

theorem alongside_preference (f : Flags) {s s' : List Char} (h : Shut s s') :
    Alongside (preference f s) (preference f s') := by
  unfold preference
  rcases h.cases with ⟨rfl, rfl | rfl⟩ | ⟨c, t, t', rfl, rfl, ht⟩
  · exact ⟨rfl, h⟩
  · exact ⟨rfl, h⟩
  · by_cases hc : c = '?'
    · subst hc
      exact ⟨rfl, ht⟩
    · simp only [List.cons.injEq, hc, false_and, imp_self, implies_true]
      exact ⟨rfl, h⟩

theorem isRepetition_eq {s s' : List Char} (h : Shut s s') : isRepetition s' = isRepetition s := by
  rcases h.cases with ⟨rfl, rfl | rfl⟩ | ⟨c, t, t', rfl, rfl, -⟩
  · rfl
  · rfl
  · unfold isRepetition
    split <;> simp_all

theorem optional_bare (body : Node) (greedy : Bool) :
    (body.optional greedy).bare = body.bare.optional greedy := by
  cases greedy <;> rfl

theorem apply_bare (t : Times) (greedy : Bool) (body : Node) :
    (t.apply greedy body).bare = t.apply greedy body.bare := by
  unfold Times.apply
  split
  · exact optional_bare _ _
  · rfl
  · rfl
  · exact optional_bare _ _
  · split <;> rfl

def Twins (x x' : Node × Reader) : Prop := x'.1.bare = x.1.bare ∧ x.2.Shut x'.2

theorem leads_repetition? {r r' : Reader} (h : r.Shut r') {body body' : Node}
    (hbody : body'.bare = body.bare) :
    Leads (Option.Rel Twins) (repetition? r body) (repetition? r' body') := by
  have hsimple (t : Times) {s s' : List Char} (hs : Shut s s') : Twins
      (t.apply (preference r.flags s).1 body, r.at' (preference r.flags s).2)
      (t.apply (preference r'.flags s').1 body', r'.at' (preference r'.flags s').2) := by
    have hpref := alongside_preference r.flags hs
    rw [h.flags]
    refine ⟨?_, h.at' hpref.2⟩
    rw [apply_bare, apply_bare, hbody, hpref.1]
  unfold repetition?
  rcases h.rest.cases with ⟨he, he' | he'⟩ | ⟨c, t, t', he, he', ht⟩
  · simp only [he, he']
    exact .some .none
  · simp only [he, he']
    exact .some .none
  · simp only [he, he']
    split
    case h_4 hc =>
      cases hc
      exact (leads_times? h ht).bind_alongside fun count s s' hs =>
        .some (.some (hsimple count (h.skipped hs)))
    case h_5 h1 h2 h3 h4 =>
      split <;> rename_i hc
      · exact (h1 t (by rw [(List.cons.inj hc).1])).elim
      · exact (h2 t (by rw [(List.cons.inj hc).1])).elim
      · exact (h3 t (by rw [(List.cons.inj hc).1])).elim
      · exact (h4 t (by rw [(List.cons.inj hc).1])).elim
      · exact .some .none
    all_goals
      rename_i hc
      cases hc
      exact .some (.some (hsimple _ ht))

theorem leads_repetitions? (n : Nat) {m : Nat} {r r' : Reader} (h : r.Shut r') {body body' : Node}
    (hbody : body'.bare = body.bare) :
    Leads Twins (repetitions? n r body) (repetitions? m r' body') := by
  induction n generalizing m r r' body body' with
  | zero => exact .none_left _
  | succ n ih =>
    cases m with
    | zero => exact .none_right _
    | succ m =>
      rw [repetitions?, repetitions?]
      refine (leads_repetition? h.skip hbody).bind ?_
      rintro _ _ (⟨⟨hnode, hr⟩⟩ | _)
      · exact ih hr hnode
      · exact .pure ⟨hbody, h.skip⟩

theorem carries_flags? (f : Flags) (value : Bool) (seen : List Char) :
    Carries (flags? f value seen) := by
  intro s a rest h
  fun_induction flags? f value seen s with
  | case1 => simp at h
  | case2 => simp at h
  | case3 f value seen s hseen =>
    cases h
    rw [List.cons_append, flags?, if_neg hseen]
  | case4 => simp at h
  | case5 f value seen s hseen =>
    cases h
    rw [List.cons_append, flags?, if_neg hseen]
  | case6 => simp at h
  | case7 f value seen s hclose hcolon hseen ih =>
    rw [List.cons_append, flags?, if_neg hseen, if_pos rfl]
    · exact ih h
    · exact hclose
    · exact hcolon
  | case8 f value seen c s hclose hcolon hseen hdash ih =>
    obtain ⟨g, hg, h⟩ := Option.bind_eq_some_iff.1 h
    rw [List.cons_append, flags?, if_neg hseen, if_neg hdash, hg]
    · exact ih g h
    · exact hclose
    · exact hcolon

theorem leads_groupName? {r r' : Reader} (h : r.Shut r') {s s' : List Char} (hs : Shut s s') :
    Leads Reader.Shut (groupName? r s) (groupName? r' s') := by
  unfold groupName?
  simp only [drop_takeWhile, h.names]
  rcases hs with rfl | ⟨rfl, rfl⟩
  · by_cases hstop : s.dropWhile (fun c => decide (c ≠ '>')) = []
    · rw [hstop]
      split
      · rename_i hd
        cases hd
      · exact .none_left _
    · rw [takeWhile_of_stop hstop, dropWhile_of_stop hstop]
      generalize s.takeWhile (fun c => decide (c ≠ '>')) = name
      generalize s.dropWhile (fun c => decide (c ≠ '>')) = rest at hstop ⊢
      split
      · simp only [List.cons_append]
        split
        · exact .some ⟨.append _, h.flags, rfl⟩
        · exact .none_left _
      · exact .none_left _
  · exact .none_left _

inductive Opening.Shut : Opening → Opening → Prop
  | flags {r r' : Reader} : r.Shut r' → Shut (.flags r) (.flags r')
  | group {i i' : Option Nat} {r r' : Reader} : r.Shut r' → Shut (.group i r) (.group i' r')

def flagged? (r : Reader) (s : List Char) : Option Opening := do
  match ← flags? r.flags true [] s with
  | (f, ')' :: rest) => return .flags { r with rest, flags := f }
  | (f, _ :: rest) => return .group none { r with rest, flags := f }
  | (_, []) => none

theorem leads_flagged? {r r' : Reader} (h : r.Shut r') {s s' : List Char} (hs : Shut s s') :
    Leads Opening.Shut (flagged? r s) (flagged? r' s') := by
  unfold flagged?
  rw [h.flags]
  refine ((carries_flags? r.flags true []).leads rfl hs).bind_alongside fun f u u' hu => ?_
  rcases hu.cases with ⟨rfl, -⟩ | ⟨c, t, t', rfl, rfl, ht⟩
  · exact .none_left _
  · by_cases hc : c = ')'
    · subst hc
      exact .pure (.flags ⟨ht, rfl, h.names⟩)
    · simp only
      exact .pure (.group ⟨ht, rfl, h.names⟩)

def indexed (r : Reader) : Opening :=
  .group (some (r.groups + 1)) { r with groups := r.groups + 1 }

theorem shut_indexed {r r' : Reader} (h : r.Shut r') : Opening.Shut (indexed r) (indexed r') :=
  .group ⟨h.rest, h.flags, h.names⟩

theorem leads_groupName?_indexed {r r' : Reader} (h : r.Shut r') {s s' : List Char}
    (hs : Shut s s') : Leads Opening.Shut
      ((groupName? r s).map indexed) ((groupName? r' s').map indexed) :=
  (leads_groupName? h hs).map fun _ _ hq => shut_indexed hq

def asked? (r : Reader) (s : List Char) : Option Opening :=
  match s with
  | 'P' :: '<' :: s => (groupName? r s).map indexed
  | '<' :: s =>
    if s.head? = some '=' || s.head? = some '!' then none else (groupName? r s).map indexed
  | ')' :: _ => none
  | s => flagged? r s

theorem opening?_eq (r : Reader) :
    opening? r = match r.skip.rest with
      | '?' :: s => asked? r.skip s
      | _ => some (indexed r.skip) := by
  unfold opening?
  dsimp only
  generalize r.skip = q
  obtain ⟨_ | ⟨c, s⟩, f, groups, names⟩ := q
  · rfl
  · by_cases hc : c = '?'
    · subst hc
      simp only
      split
      case h_4 hname hangle hclose hs =>
        cases hs
        rw [asked?]
        · rfl
        · exact hname
        · exact hangle
        · exact hclose
      case h_5 hother => exact (hother s rfl).elim
      all_goals
        rename_i hs
        cases hs
        rfl
    · simp only [List.cons.injEq, hc, false_and, imp_self, implies_true]
      rfl

theorem leads_asked? {r r' : Reader} (h : r.Shut r') {s s' : List Char} (hs : Shut s s') :
    Leads Opening.Shut (asked? r s) (asked? r' s') := by
  unfold asked?
  rcases hs.cases with ⟨rfl, -⟩ | ⟨c, t, t', rfl, rfl, ht⟩
  · exact .none_left _
  · have hflags := leads_flagged? h hs
    by_cases hangle : c = '<'
    · subst hangle
      simp only
      split
      · exact .none_left _
      · split
        · exact .none_right _
        · exact leads_groupName?_indexed h ht
    · by_cases hclose : c = ')'
      · subst hclose
        exact .none_left _
      · by_cases hp : c = 'P'
        · subst hp
          rcases ht.cases with ⟨rfl, -⟩ | ⟨d, u, u', rfl, rfl, hu⟩
          · exact .none_left _
          · by_cases hd : d = '<'
            · subst hd
              exact leads_groupName?_indexed h hu
            · simp only [List.cons.injEq, hd, hangle, hclose, false_and, and_false, imp_self,
                implies_true]
              exact hflags
        · simp only [List.cons.injEq, hp, hangle, hclose, false_and, imp_self, implies_true]
          exact hflags

theorem leads_opening? {r r' : Reader} (h : r.Shut r') :
    Leads Opening.Shut (opening? r) (opening? r') := by
  rw [opening?_eq, opening?_eq]
  have hskip := h.skip
  have hindexed := shut_indexed hskip
  rcases hskip.rest.cases with ⟨he, he' | he'⟩ | ⟨c, t, t', he, he', ht⟩
  · rw [he, he']
    exact .some hindexed
  · rw [he, he']
    exact .some hindexed
  · rw [he, he']
    by_cases hc : c = '?'
    · subst hc
      exact leads_asked? hskip ht
    · simp only [List.cons.injEq, hc, false_and, imp_self, implies_true]
      exact .some hindexed

theorem join_bare {before before' : Option Node} (h : before'.map Node.bare = before.map Node.bare)
    {node node' : Node} (hnode : node'.bare = node.bare) :
    (join before' node').bare = (join before node).bare := by
  rcases before with _ | b <;> rcases before' with _ | b'
  · exact hnode
  · simp at h
  · simp at h
  · rw [join, join, Node.bare, Node.bare, hnode, Option.some.inj h]

theorem getD_bare {before before' : Option Node}
    (h : before'.map Node.bare = before.map Node.bare) :
    (before'.getD .empty).bare = (before.getD .empty).bare := by
  rcases before with _ | b <;> rcases before' with _ | b'
  · rfl
  · simp at h
  · simp at h
  · exact Option.some.inj h

def AlternativesLead (n : Nat) : Prop :=
  ∀ {m depth depth' : Nat} {r r' : Reader}, r.Shut r' →
    Leads Twins (alternatives? n depth r) (alternatives? m depth' r')

def SequenceLeads (n : Nat) : Prop :=
  ∀ {m depth depth' : Nat} {before before' : Option Node} {r r' : Reader},
    before'.map Node.bare = before.map Node.bare → r.Shut r' →
      Leads Twins (sequence? n depth before r) (sequence? m depth' before' r')

def GroupLeads (n : Nat) : Prop :=
  ∀ {m depth depth' : Nat} {index index' : Option Nat} {r r' : Reader}, r.Shut r' →
    Leads Twins (group? n depth index r) (group? m depth' index' r')

theorem leads_alternatives? {n m depth depth' : Nat} {r r' : Reader}
    (halternatives : AlternativesLead n)
    (hsequence : Leads Twins (sequence? n depth none r) (sequence? m depth' none r')) :
    Leads Twins (alternatives? (n + 1) depth r) (alternatives? (m + 1) depth' r') := by
  rw [alternatives?, alternatives?]
  refine hsequence.bind ?_
  rintro ⟨node, a⟩ ⟨node', a'⟩ ⟨hnode, ha⟩
  dsimp only at ha hnode ⊢
  rcases ha.rest.cases with ⟨he, he' | he'⟩ | ⟨c, t, t', he, he', ht⟩
  · simp only [he, he']
    exact .pure ⟨hnode, ha⟩
  · simp only [he, he']
    exact .pure ⟨hnode, ha⟩
  · by_cases hc : c = '|'
    · subst hc
      simp only [he, he']
      refine (halternatives (ha.at' ht)).bind ?_
      rintro ⟨other, b⟩ ⟨other', b'⟩ ⟨hother, hb⟩
      refine .pure ⟨?_, hb⟩
      dsimp only at hother ⊢
      rw [Node.bare, Node.bare, hnode, hother]
    · simp only [he, he', List.cons.injEq, hc, false_and, imp_self, implies_true]
      exact .pure ⟨hnode, ha⟩

theorem alternativesLead_succ {n : Nat} (hsequence : SequenceLeads n)
    (halternatives : AlternativesLead n) : AlternativesLead (n + 1) := by
  intro m depth depth' r r' h
  cases m with
  | zero => exact .none_right _
  | succ m => exact leads_alternatives? halternatives (hsequence rfl h)

theorem groupLeads_succ {n : Nat} (halternatives : AlternativesLead n) : GroupLeads (n + 1) := by
  intro m depth depth' index index' r r' h
  cases m with
  | zero => exact .none_right _
  | succ m =>
    unfold group?
    by_cases hdeep : depthLimit ≤ depth
    · rw [if_pos hdeep]
      exact .none_left _
    · by_cases hdeep' : depthLimit ≤ depth'
      · rw [if_pos hdeep']
        exact .none_right _
      · rw [if_neg hdeep, if_neg hdeep']
        refine (halternatives h).bind ?_
        rintro ⟨node, a⟩ ⟨node', a'⟩ ⟨hnode, ha⟩
        dsimp only at ha hnode ⊢
        rcases ha.rest.cases with ⟨he, -⟩ | ⟨c, t, t', he, he', ht⟩
        · simp only [he]
          exact .none_left _
        · by_cases hc : c = ')'
          · subst hc
            simp only [he, he']
            refine .pure ⟨?_, ha.at' ht⟩
            cases index <;> cases index' <;> exact hnode
          · simp only [he, he', List.cons.injEq, hc, false_and, imp_self, implies_true]
            exact .none_left _

section Items
variable {n m depth depth' : Nat} {before before' : Option Node}
  (hsequence : SequenceLeads n) (hbefore : before'.map Node.bare = before.map Node.bare)
include hsequence hbefore

theorem leads_item {r r' : Reader} (h : r.Shut r') {node node' : Node}
    (hnode : node'.bare = node.bare) : Leads Twins
      ((repetitions? n r node).bind fun x => sequence? n depth (some (join before x.1)) x.2)
      ((repetitions? m r' node').bind fun x =>
        sequence? m depth' (some (join before' x.1)) x.2) := by
  refine (leads_repetitions? n h hnode).bind ?_
  rintro ⟨x, q⟩ ⟨x', q'⟩ ⟨hx, hq⟩
  exact hsequence (congrArg some (join_bare hbefore hx)) hq

theorem leads_group? (hgroup : GroupLeads n) (f : Flags) {index index' : Option Nat}
    {r r' : Reader} (h : r.Shut r') : Leads Twins
      ((group? n depth index r).bind fun x =>
        (repetitions? n { x.2 with flags := f } x.1).bind fun y =>
          sequence? n depth (some (join before y.1)) y.2)
      ((group? m depth' index' r').bind fun x =>
        (repetitions? m { x.2 with flags := f } x.1).bind fun y =>
          sequence? m depth' (some (join before' y.1)) y.2) := by
  refine (hgroup h).bind ?_
  rintro ⟨node, q⟩ ⟨node', q'⟩ ⟨hnode, hq⟩
  refine leads_item hsequence hbefore ?_ hnode
  exact ⟨hq.rest, rfl, hq.names⟩

end Items

theorem sequenceLeads_succ {n : Nat} (hgroup : GroupLeads n) (hsequence : SequenceLeads n) :
    SequenceLeads (n + 1) := by
  intro m depth depth' before before' r r' hbefore h
  cases m with
  | zero => exact .none_right _
  | succ m =>
    have hend := getD_bare hbefore
    rw [sequence?, sequence?]
    have hskip := h.skip
    dsimp only
    generalize r.skip = a at hskip ⊢
    generalize r'.skip = a' at hskip ⊢
    rcases hskip.rest.cases with ⟨he, he' | he'⟩ | ⟨c, t, t', he, he', ht⟩
    · simp only [he, he']
      exact .some ⟨hend, hskip⟩
    · simp only [he, he']
      exact .some ⟨hend, hskip⟩
    · have hnext := hskip.at' ht
      simp only [he, he', hskip.flags]
      split
      case h_1 hc => cases hc
      case h_2 hc =>
        cases hc
        exact .some ⟨hend, hskip⟩
      case h_3 hc =>
        cases hc
        exact .some ⟨hend, hskip⟩
      case h_4 hc =>
        cases hc
        refine (leads_opening? hnext).bind ?_
        rintro _ _ (hq | hq)
        · dsimp only
          rw [isRepetition_eq hq.skip.rest]
          split
          · exact .none_left _
          · exact hsequence hbefore hq.skip
        · exact leads_group? hsequence hbefore hgroup a.flags hq
      case h_5 hc =>
        cases hc
        exact ((brackets_lead n).1 hnext).bind_tracks fun set b b' hb =>
          leads_item hsequence hbefore hb rfl
      case h_6 hc =>
        cases hc
        exact ((carries_escape? a.flags).leads rfl ht).bind_alongside fun item u u' hu =>
          leads_item hsequence hbefore (hskip.at' hu) rfl
      case h_7 hbar hclose hopen hbracket hback hc =>
        cases hc
        have hrep : isRepetition (c :: t') = isRepetition (c :: t) :=
          isRepetition_eq (by rw [← he, ← he']; exact hskip.rest)
        simp only [hrep]
        split
        · exact .none_left _
        · split
          · exact .bind_same fun node => leads_item hsequence hbefore hnext rfl
          · split
            · exact leads_item hsequence hbefore hnext rfl
            · split
              · exact leads_item hsequence hbefore hnext rfl
              · exact leads_item hsequence hbefore hnext rfl

theorem patterns_lead (n : Nat) : AlternativesLead n ∧ SequenceLeads n ∧ GroupLeads n := by
  induction n with
  | zero => exact ⟨fun _ => .none_left _, fun _ _ => .none_left _, fun _ => .none_left _⟩
  | succ n ih =>
    obtain ⟨halternatives, hsequence, hgroup⟩ := ih
    exact ⟨alternativesLead_succ hsequence halternatives, sequenceLeads_succ hgroup hsequence,
      groupLeads_succ halternatives⟩

theorem parse?_eq_some {s : List Char} {node : Node} (h : Node.parse? s = some node) :
    ∃ q : Reader, alternatives? (4 * s.length + 8) 0 ⟨s, {}, 0, []⟩ = some (node, q) ∧
      q.rest = [] := by
  unfold Node.parse? at h
  obtain ⟨⟨node', q⟩, hread, h⟩ := Option.bind_eq_some_iff.1 h
  dsimp only at h
  split at h
  · rename_i hq
    cases h
    exact ⟨q, hread, List.isEmpty_iff.1 hq⟩
  · cases h

theorem isRepetition_of_flags {s : List Char} {fuel depth : Nat} {x : Node × Reader}
    (h : sequence? fuel depth none ⟨"(?s)".toList ++ s, {}, 0, []⟩ = some x) :
    isRepetition s = false := by
  cases fuel with
  | zero => simp [sequence?] at h
  | succ fuel =>
    let r : Reader := ⟨"(?s)".toList ++ s, {}, 0, []⟩
    have hr : r.skip.rest = '(' :: '?' :: 's' :: ')' :: s := rfl
    have ho : opening? (r.skip.at' ('?' :: 's' :: ')' :: s)) = some (.flags (reading s 0)) := rfl
    have hs : (reading s 0).skip.rest = s := rfl
    rw [sequence?_opening fuel depth none hr, ho, Option.bind_some] at h
    simp only [hs] at h
    split at h
    · cases h
    · rename_i hrep
      exact Bool.eq_false_iff.2 hrep

theorem skip_of_plain {r : Reader} (h : r.flags.spaced = false) : r.skip = r := by
  unfold Reader.skip Reader.skipped
  rw [h]
  rfl

section End
variable {r : Reader} (h : r.rest = []) (hplain : r.flags.spaced = false)
include h hplain

theorem repetitions?_end (fuel : Nat) (node : Node) :
    repetitions? (fuel + 1) r node = some (node, r) := by
  have hnone : repetition? r node = some none := by
    unfold repetition?
    rw [h]
  rw [repetitions?]
  simp only [skip_of_plain hplain, hnone]
  rfl

theorem sequence?_end (fuel depth : Nat) (before : Option Node) :
    sequence? (fuel + 1) depth before r = some (before.getD .empty, r) := by
  rw [sequence?]
  simp only [skip_of_plain hplain, h]

end End

theorem group?_eq_some {fuel depth index : Nat} {r q : Reader} {node : Node}
    (h : group? fuel depth (some index) r = some (node, q)) :
    ∃ fuel' body b, alternatives? fuel' (depth + 1) r = some (body, b) ∧
      b.rest = ')' :: q.rest ∧ node = .group index body := by
  cases fuel with
  | zero => simp [group?] at h
  | succ fuel =>
    rw [group?] at h
    split at h
    · cases h
    · obtain ⟨⟨body, b⟩, hbody, h⟩ := Option.bind_eq_some_iff.1 h
      dsimp only at h
      split at h
      · rename_i hb
        cases h
        exact ⟨fuel, body, b, hbody, hb, rfl⟩
      · cases h

theorem parse?_enclosed {s : List Char} {n n' : Node}
    (hown : Node.parse? ("(?s)".toList ++ s) = some n)
    (hgroup : Node.parse? ("(?s)".toList ++ ('(' :: s ++ [')'])) = some n') :
    ∃ body, n' = .group 1 body ∧ body.bare = n.bare := by
  obtain ⟨q, hread, hq⟩ := parse?_eq_some hown
  obtain ⟨q', hread', hq'⟩ := parse?_eq_some hgroup
  have hrep : isRepetition s = false := by
    rw [alternatives?] at hread
    obtain ⟨x, hx, -⟩ := Option.bind_eq_some_iff.1 hread
    exact isRepetition_of_flags hx
  have hne : (s ++ [')']).head? ≠ some '?' := by
    rcases s with _ | ⟨c, s⟩
    · decide
    · rintro hc
      cases hc
      cases hrep
  have hshut : (reading s 0).Shut (reading (s ++ [')']) 1) := ⟨.append s, rfl, rfl⟩
  rw [alternatives?] at hread'
  obtain ⟨⟨node, a⟩, hseq, hend⟩ := Option.bind_eq_some_iff.1 hread'
  rw [sequence?_flags rfl, sequence?_opening (s := s ++ [')']) _ _ _ rfl,
    show (reading ('(' :: s ++ [')']) 0).skip.at' (s ++ [')']) = reading (s ++ [')']) 0 from rfl,
    opening?_of_ne hne, Option.bind_some] at hseq
  obtain ⟨⟨g, b⟩, hg, hseq⟩ := Option.bind_eq_some_iff.1 hseq
  obtain ⟨fuel, body, b', hbody, hb', rfl⟩ := group?_eq_some hg
  have hlead : Leads Twins (some (n, q)) (some (body, b')) := by
    rw [← hread, ← hbody]
    cases fuel with
    | zero => exact .none_right _
    | succ fuel =>
      refine leads_alternatives? (patterns_lead _).1 ?_
      rw [sequence?_flags hrep]
      exact (patterns_lead _).2.1 rfl hshut
  obtain ⟨hbare, hrest⟩ := hlead _ rfl _ rfl
  have hb : b.rest = [] := by
    have hrest := hrest.rest
    dsimp only at hrest
    rw [hq, hb'] at hrest
    rcases hrest with hrest | hrest
    · exact (List.cons.inj hrest).2
    · cases hrest.2
  let r : Reader := { b with flags := (reading ('(' :: s ++ [')']) 0).skip.flags }
  have hr : r.rest = [] := hb
  dsimp only at hseq
  rw [repetitions?_end hr rfl, Option.bind_some, sequence?_end hr rfl] at hseq
  obtain ⟨rfl, ha⟩ := Prod.mk.inj (Option.some.inj hseq)
  simp only [← ha, hr] at hend
  exact ⟨body, (Prod.mk.inj (Option.some.inj hend)).1.symm, hbare⟩

end Patchboard.Pattern
