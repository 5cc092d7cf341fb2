import Mathlib.Data.List.Chain
import Mathlib.Data.List.TakeWhile
import Patchboard.Search

set_option autoImplicit false

/-!
Texts up to the width of their gaps. To collapse a text is to put one blank in the place of every
run of blanks and tabs. A collapsed text stands in another one exactly where some region of that
text collapses to it, and of the regions that start at one place the widest is taken.
-/

namespace Patchboard.Search

def collapseFrom (inGap : Bool) : List Char → List Char
  | [] => []
  | c :: s =>
    if isGap c then (if inGap then [] else [' ']) ++ collapseFrom true s
    else c :: collapseFrom false s

/-- One blank in the place of every run of blanks and tabs. -/
def collapse (s : List Char) : List Char := collapseFrom false s

def StartsBare (s : List Char) : Prop := ∀ c ∈ s.head?, isGap c = false

/-- A text does not end in a gap. -/
def EndsBare (s : List Char) : Prop := ∀ c ∈ s.getLast?, isGap c = false

theorem ne_blank {c : Char} (h : isGap c = false) : c ≠ ' ' := by
  rintro rfl
  simp [isGap] at h

theorem collapseFrom_gap {c : Char} (h : isGap c = true) (inGap : Bool) (s : List Char) :
    collapseFrom inGap (c :: s) = (if inGap then [] else [' ']) ++ collapseFrom true s := by
  rw [collapseFrom, if_pos h]

theorem collapseFrom_of_not {c : Char} (h : isGap c = false) (inGap : Bool) (s : List Char) :
    collapseFrom inGap (c :: s) = c :: collapse s := by
  rw [collapseFrom, if_neg (by simp [h])]
  rfl

theorem collapse_gap {c : Char} (h : isGap c = true) (s : List Char) :
    collapse (c :: s) = ' ' :: collapseFrom true s := collapseFrom_gap h false s

theorem collapse_of_not {c : Char} (h : isGap c = false) (s : List Char) :
    collapse (c :: s) = c :: collapse s := collapseFrom_of_not h false s

theorem startsBare_dropWhile (s : List Char) : StartsBare (s.dropWhile isGap) := by
  intro c hc
  have hhead := List.head?_dropWhile_not isGap s
  rw [hc] at hhead
  simpa using hhead

theorem dropWhile_of_startsBare {s : List Char} (h : StartsBare s) : s.dropWhile isGap = s := by
  cases s with
  | nil => rfl
  | cons c s => exact List.dropWhile_cons_of_neg (by simp [h c rfl])

theorem takeWhile_of_startsBare {s : List Char} (h : StartsBare s) : s.takeWhile isGap = [] := by
  cases s with
  | nil => rfl
  | cons c s => exact List.takeWhile_cons_of_neg (by simp [h c rfl])

theorem startsBare_of_takeWhile {s : List Char} (h : s.takeWhile isGap = []) : StartsBare s := by
  have hs := startsBare_dropWhile s
  rwa [← List.nil_append (s.dropWhile isGap), ← h, List.takeWhile_append_dropWhile] at hs

theorem gap_append (w v : List Char) :
    (w ++ v).takeWhile isGap = w.takeWhile isGap ++ (w.dropWhile isGap ++ v).takeWhile isGap ∧
      (w ++ v).dropWhile isGap = (w.dropWhile isGap ++ v).dropWhile isGap := by
  have hgaps : ∀ c ∈ w.takeWhile isGap, isGap c = true := fun c hc => List.mem_takeWhile_imp hc
  have hsplit : w ++ v = w.takeWhile isGap ++ (w.dropWhile isGap ++ v) := by
    rw [← List.append_assoc, List.takeWhile_append_dropWhile]
  constructor
  · rw [hsplit, List.takeWhile_append_of_pos hgaps]
  · rw [hsplit, List.dropWhile_append_of_pos hgaps]

theorem collapseFrom_true (s : List Char) : collapseFrom true s = collapse (s.dropWhile isGap) := by
  induction s with
  | nil => rfl
  | cons c s ih =>
    cases h : isGap c with
    | true =>
      rw [collapseFrom_gap h, List.dropWhile_cons_of_pos h, ih]
      rfl
    | false =>
      rw [collapseFrom_of_not h, List.dropWhile_cons_of_neg (by simp [h]), collapse_of_not h]

theorem collapse_widened {c : Char} (hc : isGap c = true) {s : List Char} (hs : ¬ StartsBare s) :
    collapse (c :: s) = collapse s := by
  cases s with
  | nil => exact absurd (by simp [StartsBare]) hs
  | cons d s =>
    have hd : isGap d = true := by simpa [StartsBare] using hs
    rw [collapse_gap hc, collapse_gap hd, collapseFrom_gap hd]
    rfl

theorem startsBare_iff {t : List Char} : StartsBare t ↔ (collapse t).head? ≠ some ' ' := by
  cases t with
  | nil => simp [StartsBare, collapse, collapseFrom]
  | cons c t =>
    cases hc : isGap c with
    | true =>
      rw [collapse_gap hc]
      simp [StartsBare, hc]
    | false =>
      have hblank := ne_blank hc
      rw [collapse_of_not hc]
      simp [StartsBare, hc, hblank]

theorem collapse_run {run s : List Char} (hne : run ≠ []) (hrun : ∀ c ∈ run, isGap c = true)
    (hs : StartsBare s) : collapse (run ++ s) = ' ' :: collapse s := by
  obtain ⟨c, run, rfl⟩ := List.exists_cons_of_ne_nil hne
  rw [List.forall_mem_cons] at hrun
  rw [List.cons_append, collapse_gap hrun.1, collapseFrom_true,
    List.dropWhile_append_of_pos hrun.2, dropWhile_of_startsBare hs]

theorem collapse_eq_nil {w : List Char} (h : collapse w = []) : w = [] := by
  cases w with
  | nil => rfl
  | cons c w =>
    cases hc : isGap c with
    | true => simp [collapse_gap hc] at h
    | false => simp [collapse_of_not hc] at h

theorem collapse_eq_blank_cons {w u : List Char} (h : collapse w = ' ' :: u) :
    w.takeWhile isGap ≠ [] ∧ collapse (w.dropWhile isGap) = u := by
  cases w with
  | nil => simp [collapse, collapseFrom] at h
  | cons c w =>
    cases hc : isGap c with
    | true =>
      rw [collapse_gap hc, List.cons.injEq, collapseFrom_true] at h
      rw [List.takeWhile_cons_of_pos hc, List.dropWhile_cons_of_pos hc]
      exact ⟨List.cons_ne_nil _ _, h.2⟩
    | false =>
      rw [collapse_of_not hc, List.cons.injEq] at h
      rw [h.1] at hc
      simp [isGap] at hc

theorem collapse_eq_cons {w u : List Char} {c : Char} (hc : c ≠ ' ') (h : collapse w = c :: u) :
    ∃ w', w = c :: w' ∧ collapse w' = u := by
  cases w with
  | nil => simp [collapse, collapseFrom] at h
  | cons d w =>
    cases hd : isGap d with
    | true =>
      rw [collapse_gap hd, List.cons.injEq] at h
      exact absurd h.1.symm hc
    | false =>
      rw [collapse_of_not hd, List.cons.injEq] at h
      obtain ⟨rfl, hu⟩ := h
      exact ⟨w, rfl, hu⟩

structure IsNarrow (u : List Char) : Prop where
  blank : ∀ c ∈ u, isGap c = true → c = ' '
  single : u.IsChain fun c d => c = ' ' → d ≠ ' '

theorem IsNarrow.tail {c : Char} {u : List Char} (h : IsNarrow (c :: u)) : IsNarrow u :=
  ⟨fun d hd => h.blank d (List.mem_cons_of_mem c hd), (List.isChain_cons.1 h.single).2⟩

theorem IsNarrow.head {u : List Char} (h : IsNarrow (' ' :: u)) : u.head? ≠ some ' ' :=
  fun he => (List.isChain_cons.1 h.single).1 ' ' he rfl rfl

theorem isNarrow_collapseFrom (inGap : Bool) (s : List Char) :
    IsNarrow (collapseFrom inGap s) ∧
      (inGap = true → (collapseFrom inGap s).head? ≠ some ' ') := by
  induction s generalizing inGap with
  | nil => exact ⟨⟨by simp [collapseFrom], .nil⟩, by simp [collapseFrom]⟩
  | cons c s ih =>
    cases hc : isGap c with
    | true =>
      obtain ⟨hn, hd⟩ := ih true
      rw [collapseFrom_gap hc]
      cases inGap with
      | true => exact ⟨hn, fun _ => hd rfl⟩
      | false =>
        refine ⟨⟨?_, ?_⟩, by simp⟩
        · intro d hm hg
          rcases List.mem_cons.1 hm with rfl | hm
          · rfl
          · exact hn.blank d hm hg
        · refine List.isChain_cons.2 ⟨fun d hm _ he => hd rfl ?_, hn.single⟩
          rw [← he]
          exact hm
    | false =>
      obtain ⟨hn, -⟩ := ih false
      have hblank := ne_blank hc
      rw [collapseFrom_of_not hc]
      refine ⟨⟨?_, ?_⟩, fun _ => by simpa using hblank⟩
      · intro d hm hg
        rcases List.mem_cons.1 hm with rfl | hm
        · simp [hc] at hg
        · exact hn.blank d hm hg
      · exact List.isChain_cons.2 ⟨fun d _ he => absurd he hblank, hn.single⟩

theorem isNarrow_collapse (s : List Char) : IsNarrow (collapse s) :=
  (isNarrow_collapseFrom false s).1

theorem prefix_collapseFrom_append (inGap : Bool) (w v : List Char) :
    collapseFrom inGap w <+: collapseFrom inGap (w ++ v) := by
  induction w generalizing inGap with
  | nil => exact List.nil_prefix
  | cons c w ih =>
    rw [List.cons_append]
    cases hc : isGap c with
    | true =>
      rw [collapseFrom_gap hc, collapseFrom_gap hc, List.prefix_append_right_inj]
      exact ih true
    | false =>
      rw [collapseFrom_of_not hc, collapseFrom_of_not hc, List.prefix_cons_inj]
      exact ih false

theorem suffix_collapseFrom_append (inGap : Bool) (u w : List Char) :
    collapse w <:+ (if inGap then [' '] else []) ++ collapseFrom inGap (u ++ w) := by
  induction u generalizing inGap with
  | nil =>
    cases inGap with
    | false => exact List.suffix_refl _
    | true =>
      cases w with
      | nil => exact List.nil_suffix
      | cons c w =>
        rw [List.nil_append]
        cases hc : isGap c with
        | true =>
          rw [collapse_gap hc, collapseFrom_gap hc]
          exact List.suffix_refl _
        | false =>
          rw [collapse_of_not hc, collapseFrom_of_not hc]
          exact List.suffix_append _ _
  | cons c u ih =>
    rw [List.cons_append]
    cases hc : isGap c with
    | true =>
      have hgap : (if inGap then [' '] else []) ++ collapseFrom inGap (c :: (u ++ w)) =
          [' '] ++ collapseFrom true (u ++ w) := by
        rw [collapseFrom_gap hc]
        cases inGap <;> rfl
      rw [hgap]
      exact ih true
    | false =>
      rw [collapseFrom_of_not hc]
      exact ((ih false).trans (List.suffix_cons c _)).trans (List.suffix_append _ _)

theorem exists_of_collapseFrom_eq_append {inGap : Bool} {h x u : List Char}
    (he : collapseFrom inGap h = x ++ u) :
    ∃ a b, h = a ++ b ∧ collapseFrom inGap a = x ∧ collapse b = u := by
  induction h generalizing inGap x with
  | nil =>
    obtain ⟨rfl, rfl⟩ := List.append_eq_nil_iff.1 he.symm
    exact ⟨[], [], rfl, rfl, rfl⟩
  | cons c h ih =>
    cases hc : isGap c with
    | true =>
      rw [collapseFrom_gap hc] at he
      cases inGap with
      | true =>
        obtain ⟨a, b, rfl, hx, hu⟩ := ih he
        exact ⟨c :: a, b, rfl, by rw [collapseFrom_gap hc]; exact hx, hu⟩
      | false =>
        cases x with
        | nil => exact ⟨[], c :: h, rfl, rfl, by rw [collapse_gap hc]; exact he⟩
        | cons d x =>
          obtain ⟨rfl, hrest⟩ := List.cons.inj he
          obtain ⟨a, b, rfl, hx, hu⟩ := ih hrest
          exact ⟨c :: a, b, rfl, by rw [collapseFrom_gap hc, hx]; rfl, hu⟩
    | false =>
      rw [collapseFrom_of_not hc] at he
      cases x with
      | nil => exact ⟨[], c :: h, rfl, rfl, by rw [collapse_of_not hc]; exact he⟩
      | cons d x =>
        obtain ⟨rfl, hrest⟩ := List.cons.inj he
        obtain ⟨a, b, rfl, hx, hu⟩ := ih hrest
        exact ⟨c :: a, b, rfl, by rw [collapseFrom_of_not hc]; exact congrArg _ hx, hu⟩

theorem infix_collapse_iff {t h : List Char} : collapse t <:+: collapse h ↔
    ∃ before region after, h = before ++ region ++ after ∧ collapse region = collapse t := by
  constructor
  · rintro ⟨x, y, hxy⟩
    rw [List.append_assoc] at hxy
    obtain ⟨before, rest, hh, -, hrest⟩ := exists_of_collapseFrom_eq_append hxy.symm
    obtain ⟨region, after, hr, hregion, -⟩ := exists_of_collapseFrom_eq_append hrest
    exact ⟨before, region, after, by rw [hh, hr, List.append_assoc], hregion⟩
  · rintro ⟨before, region, after, rfl, hregion⟩
    have hsuffix : collapse region <:+ collapse (before ++ region) :=
      suffix_collapseFrom_append false before region
    rw [← hregion]
    exact hsuffix.isInfix.trans (prefix_collapseFrom_append false _ after).isInfix

theorem endsBare_iff {t : List Char} : EndsBare t ↔ (collapse t).getLast? ≠ some ' ' := by
  rcases List.eq_nil_or_concat t with rfl | ⟨t, c, rfl⟩
  · simp [EndsBare, collapse, collapseFrom]
  · rw [List.concat_eq_append]
    obtain ⟨u, hu⟩ : collapse [c] <:+ collapse (t ++ [c]) := suffix_collapseFrom_append false t [c]
    rw [EndsBare, List.getLast?_concat, ← hu]
    cases hc : isGap c with
    | true =>
      rw [collapse_gap hc]
      simp [collapseFrom, hc]
    | false =>
      have hblank := ne_blank hc
      rw [collapse_of_not hc]
      simp [collapse, collapseFrom, hc, hblank]

def region? : List Char → List Char → Option (List Char)
  | [], _ => some []
  | c :: u, s =>
    if c = ' ' then
      if (s.takeWhile isGap).isEmpty then none
      else (region? u (s.dropWhile isGap)).map (s.takeWhile isGap ++ ·)
    else if s.head? = some c then (region? u s.tail).map (c :: ·)
    else none

/-- Behind a region that ends in a gap the gap does not go on. -/
def EndsWhole (u after : List Char) : Prop := u.getLast? = some ' ' → StartsBare after

theorem region?_bare {s : List Char} (hs : StartsBare s) (u : List Char) :
    region? (' ' :: u) s = none := by
  rw [region?, if_pos rfl, takeWhile_of_startsBare hs]
  rfl

theorem region?_gap {s : List Char} (hs : s.takeWhile isGap ≠ []) (u : List Char) :
    region? (' ' :: u) s =
      (region? u (s.dropWhile isGap)).map (s.takeWhile isGap ++ ·) := by
  rw [region?, if_pos rfl, if_neg (by simpa using hs)]

theorem region?_cons {c : Char} (hc : c ≠ ' ') (u s : List Char) :
    region? (c :: u) (c :: s) = (region? u s).map (c :: ·) := by
  rw [region?, if_neg hc, if_pos List.head?_cons, List.tail_cons]

theorem region?_ne {c : Char} (hc : c ≠ ' ') {s : List Char} (hs : s.head? ≠ some c)
    (u : List Char) : region? (c :: u) s = none := by
  rw [region?, if_neg hc, if_neg hs]

theorem endsWhole_cons {c : Char} {u after : List Char} (h : EndsWhole u after)
    (hnil : u = [] → c = ' ' → StartsBare after) : EndsWhole (c :: u) after := by
  intro hlast
  cases u with
  | nil => exact hnil rfl (by simpa using hlast)
  | cons d u => exact h (by simpa using hlast)

theorem EndsWhole.tail {c : Char} {u after : List Char} (h : EndsWhole (c :: u) after)
    (hne : u ≠ []) : EndsWhole u after :=
  fun hlast => h (by rw [List.getLast?_cons_of_ne_nil hne, hlast])

theorem collapse_of_region? {u s w : List Char} (hu : ∀ c ∈ u, isGap c = true → c = ' ')
    (h : region? u s = some w) : ∃ v, s = w ++ v ∧ collapse w = u ∧ EndsWhole u v := by
  induction u generalizing s w with
  | nil =>
    cases h
    exact ⟨s, rfl, rfl, by simp [EndsWhole]⟩
  | cons c u ih =>
    rw [List.forall_mem_cons] at hu
    by_cases hc : c = ' '
    · subst hc
      by_cases hrun : s.takeWhile isGap = []
      · rw [region?_bare (startsBare_of_takeWhile hrun)] at h
        cases h
      rw [region?_gap hrun] at h
      obtain ⟨w, hw, rfl⟩ := Option.map_eq_some_iff.1 h
      obtain ⟨v, hv, hcollapse, hwhole⟩ := ih hu.2 hw
      have hbare := startsBare_dropWhile s
      have hstart : StartsBare w := fun d hd => hbare d (by
        rw [hv, List.head?_append, Option.mem_def.1 hd]
        rfl)
      refine ⟨v, ?_, ?_, endsWhole_cons hwhole fun hnil _ => ?_⟩
      · rw [List.append_assoc, ← hv, List.takeWhile_append_dropWhile]
      · rw [collapse_run hrun (fun d hd => List.mem_takeWhile_imp hd) hstart, hcollapse]
      · rw [collapse_eq_nil (hcollapse.trans hnil), List.nil_append] at hv
        rwa [← hv]
    · by_cases hhead : s.head? = some c
      · obtain ⟨s, rfl⟩ : ∃ t, s = c :: t := ⟨_, List.eq_cons_of_mem_head? hhead⟩
        rw [region?_cons hc] at h
        obtain ⟨w, hw, rfl⟩ := Option.map_eq_some_iff.1 h
        obtain ⟨v, rfl, hcollapse, hwhole⟩ := ih hu.2 hw
        have hgap : isGap c = false := Bool.eq_false_iff.2 fun hg => hc (hu.1 hg)
        exact ⟨v, rfl, by rw [collapse_of_not hgap, hcollapse],
          endsWhole_cons hwhole fun _ he => absurd he hc⟩
      · rw [region?_ne hc hhead] at h
        cases h

theorem exists_region? {u s w v : List Char} (hs : s = w ++ v) (hw : collapse w = u) :
    ∃ w', region? u s = some w' ∧ (EndsWhole u v → w' = w) := by
  subst hs
  induction u generalizing w with
  | nil => exact ⟨[], rfl, fun _ => (collapse_eq_nil hw).symm⟩
  | cons c u ih =>
    by_cases hc : c = ' '
    · subst hc
      obtain ⟨hrun, hrest⟩ := collapse_eq_blank_cons hw
      obtain ⟨htake, hdrop⟩ := gap_append w v
      rw [region?_gap (by simp [htake, hrun]), htake, hdrop]
      by_cases hend : w.dropWhile isGap = []
      · -- the region is a gap, which may go on behind it
        rw [hend] at hrest ⊢
        obtain rfl : u = [] := hrest.symm
        refine ⟨_, rfl, fun hwhole => ?_⟩
        have hall := List.takeWhile_append_dropWhile (p := isGap) (l := w)
        rw [hend] at hall
        rw [List.nil_append, takeWhile_of_startsBare (hwhole rfl), List.append_nil]
        exact hall
      · have hbare : StartsBare (w.dropWhile isGap ++ v) := fun d hd => by
          rw [List.head?_append_of_ne_nil _ hend] at hd
          exact startsBare_dropWhile w d hd
        obtain ⟨w', hfound, hsame⟩ := ih hrest
        have hne : u ≠ [] := fun hnil => hend (collapse_eq_nil (hrest.trans hnil))
        rw [takeWhile_of_startsBare hbare, dropWhile_of_startsBare hbare, hfound]
        refine ⟨_, rfl, fun hwhole => ?_⟩
        rw [hsame (hwhole.tail hne), List.append_nil]
        exact List.takeWhile_append_dropWhile
    · obtain ⟨w, rfl, hrest⟩ := collapse_eq_cons hc hw
      obtain ⟨w', hfound, hsame⟩ := ih hrest
      rw [List.cons_append, region?_cons hc, hfound]
      refine ⟨_, rfl, fun hwhole => ?_⟩
      cases u with
      | nil =>
        rw [collapse_eq_nil hrest] at hsame ⊢
        rw [hsame (by simp [EndsWhole])]
      | cons d u => rw [hsame (hwhole.tail (List.cons_ne_nil d u))]

/-- The first region of a text that is the same as `t` up to the width of gaps. A gap at one of its
ends is taken whole. -/
structure LooseOccurrence (t h before region after : List Char) : Prop where
  whole : h = before ++ region ++ after
  same : collapse region = collapse t
  first : ∀ u w v, h = u ++ w ++ v → collapse w = collapse t → before.length ≤ u.length
  startsWhole : ¬ StartsBare t → EndsBare before
  endsWhole : ¬ EndsBare t → StartsBare after

variable {t h before region after : List Char}

theorem endsBare_of_first (hwhole : h = before ++ region ++ after)
    (hsame : collapse region = collapse t)
    (hfirst : ∀ u w v, h = u ++ w ++ v → collapse w = collapse t → before.length ≤ u.length)
    (ht : ¬ StartsBare t) : EndsBare before := by
  rcases List.eq_nil_or_concat before with rfl | ⟨earlier, c, rfl⟩
  · simp [EndsBare]
  · rw [List.concat_eq_append] at hwhole hfirst ⊢
    cases hc : isGap c with
    | false => simp [EndsBare, hc]
    | true =>
      have hregion : ¬ StartsBare region := by rwa [startsBare_iff, hsame, ← startsBare_iff]
      have hle := hfirst earlier (c :: region) after (by simp [hwhole])
        (by rw [collapse_widened hc hregion, hsame])
      rw [List.length_append, List.length_singleton] at hle
      omega

theorem looseOccurrence_of_region? {u v : List Char} (hh : h = u ++ v)
    (hregion : region? (collapse t) v = some region)
    (hfirst : ∀ u' w v', h = u' ++ w ++ v' → collapse w = collapse t → u.length ≤ u'.length) :
    ∃ after, v = region ++ after ∧ LooseOccurrence t h u region after := by
  obtain ⟨after, hv, hsame, hends⟩ := collapse_of_region? (isNarrow_collapse t).blank hregion
  have hwhole : h = u ++ region ++ after := by rw [hh, hv, List.append_assoc]
  refine ⟨after, hv, hwhole, hsame, hfirst, endsBare_of_first hwhole hsame hfirst, fun ht => ?_⟩
  exact hends (by simpa [endsBare_iff] using ht)

theorem LooseOccurrence.unique {before' region' after' : List Char}
    (o : LooseOccurrence t h before region after)
    (o' : LooseOccurrence t h before' region' after') :
    before = before' ∧ region = region' ∧ after = after' := by
  have hlength : before.length = before'.length :=
    Nat.le_antisymm (o.first _ _ _ o'.whole o'.same) (o'.first _ _ _ o.whole o.same)
  have hsplit := o.whole.symm.trans o'.whole
  rw [List.append_assoc, List.append_assoc] at hsplit
  obtain ⟨hbefore, hrest⟩ := List.append_inj hsplit hlength
  have hends : EndsWhole (collapse t) after := fun hlast =>
    o.endsWhole fun ht => endsBare_iff.1 ht hlast
  have hends' : EndsWhole (collapse t) after' := fun hlast =>
    o'.endsWhole fun ht => endsBare_iff.1 ht hlast
  obtain ⟨w, hw, hsame⟩ := exists_region? rfl o.same
  obtain ⟨w', hw', hsame'⟩ := exists_region? rfl o'.same
  rw [hrest, hw', Option.some.injEq] at hw
  have hregion : region = region' := by rw [← hsame hends, ← hsame' hends', hw]
  rw [hregion] at hrest
  exact ⟨hbefore, hregion, List.append_cancel_left hrest⟩

end Patchboard.Search
