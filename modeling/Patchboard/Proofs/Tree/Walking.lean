import Patchboard.Proofs.Tree.Framing

set_option autoImplicit false

namespace Patchboard.Tree
open Path
variable {t t' : Tree} {p : Path} {place goal : Place} {segments : List (List Char)}

theorem forall_steps_cons {first : List Char} {rest : List (List Char)}
    {P : List (List Char) → List Char → Prop} :
    (∀ before s, before ++ [s] <+: first :: rest → P before s) ↔
      P [] first ∧ ∀ before s, before ++ [s] <+: rest → P (first :: before) s := by
  constructor
  · intro h
    exact ⟨h [] first (by simp), fun before s hb =>
      h (first :: before) s (List.cons_prefix_cons.2 ⟨rfl, hb⟩)⟩
  · rintro ⟨h, hrest⟩ (_ | ⟨x, before⟩) s hb
    · obtain ⟨rfl, -⟩ := List.cons_prefix_cons.1 hb
      exact h
    · rw [List.cons_append] at hb
      obtain ⟨rfl, hb'⟩ := List.cons_prefix_cons.1 hb
      exact hrest before s hb'

theorem walk_eq_ok : t.walk place segments = .ok goal ↔ goal = segments.foldl stepInto place ∧
    ∀ before s, before ++ [s] <+: segments →
      (∃ mode, t.at? (before.foldl stepInto place) = some (.directory mode)) ∧
        (String.ofList s).utf8ByteSize ≤ nameLimit := by
  induction segments generalizing place with
  | nil =>
    rw [walk, Except.ok.injEq]
    constructor
    · rintro rfl
      refine ⟨rfl, fun before s hb => ?_⟩
      have hlength := hb.length_le
      simp at hlength
    · exact fun h => h.1.symm
  | cons first rest ih =>
    rw [walk, forall_steps_cons, List.foldl_cons, List.foldl_nil]
    simp only [List.foldl_cons]
    cases ha : t.at? place with
    | none => simp
    | some entry =>
      cases entry with
      | file contents mode => simp
      | directory mode =>
        dsimp only
        split
        · rename_i hlong
          simp [Nat.not_le.2 hlong]
        · rename_i hshort
          simp [ih, Nat.not_lt.1 hshort]

theorem mem_way_of_start {before : List (List Char)} (hb : before <+: route p) :
    before.foldl stepInto (t.origin p) ∈ t.way p :=
  mem_way_of_route (List.nil_append _) hb

theorem exists_route_of_steps {steps : List (List Char)} {s : List Char}
    (hs : steps ++ [s] <+: p.steps) : ∃ before piece, before ++ [piece] <+: route p ∧
      before.foldl stepInto (t.origin p) = steps.foldl stepInto (t.origin p) := by
  have hprefix := (List.prefix_append steps [s]).trans hs
  rw [← filter_route, List.prefix_filter_iff] at hprefix
  obtain ⟨before, ⟨_ | ⟨piece, rest⟩, hrest⟩, rfl⟩ := hprefix
  · rw [List.append_nil] at hrest
    rw [hrest, filter_route] at hs
    have hlength := hs.length_le
    rw [List.length_append, List.length_singleton] at hlength
    omega
  · exact ⟨before, piece, ⟨rest, by rw [List.append_assoc]; exact hrest⟩, foldl_stepInto ..⟩

theorem exists_step_of_dropLast {steps all : List (List Char)} (hne : all ≠ [])
    (hs : steps <+: all.dropLast) : ∃ s, steps ++ [s] <+: all := by
  obtain ⟨rest, hrest⟩ := hs
  have hsplit := List.dropLast_append_getLast hne
  rw [← hrest, List.append_assoc] at hsplit
  obtain ⟨s, more, hmore⟩ := List.exists_cons_of_ne_nil
    (show rest ++ [all.getLast hne] ≠ [] by simp)
  exact ⟨s, more, by rw [← hsplit, hmore, List.append_assoc, List.singleton_append]⟩

theorem size_of_isIdle {s : List Char} (hs : isIdle s = true) :
    (String.ofList s).utf8ByteSize ≤ nameLimit := by
  unfold isIdle at hs
  rw [Bool.or_eq_true, List.isEmpty_iff, decide_eq_true_eq] at hs
  rcases hs with rfl | rfl <;> decide

section
variable (hw : t.walk (t.origin p) (route p) = .ok place)
include hw

theorem directory_of_steps {steps : List (List Char)} {s : List Char}
    (hs : steps ++ [s] <+: p.steps) :
    ∃ mode, t.at? (steps.foldl stepInto (t.origin p)) = some (.directory mode) := by
  obtain ⟨before, piece, hbefore, hplace⟩ := exists_route_of_steps (t := t) hs
  rw [← hplace]
  exact ((walk_eq_ok.1 hw).2 before piece hbefore).1

theorem size_of_mem_steps {s : List Char} (hs : s ∈ p.steps) :
    (String.ofList s).utf8ByteSize ≤ nameLimit := by
  rw [← filter_route] at hs
  obtain ⟨before, rest, hroute⟩ := List.append_of_mem (List.mem_filter.1 hs).1
  exact ((walk_eq_ok.1 hw).2 before s ⟨rest, by rw [hroute]; simp⟩).2

theorem walk_parent {parent : Path} (hparent : p.parent? = some parent) (hne : p.steps ≠ []) :
    t.walk (t.origin parent) (route parent) = .ok (t.lexicalPlace parent) ∧
      ∃ mode, t.at? (t.lexicalPlace parent) = some (.directory mode) := by
  obtain ⟨habsolute, hsteps⟩ := parent?_eq_some hparent
  have horigin : t.origin parent = t.origin p := by rw [origin, origin, habsolute]
  have hover (steps : List (List Char)) (hs : steps <+: parent.steps) :
      ∃ mode, t.at? (steps.foldl stepInto (t.origin p)) = some (.directory mode) := by
    rw [hsteps] at hs
    obtain ⟨s, hpre⟩ := exists_step_of_dropLast hne hs
    exact directory_of_steps hw hpre
  constructor
  · refine walk_eq_ok.2 ⟨rfl, fun before s hb => ⟨?_, ?_⟩⟩
    · rw [horigin, foldl_stepInto]
      refine hover _ ?_
      rw [← filter_route]
      exact ((List.prefix_append before [s]).trans hb).filter _
    · cases hs : isIdle s with
      | true => exact size_of_isIdle hs
      | false =>
        have hmem : s ∈ parent.steps := by
          rw [← filter_route]
          exact List.mem_filter.2 ⟨hb.subset (by simp), by simp [hs]⟩
        rw [hsteps] at hmem
        exact size_of_mem_steps hw (List.mem_of_mem_dropLast hmem)
  · rw [lexicalPlace_eq, horigin]
    exact hover parent.steps List.prefix_rfl

end

theorem sheltered_of_locate (hl : t.locate p = .ok place) : t.Sheltered p := by
  intro parent hparent
  obtain ⟨hz, he, hb, hw⟩ := locate_eq_ok.1 hl
  have hchars := chars_parent? hparent
  by_cases hnil : p.steps = []
  · rcases parent?_of_steps_eq_nil hparent hnil with hempty | rfl
    · exact .inl hempty
    · exact .inr rfl
  by_cases hempty : parent.text.isEmpty = true
  · exact .inl hempty
  right
  have hsize : parent.text.utf8ByteSize ≤ p.text.utf8ByteSize := by
    obtain ⟨rest, hrest⟩ := hchars
    rw [utf8ByteSize_text, utf8ByteSize_text p, ← hrest, String.ofList_append,
      String.utf8ByteSize_append]
    exact Nat.le_add_right ..
  obtain ⟨hwalk, mode, hd⟩ := walk_parent hw hparent hnil
  refine isDirectory_iff.2 ⟨_, mode, locate_eq_ok.2 ⟨fun hm => hz (hchars.subset hm), ?_,
    hsize.trans hb, hwalk⟩, hd⟩
  simpa using hempty

theorem prefix_foldl_of_absent (hc : t.Closed) (hn : t.at? place = none)
    (hs : SteadyFrom t place segments) : place <+: segments.foldl stepInto place := by
  induction segments generalizing place with
  | nil => exact List.prefix_rfl
  | cons s segments ih =>
    obtain ⟨hup, hs⟩ := hs
    have hnext : place <+: stepInto place s ∧ t.at? (stepInto place s) = none := by
      have hsteady : SteadyFrom t place [s] := ⟨hup, trivial⟩
      refine ⟨?_, absent_of_steadyFrom hc hn hsteady⟩
      unfold stepInto
      split
      · rename_i hu
        have hthere := hup hu
        rw [hn] at hthere
        cases hthere
      · split
        · exact List.prefix_rfl
        · exact List.prefix_append ..
    exact hnext.1.trans (ih hnext.2 hs)

theorem prefix_of_missing (hc : t.Closed) (hs : t.Steady p) (hm : place ∈ t.way p)
    (hn : t.at? place = none) : place <+: t.lexicalPlace p := by
  obtain ⟨steps, hsteps, rfl⟩ := mem_way.1 hm
  rw [← filter_route, List.prefix_filter_iff] at hsteps
  obtain ⟨before, ⟨rest, hrest⟩, rfl⟩ := hsteps
  rw [← foldl_stepInto] at hn ⊢
  have hplace : t.lexicalPlace p = rest.foldl stepInto (before.foldl stepInto (t.origin p)) := by
    rw [← List.foldl_append, hrest]
    rfl
  rw [Steady, ← hrest, steadyFrom_append] at hs
  rw [hplace]
  exact prefix_foldl_of_absent hc hn hs.2

end Patchboard.Tree
