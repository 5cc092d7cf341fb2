import Patchboard.Path
import Patchboard.Proofs.Text.Lines

set_option autoImplicit false

namespace Patchboard.Path
open Text

/-- The pieces that lead from one place to another. -/
def steps (p : Path) : List (List Char) := p.segments.filter fun s => !isIdle s

/-- A name of a file or directory in a path. -/
structure IsName (name : String) : Prop where
  solid : isIdle name.toList = false
  flat : '/' ∉ name.toList
  forth : name.toList ≠ ['.', '.']

instance (name : String) : Decidable (IsName name) :=
  decidable_of_iff (isIdle name.toList = false ∧ '/' ∉ name.toList ∧ name.toList ≠ ['.', '.'])
    ⟨fun h => ⟨h.1, h.2.1, h.2.2⟩, fun h => ⟨h.solid, h.flat, h.forth⟩⟩

structure IsPiece (piece : String) : Prop where
  filled : piece.toList ≠ []
  flat : '/' ∉ piece.toList

theorem IsName.piece {name : String} (hn : IsName name) : IsPiece name := by
  refine ⟨fun he => ?_, hn.flat⟩
  have hsolid := hn.solid
  rw [he] at hsolid
  cases hsolid

/-- The part of a path that is divided into pieces. -/
def body (p : Path) : List Char := if p.isAbsolute then p.chars.tail else p.chars

theorem isAbsolute_iff (p : Path) : p.isAbsolute = true ↔ ∃ s, p.chars = '/' :: s := by
  unfold isAbsolute
  cases p.chars with
  | nil => simp
  | cons c s => simp

theorem segments_eq (p : Path) : p.segments = splitOn '/' p.body := by
  unfold segments body
  split
  · rename_i s hs
    rw [if_pos ((isAbsolute_iff p).2 ⟨s, hs⟩), hs]
    rfl
  · rename_i hs
    rw [if_neg fun ha => ((isAbsolute_iff p).1 ha).elim hs]

theorem chars_eq (p : Path) : p.chars = (if p.isAbsolute then ['/'] else []) ++ p.body := by
  unfold body
  cases ha : p.isAbsolute with
  | false => rfl
  | true =>
    obtain ⟨s, hs⟩ := (isAbsolute_iff p).1 ha
    rw [hs]
    rfl

theorem joinSegments_cons {s : List Char} {rest : List (List Char)} (h : rest ≠ []) :
    joinSegments (s :: rest) = s ++ '/' :: joinSegments rest := by
  cases rest with
  | nil => exact absurd rfl h
  | cons first rest => rfl

theorem joinSegments_splitOn (s : List Char) : joinSegments (splitOn '/' s) = s := by
  induction s with
  | nil => rfl
  | cons c s ih =>
    by_cases hc : c = '/'
    · rw [splitOn, if_pos hc, joinSegments_cons (splitOn_ne_nil _ s), ih, hc]
      rfl
    · cases hs : splitOn '/' s with
      | nil => exact absurd hs (splitOn_ne_nil _ s)
      | cons piece pieces =>
        rw [hs] at ih
        rw [splitOn_cons_of_ne hc hs]
        cases pieces with
        | nil =>
          rw [joinSegments] at ih ⊢
          rw [ih]
        | cons next pieces =>
          rw [joinSegments_cons (by simp)] at ih ⊢
          rw [List.cons_append, ih]

theorem joinSegments_eq (segments : List (List Char)) :
    joinSegments segments = ['/'].intercalate segments := by
  induction segments with
  | nil => rfl
  | cons s rest ih =>
    cases rest with
    | nil => rw [joinSegments, List.intercalate_singleton]
    | cons next rest =>
      rw [joinSegments_cons (by simp), ih, List.intercalate_cons_cons, List.append_assoc,
        List.singleton_append]

theorem splitOn_joinSegments {segments : List (List Char)} (hne : segments ≠ [])
    (h : ∀ s ∈ segments, '/' ∉ s) : splitOn '/' (joinSegments segments) = segments := by
  rw [joinSegments_eq, splitOn_intercalate hne h]

theorem not_mem_of_mem_segments {p : Path} {s : List Char} (h : s ∈ p.segments) : '/' ∉ s := by
  rw [segments_eq] at h
  exact not_mem_of_mem_splitOn h

theorem segments_ne_nil (p : Path) : p.segments ≠ [] := by
  rw [segments_eq]
  exact splitOn_ne_nil '/' p.body

section
variable {p : Path} {piece : String} (hp : (⟨piece⟩ : Path).isAbsolute = false)
include hp

theorem chars_join : ((p.chars = [] ∨ p.chars.getLast? = some '/') ∧
      (p.join ⟨piece⟩).chars = p.chars ++ piece.toList) ∨
    ((p.chars ≠ [] ∧ p.chars.getLast? ≠ some '/') ∧
      (p.join ⟨piece⟩).chars = p.chars ++ '/' :: piece.toList) := by
  have hempty : p.text.isEmpty = true ↔ p.chars = [] := by
    rw [String.isEmpty_iff, chars, String.toList_eq_nil_iff]
  unfold join
  rw [if_neg (by simp [hp])]
  by_cases h : p.chars = [] ∨ p.chars.getLast? = some '/'
  · left
    refine ⟨h, ?_⟩
    rw [if_pos (by simpa [hempty] using h)]
    simp [chars]
  · right
    rw [not_or] at h
    refine ⟨h, ?_⟩
    rw [if_neg (by simpa [hempty] using h)]
    simp [chars]

theorem isAbsolute_join : (p.join ⟨piece⟩).isAbsolute = p.isAbsolute := by
  unfold isAbsolute
  rcases chars_join (p := p) hp with ⟨-, hj⟩ | ⟨⟨hne, -⟩, hj⟩
  · rw [hj]
    cases hc' : p.chars with
    | nil => exact hp
    | cons d ds => simp
  · rw [hj]
    cases hc' : p.chars with
    | nil => exact absurd hc' hne
    | cons d ds => simp

theorem body_join : ((p.body = [] ∨ ∃ b, p.body = b ++ ['/']) ∧
      (p.join ⟨piece⟩).body = p.body ++ piece.toList) ∨
    (p.body ≠ [] ∧ p.body.getLast? ≠ some '/' ∧
      (p.join ⟨piece⟩).body = p.body ++ '/' :: piece.toList) := by
  have hchars := chars_eq p
  have hjoined := chars_eq (p.join ⟨piece⟩)
  rw [isAbsolute_join hp] at hjoined
  have hbody {s : List Char} (h : (p.join ⟨piece⟩).chars = p.chars ++ s) :
      (p.join ⟨piece⟩).body = p.body ++ s := by
    rw [hjoined, hchars, List.append_assoc] at h
    exact List.append_cancel_left h
  have hlast (hb : p.body ≠ []) : p.chars.getLast? = p.body.getLast? := by
    rw [hchars, List.getLast?_append]
    cases hl : p.body.getLast? with
    | none => exact absurd (List.getLast?_eq_none_iff.1 hl) hb
    | some c => rfl
  rcases chars_join (p := p) hp with ⟨h, hj⟩ | ⟨⟨hne, h⟩, hj⟩
  · refine .inl ⟨?_, hbody hj⟩
    by_cases hb : p.body = []
    · exact .inl hb
    · rcases h with h | h
      · rw [hchars] at h
        exact .inl (List.append_eq_nil_iff.1 h).2
      · rw [hlast hb] at h
        obtain ⟨b, hb⟩ := List.getLast?_eq_some_iff.1 h
        exact .inr ⟨b, hb⟩
  · by_cases hb : p.body = []
    · rw [hb, List.append_nil] at hchars
      rw [hchars] at hne h
      split at h
      · simp at h
      · rename_i ha
        rw [if_neg ha] at hne
        exact absurd rfl hne
    · exact .inr ⟨hb, hlast hb ▸ h, hbody hj⟩

theorem segments_join_relative : ∃ before, (p.segments = before ∨ p.segments = before ++ [[]]) ∧
    (p.join ⟨piece⟩).segments = before ++ splitOn '/' piece.toList := by
  rw [segments_eq, segments_eq]
  rcases body_join (p := p) hp with ⟨hb | ⟨b, hb⟩, hj⟩ | ⟨-, -, hj⟩
  · exact ⟨[], .inr (by rw [hb]; rfl), by rw [hj, hb, List.nil_append]; rfl⟩
  · refine ⟨splitOn '/' b, .inr (by rw [hb, splitOn_append]; rfl), ?_⟩
    rw [hj, hb, List.append_assoc]
    exact splitOn_append ..
  · exact ⟨splitOn '/' p.body, .inl rfl, by rw [hj, splitOn_append]⟩

end

section
variable {p : Path} {piece : String} (hp : IsPiece piece)
include hp

theorem head_of_isPiece : ∃ c s, piece.toList = c :: s ∧ c ≠ '/' := by
  obtain ⟨c, s, hs⟩ := List.exists_cons_of_ne_nil hp.filled
  refine ⟨c, s, hs, fun hc => hp.flat ?_⟩
  rw [hs, hc]
  exact List.mem_cons_self ..

theorem IsPiece.relative : (⟨piece⟩ : Path).isAbsolute = false := by
  obtain ⟨c, s, hs, hc⟩ := head_of_isPiece hp
  rw [Bool.eq_false_iff, ne_eq, isAbsolute_iff]
  rintro ⟨s', hs'⟩
  rw [chars, hs] at hs'
  exact hc (List.cons.inj hs').1

theorem segments_join : ∃ before, (p.segments = before ∨ p.segments = before ++ [[]]) ∧
    (p.join ⟨piece⟩).segments = before ++ [piece.toList] := by
  obtain ⟨before, hsegments, hj⟩ := segments_join_relative (p := p) hp.relative
  exact ⟨before, hsegments, by rw [hj, splitOn_of_not_mem hp.flat]⟩

end

theorem steps_join {p : Path} {name : String} (hn : IsName name) :
    (p.join ⟨name⟩).steps = p.steps ++ [name.toList] := by
  have hidle : isIdle [] = true := rfl
  obtain ⟨before, hp | hp, hj⟩ := segments_join (p := p) hn.piece <;>
    simp [steps, hp, hj, hn.solid, hidle]

theorem getLast?_bodyComponents {name : String} (hn : IsName name) (absolute : Bool)
    (before : List (List Char)) :
    (bodyComponents absolute (before ++ [name.toList])).getLast? = some (.name name.toList) := by
  have hcomponent : component name.toList = .name name.toList := if_neg hn.forth
  have hdot : name.toList ≠ ['.'] := by
    intro h
    have hsolid := hn.solid
    rw [h] at hsolid
    cases hsolid
  cases before with
  | nil => simp [bodyComponents, hdot, hn.solid, hcomponent]
  | cons first rest => simp [bodyComponents, List.filter_append, hn.solid, hcomponent]

theorem fileName?_join {name : String} (hn : IsName name) (p : Path) :
    (p.join ⟨name⟩).fileName? = some name.toList := by
  obtain ⟨before, -, hj⟩ := segments_join (p := p) hn.piece
  have hlast : (p.join ⟨name⟩).components.getLast? = some (.name name.toList) := by
    unfold components
    rw [hj]
    split
    · rw [List.getLast?_cons, getLast?_bodyComponents hn]
      rfl
    · exact getLast?_bodyComponents hn ..
  unfold fileName?
  rw [hlast]

section
variable {absolute : Bool} {segments : List (List Char)}

theorem dropIdleEnd_concat {s : List Char} (hs : isIdle s = false) :
    dropIdleEnd absolute (segments ++ [s]) = segments ++ [s] := by
  cases segments with
  | nil =>
    have hne : s.isEmpty = false := by
      cases s with
      | nil => simp [isIdle] at hs
      | cons c s => rfl
    simp [dropIdleEnd, hs, hne]
  | cons first rest =>
    have hkept : ((rest ++ [s]).reverse.dropWhile isIdle).reverse = rest ++ [s] := by
      rw [List.reverse_concat, List.dropWhile_cons_of_neg (by simp [hs]), List.reverse_cons,
        List.reverse_reverse]
    rw [List.cons_append, dropIdleEnd, hkept]
    split
    · rename_i hempty
      simp at hempty
    · rfl

theorem dropIdleEnd_cases (absolute : Bool) (segments : List (List Char)) :
    ∃ idle, segments = dropIdleEnd absolute segments ++ idle ∧
      (∀ s ∈ idle, isIdle s = true) ∧
      ∀ s ∈ (dropIdleEnd absolute segments).getLast?,
        isIdle s = false ∨ dropIdleEnd absolute segments = [s] := by
  cases segments with
  | nil => exact ⟨[], rfl, by simp, by simp [dropIdleEnd]⟩
  | cons first rest =>
    have hsplit : rest = (rest.reverse.dropWhile isIdle).reverse ++
        (rest.reverse.takeWhile isIdle).reverse := by
      rw [← List.reverse_append, List.takeWhile_append_dropWhile, List.reverse_reverse]
    have hidle : ∀ s ∈ (rest.reverse.takeWhile isIdle).reverse, isIdle s = true := fun s hs =>
      List.mem_takeWhile_imp (List.mem_reverse.1 hs)
    have hhead := List.head?_dropWhile_not isIdle rest.reverse
    unfold dropIdleEnd
    dsimp only
    split
    · rename_i hnil
      rw [hnil, List.nil_append] at hsplit
      rw [← hsplit] at hidle
      split
      · rename_i hfirst
        refine ⟨first :: rest, rfl, fun s hs => ?_, by simp⟩
        rcases List.mem_cons.1 hs with rfl | hs
        · rw [Bool.or_eq_true, Bool.and_eq_true] at hfirst
          rcases hfirst with hfirst | ⟨-, hfirst⟩
          · simp [isIdle, hfirst]
          · exact hfirst
        · exact hidle s hs
      · exact ⟨rest, rfl, hidle, by simp⟩
    · rename_i hnonempty
      refine ⟨(rest.reverse.takeWhile isIdle).reverse, ?_, hidle, fun s hs => .inl ?_⟩
      · rw [List.cons_append, ← hsplit]
      · cases hkept : rest.reverse.dropWhile isIdle with
        | nil => exact absurd (by rw [hkept]; rfl) hnonempty
        | cons last kept =>
          rw [hkept] at hs hhead
          rw [List.reverse_cons, ← List.cons_append, List.getLast?_concat, Option.mem_def,
            Option.some_inj] at hs
          rw [← hs]
          exact hhead

theorem filter_dropIdleEnd (absolute : Bool) (segments : List (List Char)) :
    (dropIdleEnd absolute segments).filter (fun s => !isIdle s) =
      segments.filter fun s => !isIdle s := by
  obtain ⟨idle, hsplit, hidle, -⟩ := dropIdleEnd_cases absolute segments
  have hnone : idle.filter (fun s => !isIdle s) = [] := List.filter_eq_nil_iff.2 fun s hs => by
    simp [hidle s hs]
  have hfilter := congrArg (List.filter fun s => !isIdle s) hsplit
  rw [List.filter_append, hnone, List.append_nil] at hfilter
  exact hfilter.symm

theorem dropIdleEnd_initial : dropIdleEnd absolute segments <+: segments := by
  obtain ⟨idle, hsplit, -⟩ := dropIdleEnd_cases absolute segments
  exact ⟨idle, hsplit.symm⟩

end

variable {p q : Path}

theorem chars_ofSegments (absolute : Bool) (segments : List (List Char)) :
    (ofSegments absolute segments).chars =
      (if absolute then ['/'] else []) ++ joinSegments segments := by
  simp [ofSegments, ofChars, chars]

theorem ofSegments_segments (p : Path) : ofSegments p.isAbsolute p.segments = p := by
  have hchars : (ofSegments p.isAbsolute p.segments).chars = p.chars := by
    rw [chars_ofSegments, segments_eq, joinSegments_splitOn, ← chars_eq]
  obtain ⟨text⟩ := p
  exact congrArg Path.mk (String.toList_inj.1 hchars)

theorem head_segments_of_relative (ha : p.isAbsolute = false) {first : List Char}
    {rest : List (List Char)} (hs : p.segments = first :: rest) (hp : p.chars ≠ []) :
    ∃ c s, first = c :: s ∧ c ≠ '/' := by
  have hflat := not_mem_of_mem_segments (p := p) (s := first) (by rw [hs]; exact List.mem_cons_self ..)
  cases first with
  | cons c s => exact ⟨c, s, rfl, fun hc => hflat (by rw [hc]; exact List.mem_cons_self ..)⟩
  | nil =>
    have hjoin := joinSegments_splitOn p.body
    have hbody : p.body = p.chars := by rw [body, ha]; rfl
    rw [← segments_eq, hs, hbody] at hjoin
    cases rest with
    | nil => exact absurd hjoin.symm hp
    | cons next rest =>
      rw [joinSegments_cons (by simp), List.nil_append] at hjoin
      have habsolute := (isAbsolute_iff p).2 ⟨_, hjoin.symm⟩
      simp [ha] at habsolute

theorem ofSegments_of_prefix {kept : List (List Char)} (hk : kept <+: p.segments)
    (hne : kept ≠ [] → p.chars ≠ [] ∨ p.isAbsolute = true) :
    (ofSegments p.isAbsolute kept).isAbsolute = p.isAbsolute ∧
      (ofSegments p.isAbsolute kept).steps = kept.filter fun s => !isIdle s := by
  have hchars := chars_ofSegments p.isAbsolute kept
  have hflat : ∀ s ∈ kept, '/' ∉ s := fun s hs => not_mem_of_mem_segments (hk.subset hs)
  have habsolute : (ofSegments p.isAbsolute kept).isAbsolute = p.isAbsolute := by
    cases ha : p.isAbsolute with
    | true => rw [isAbsolute_iff, chars_ofSegments]; exact ⟨_, rfl⟩
    | false =>
      rw [Bool.eq_false_iff, ne_eq, isAbsolute_iff, chars_ofSegments]
      rintro ⟨s, hs⟩
      rw [if_neg Bool.false_ne_true, List.nil_append] at hs
      cases kept with
      | nil => simp [joinSegments] at hs
      | cons first rest =>
        obtain ⟨more, hmore⟩ := hk
        have hp := (hne (by simp)).resolve_right (by simp [ha])
        obtain ⟨c, s', hfirst, hc⟩ := head_segments_of_relative ha hmore.symm hp
        cases rest with
        | nil =>
          rw [joinSegments, hfirst] at hs
          exact hc (List.cons.inj hs).1
        | cons next rest =>
          rw [joinSegments_cons (by simp), hfirst] at hs
          exact hc (List.cons.inj hs).1
  refine ⟨habsolute, ?_⟩
  have hbody : (ofSegments p.isAbsolute kept).body = joinSegments kept := by
    have hsplit := chars_eq (ofSegments p.isAbsolute kept)
    rw [habsolute, hchars] at hsplit
    exact (List.append_cancel_left hsplit).symm
  rw [steps, segments_eq, hbody]
  by_cases hnil : kept = []
  · rw [hnil]
    rfl
  · rw [splitOn_joinSegments hnil hflat]

theorem parent?_eq_some (h : p.parent? = some q) :
    q.isAbsolute = p.isAbsolute ∧ q.steps = p.steps.dropLast := by
  have hp : p.chars ≠ [] ∨ p.isAbsolute = true := by
    left
    intro hnil
    have hempty : p.segments = [[]] := by rw [segments, hnil]; rfl
    simp [parent?, hempty, dropIdleEnd] at h
  unfold parent? at h
  split at h
  · simp at h
  · rename_i kept hnonempty
    obtain rfl := Option.some_inj.1 h
    obtain ⟨idle, hsplit, hidle, hlast⟩ :=
      dropIdleEnd_cases p.isAbsolute p.segments
    have hprefix : dropIdleEnd p.isAbsolute
        (dropIdleEnd p.isAbsolute p.segments).dropLast <+: p.segments :=
      (dropIdleEnd_initial.trans (List.dropLast_prefix _)).trans dropIdleEnd_initial
    obtain ⟨habsolute, hsteps⟩ := ofSegments_of_prefix hprefix fun _ => hp
    refine ⟨habsolute, hsteps.trans ?_⟩
    rw [filter_dropIdleEnd, steps, ← filter_dropIdleEnd p.isAbsolute p.segments]
    cases hk : (dropIdleEnd p.isAbsolute p.segments).getLast? with
    | none =>
      rw [List.getLast?_eq_none_iff.1 hk]
      rfl
    | some last =>
      obtain ⟨before, hbefore⟩ := List.getLast?_eq_some_iff.1 hk
      rcases hlast last hk with hsolid | hone
      · rw [hbefore, List.dropLast_concat, List.filter_append,
          List.filter_cons_of_pos (by simp [hsolid]), List.filter_nil, List.dropLast_concat]
      · cases hi : isIdle last <;> simp [hone, hi]

/-- A path that ends in a piece that is not idle. -/
def EndsSolid (p : Path) : Prop := ∀ s ∈ p.segments.getLast?, isIdle s = false

theorem endsSolid_join {name : String} (hn : IsName name) (p : Path) :
    (p.join ⟨name⟩).EndsSolid := by
  intro s hs
  obtain ⟨before, -, hj⟩ := segments_join (p := p) hn.piece
  rw [hj, List.getLast?_concat, Option.mem_def, Option.some_inj] at hs
  rw [← hs]
  exact hn.solid

theorem segments_join_of_endsSolid {piece : String} (h : IsPiece piece) (hp : p.EndsSolid) :
    (p.join ⟨piece⟩).segments = p.segments ++ [piece.toList] := by
  obtain ⟨before, hs | hs, hj⟩ := segments_join (p := p) h
  · rw [hj, hs]
  · have hidle := hp [] (by rw [hs, List.getLast?_concat]; rfl)
    simp [isIdle] at hidle

theorem parent?_join {name : String} (hn : IsName name) (hp : p.EndsSolid) :
    (p.join ⟨name⟩).parent? = some p := by
  obtain ⟨last, hlast⟩ : ∃ last, p.segments.getLast? = some last := by
    cases hl : p.segments.getLast? with
    | none => exact absurd (List.getLast?_eq_none_iff.1 hl) p.segments_ne_nil
    | some last => exact ⟨last, rfl⟩
  obtain ⟨before, hbefore⟩ := List.getLast?_eq_some_iff.1 hlast
  have hkept : dropIdleEnd p.isAbsolute p.segments = p.segments := by
    rw [hbefore]
    exact dropIdleEnd_concat (hp last hlast)
  unfold parent?
  rw [segments_join_of_endsSolid hn.piece hp, isAbsolute_join hn.piece.relative,
    dropIdleEnd_concat hn.solid]
  split
  · rename_i hnil
    simp at hnil
  · rw [List.dropLast_concat, hkept, ofSegments_segments]

theorem joinSegments_of_prefix {kept segments : List (List Char)} (h : kept <+: segments) :
    joinSegments kept <+: joinSegments segments := by
  obtain ⟨rest, rfl⟩ := h
  induction kept with
  | nil => exact List.nil_prefix
  | cons s kept ih =>
    by_cases hk : kept = []
    · subst hk
      by_cases hr : rest = []
      · simp [hr]
      · rw [List.singleton_append, joinSegments_cons hr]
        exact List.prefix_append ..
    · rw [List.cons_append, joinSegments_cons hk, joinSegments_cons (by simp [hk])]
      exact (List.prefix_append_right_inj s).2 (List.cons_prefix_cons.2 ⟨rfl, ih⟩)

theorem chars_parent? (h : p.parent? = some q) : q.chars <+: p.chars := by
  unfold parent? at h
  split at h
  · cases h
  · obtain rfl := Option.some.inj h
    rw [chars_ofSegments, chars_eq p]
    refine (List.prefix_append_right_inj _).2 ?_
    rw [← joinSegments_splitOn p.body, ← segments_eq]
    exact joinSegments_of_prefix
      ((dropIdleEnd_initial.trans (List.dropLast_prefix _)).trans dropIdleEnd_initial)

theorem parent?_of_steps_eq_nil (h : p.parent? = some q) (hs : p.steps = []) :
    q.text.isEmpty = true ∨ q = ⟨"/"⟩ := by
  unfold parent? at h
  split at h
  · cases h
  · rename_i kept hnonempty
    obtain rfl := Option.some.inj h
    obtain ⟨idle, hsplit, hidle, hlast⟩ := dropIdleEnd_cases p.isAbsolute p.segments
    have hnil : (dropIdleEnd p.isAbsolute p.segments).dropLast = [] := by
      cases hk : (dropIdleEnd p.isAbsolute p.segments).getLast? with
      | none => rw [List.getLast?_eq_none_iff.1 hk]; rfl
      | some last =>
        rcases hlast last hk with hsolid | hone
        · have hmem : last ∈ p.steps := by
            rw [steps, ← filter_dropIdleEnd p.isAbsolute p.segments]
            exact List.mem_filter.2 ⟨List.mem_of_getLast? hk, by simp [hsolid]⟩
          rw [hs] at hmem
          cases hmem
        · rw [hone]; rfl
    rw [hnil]
    cases p.isAbsolute with
    | true => exact .inr rfl
    | false => exact .inl rfl

end Patchboard.Path
