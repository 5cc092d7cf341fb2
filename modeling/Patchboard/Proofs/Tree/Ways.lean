import Patchboard.Proofs.Path.Steps
import Patchboard.Proofs.Tree.Access

set_option autoImplicit false

namespace Patchboard.Tree
open Path

variable {t t' t'' : Tree} {p : Path} {place : Place}

theorem stepInto_of_idle {segment : List Char} (h : isIdle segment = true) (place : Place) :
    stepInto place segment = place := by
  have hforth : segment ≠ ['.', '.'] := by
    rintro rfl
    simp [isIdle] at h
  rw [stepInto, if_neg hforth, if_pos h]

theorem stepInto_of_isName {name : String} (hn : IsName name) (place : Place) :
    stepInto place name.toList = place ++ [name] := by
  unfold stepInto
  rw [if_neg hn.forth, if_neg (by simp [hn.solid]), String.ofList_toList]

theorem prefix_foldl_stepInto {segments : List (List Char)} (h : ∀ s ∈ segments, s ≠ ['.', '.'])
    (place : Place) : place <+: segments.foldl stepInto place := by
  induction segments generalizing place with
  | nil => exact List.prefix_rfl
  | cons s segments ih =>
    have hstep : place <+: stepInto place s := by
      rw [stepInto, if_neg (h s (List.mem_cons_self ..))]
      split
      · exact List.prefix_rfl
      · exact List.prefix_append ..
    exact hstep.trans (ih (fun other ho => h other (List.mem_cons_of_mem _ ho)) _)

theorem foldl_stepInto (segments : List (List Char)) (place : Place) :
    segments.foldl stepInto place = (segments.filter fun s => !isIdle s).foldl stepInto place := by
  induction segments generalizing place with
  | nil => rfl
  | cons s segments ih =>
    cases hs : isIdle s with
    | true =>
      rw [List.foldl_cons, stepInto_of_idle hs, ih, List.filter_cons_of_neg (by simp [hs])]
    | false =>
      rw [List.foldl_cons, ih, List.filter_cons_of_pos (by simp [hs]), List.foldl_cons]

theorem segments_eq_route (p : Path) : ∃ n, p.segments = route p ++ List.replicate n [] := by
  have hsplit : (p.segments.reverse.dropWhile List.isEmpty).reverse ++
      (p.segments.reverse.takeWhile List.isEmpty).reverse = p.segments := by
    rw [← List.reverse_append, List.takeWhile_append_dropWhile, List.reverse_reverse]
  refine ⟨(p.segments.reverse.takeWhile List.isEmpty).reverse.length, ?_⟩
  rw [route, ← List.eq_replicate_of_mem fun s hs => ?_, hsplit]
  have hs := List.mem_takeWhile_imp (List.mem_reverse.1 hs)
  exact List.isEmpty_iff.1 hs

theorem filter_route (p : Path) : (route p).filter (fun s => !isIdle s) = p.steps := by
  obtain ⟨n, hn⟩ := segments_eq_route p
  have hnone : (List.replicate n ([] : List Char)).filter (fun s => !isIdle s) = [] :=
    List.filter_eq_nil_iff.2 fun s hs => by simp [List.eq_of_mem_replicate hs, isIdle]
  rw [steps, hn, List.filter_append, hnone, List.append_nil]

theorem lexicalPlace_eq (t : Tree) (p : Path) :
    t.lexicalPlace p = p.steps.foldl stepInto (t.origin p) := by
  rw [← filter_route, ← foldl_stepInto]
  rfl

theorem lexicalPlace_congr (h : t'.working = t.working) (p : Path) :
    t'.lexicalPlace p = t.lexicalPlace p := by
  rw [lexicalPlace, lexicalPlace, h]

theorem walk_append (segments rest : List (List Char)) (place : Place) :
    t.walk place (segments ++ rest) =
      match t.walk place segments with
      | .error e => .error e
      | .ok goal => t.walk goal rest := by
  induction segments generalizing place with
  | nil => rfl
  | cons s segments ih =>
    rw [List.cons_append, walk, walk]
    cases t.at? place with
    | none => rfl
    | some entry =>
      cases entry with
      | file contents mode => rfl
      | directory mode =>
        dsimp only
        split
        · rfl
        · exact ih _

theorem walk_replicate (s : List Char) (n : Nat) (place : Place) :
    t.walk place (List.replicate n [] ++ [s]) = t.walk place [s] := by
  induction n generalizing place with
  | zero => rfl
  | succ n ih =>
    have hidle : stepInto place [] = place := stepInto_of_idle rfl place
    rw [List.replicate_succ, List.cons_append, walk]
    cases hp : t.at? place with
    | none => rw [walk, hp]
    | some entry =>
      cases entry with
      | file contents mode => rw [walk, hp]
      | directory mode =>
        dsimp only
        rw [if_neg (by decide), hidle, ih]

theorem steadyFrom_append (segments rest : List (List Char)) (place : Place) :
    SteadyFrom t place (segments ++ rest) ↔
      SteadyFrom t place segments ∧ SteadyFrom t (segments.foldl stepInto place) rest := by
  induction segments generalizing place with
  | nil => simp [SteadyFrom]
  | cons s segments ih => simp [SteadyFrom, ih, and_assoc]

theorem SteadyFrom.mono (h : ∀ place, (t.at? place).isSome → (t'.at? place).isSome)
    {segments : List (List Char)} {place : Place} (hs : SteadyFrom t place segments) :
    SteadyFrom t' place segments := by
  induction segments generalizing place with
  | nil => trivial
  | cons s segments ih => exact ⟨fun hu => h place (hs.1 hu), ih hs.2⟩

theorem steadyFrom_of_forth {segments : List (List Char)} (h : ∀ s ∈ segments, s ≠ ['.', '.'])
    (place : Place) : SteadyFrom t place segments := by
  induction segments generalizing place with
  | nil => trivial
  | cons s segments ih =>
    exact ⟨fun hs => absurd hs (h s (List.mem_cons_self ..)),
      ih (fun other ho => h other (List.mem_cons_of_mem _ ho)) _⟩

theorem locate_eq_ok : t.locate p = .ok place ↔ '\x00' ∉ p.chars ∧ p.text.isEmpty = false ∧
    p.text.utf8ByteSize ≤ pathLimit ∧ t.walk (t.origin p) (route p) = .ok place := by
  unfold locate
  split
  · rename_i hz
    simp only [reduceCtorEq, false_iff]
    exact fun h => h.1 (List.contains_iff_mem.1 hz)
  · rename_i hz
    rw [List.contains_iff_mem] at hz
    split
    · rename_i he
      simp [he]
    · rename_i he
      split
      · rename_i hb
        simp [Nat.not_le.2 hb]
      · rename_i hb
        simp [hz, he, Nat.not_lt.1 hb, origin]

theorem locate_eq_notFound (he : p.text.isEmpty = false) :
    t.locate p = .error .notFound ↔ '\x00' ∉ p.chars ∧ p.text.utf8ByteSize ≤ pathLimit ∧
      t.walk (t.origin p) (route p) = .error .notFound := by
  unfold locate
  split
  · rename_i hz
    simp only [Except.error.injEq, reduceCtorEq, false_iff]
    exact fun h => h.1 (List.contains_iff_mem.1 hz)
  · rename_i hz
    rw [List.contains_iff_mem] at hz
    rw [if_neg (by simp [he])]
    split
    · rename_i hb
      simp [Nat.not_le.2 hb]
    · rename_i hb
      simp [hz, Nat.not_lt.1 hb, origin]

theorem find_eq_notFound : t.find p = .error .notFound ↔
    t.locate p = .error .notFound ∨ ∃ place, t.locate p = .ok place ∧ t.at? place = none := by
  unfold find
  cases t.locate p with
  | error e => simp
  | ok place =>
    dsimp only
    cases ha : t.at? place with
    | none => simp [ha]
    | some entry =>
      dsimp only
      split <;> simp [ha]

/-- What a name has to be for the system to take it, alone and joined to a path. -/
structure Fits (p : Path) (name : String) : Prop where
  short : name.utf8ByteSize ≤ nameLimit
  path : (p.join ⟨name⟩).text.utf8ByteSize ≤ pathLimit
  null : '\x00' ∉ name.toList

instance (p : Path) (name : String) : Decidable (Fits p name) :=
  decidable_of_iff (name.utf8ByteSize ≤ nameLimit ∧
      (p.join ⟨name⟩).text.utf8ByteSize ≤ pathLimit ∧ '\x00' ∉ name.toList)
    ⟨fun h => ⟨h.1, h.2.1, h.2.2⟩, fun h => ⟨h.short, h.path, h.null⟩⟩

/-- A name can be looked up in what a path leads to, which for the empty path is the working
place. -/
structure Enters (t : Tree) (p : Path) : Prop where
  null : '\x00' ∉ p.chars
  walked : t.walk (t.origin p) (route p) = .ok (t.lexicalPlace p)
  directory : ∃ mode, t.at? (t.lexicalPlace p) = some (.directory mode)

theorem enters_of_isDirectory (h : t.isDirectory p = true) : t.Enters p := by
  obtain ⟨place, mode, hl, ha⟩ := isDirectory_iff.1 h
  have hplace := locate_ok hl
  subst hplace
  obtain ⟨hz, -, -, hw⟩ := locate_eq_ok.1 hl
  exact ⟨hz, hw, mode, ha⟩

theorem isDirectory_of_enters (he : p.text.isEmpty = false)
    (hb : p.text.utf8ByteSize ≤ pathLimit) (h : t.Enters p) : t.isDirectory p = true := by
  obtain ⟨mode, hd⟩ := h.directory
  exact isDirectory_iff.2 ⟨_, mode, locate_eq_ok.2 ⟨h.null, he, hb, h.walked⟩, hd⟩

theorem Enters.of_grown {written : List Place} (h : t.Enters p) (hg : Grown t t' written) :
    t'.Enters p := by
  have horigin : t'.origin p = t.origin p := by rw [origin, origin, hg.working]
  obtain ⟨mode, hd⟩ := h.directory
  refine ⟨h.null, ?_, ?_⟩
  · rw [horigin, lexicalPlace_of_grown hg]
    exact walk_of_grown hg h.walked
  · rw [lexicalPlace_of_grown hg]
    exact at?_of_look_directory (hg.directory _ (look_directory hd))

theorem directory_of_walk {goal : Place} {segments rest : List (List Char)}
    (h : t.walk place (segments ++ rest) = .ok goal) (hr : rest ≠ []) :
    ∃ mode, t.at? (segments.foldl stepInto place) = some (.directory mode) := by
  rw [walk_append] at h
  cases hw : t.walk place segments with
  | error e => rw [hw] at h; cases h
  | ok middle =>
    obtain ⟨s, rest, rfl⟩ := List.exists_cons_of_ne_nil hr
    rw [hw] at h
    dsimp only at h
    rw [walk] at h
    rw [← walk_ok hw]
    split at h
    · cases h
    · cases h
    · rename_i mode hd
      exact ⟨mode, hd⟩

theorem absent_of_unreached {written : List Place} (hc : t.Closed) (hs : t.Steady p)
    (he : endsInSeparator p = false) (hx : t.pathExists p = false) (hg : Grown t t' written)
    (hd : t'.isDirectory p = true) : t.at? (t.lexicalPlace p) = none := by
  obtain ⟨place, mode, hl, -⟩ := isDirectory_iff.1 hd
  have horigin : t'.origin p = t.origin p := by rw [origin, origin, hg.working]
  have hplace : place = t.lexicalPlace p := by rw [locate_ok hl, lexicalPlace_of_grown hg]
  obtain ⟨hz, hne, hb, hw⟩ := locate_eq_ok.1 hl
  rw [horigin] at hw
  cases ha : t.at? (t.lexicalPlace p) with
  | none => rfl
  | some entry =>
    have hw' := walk_of_grown_of_steady hg hc hs hw (by rw [hplace, ha]; rfl)
    have hl' := locate_eq_ok.2 ⟨hz, hne, hb, hw'⟩
    rw [hplace] at hl'
    simp [pathExists, find?, find, hl', ha, he, Except.toOption] at hx

theorem utf8ByteSize_text (p : Path) :
    p.text.utf8ByteSize = (String.ofList p.chars).utf8ByteSize := by
  rw [chars, String.ofList_toList]

section
variable {piece : String} (hp : IsPiece piece)
include hp

theorem route_join (p : Path) :
    ∃ n, route (p.join ⟨piece⟩) = route p ++ (List.replicate n [] ++ [piece.toList]) := by
  obtain ⟨c, s, hs, -⟩ := head_of_isPiece hp
  have hroute {before : List (List Char)} (hj : (p.join ⟨piece⟩).segments = before ++ [piece.toList]) :
      route (p.join ⟨piece⟩) = before ++ [piece.toList] := by
    rw [route, hj, List.reverse_concat, List.dropWhile_cons_of_neg (by simp [hs]),
      List.reverse_cons, List.reverse_reverse]
  obtain ⟨n, hn'⟩ := segments_eq_route p
  obtain ⟨before, hs' | hs', hj⟩ := segments_join (p := p) hp
  · exact ⟨n, by rw [hroute hj, ← hs', hn', List.append_assoc]⟩
  · cases n with
    | zero =>
      have hlast := congrArg List.getLast? (hn'.symm.trans hs')
      rw [List.replicate_zero, List.append_nil, List.getLast?_concat, route,
        List.getLast?_reverse] at hlast
      have hhead := List.head?_dropWhile_not List.isEmpty p.segments.reverse
      rw [hlast] at hhead
      simp at hhead
    | succ n =>
      rw [hs', List.replicate_succ', ← List.append_assoc] at hn'
      have hbefore := (List.append_inj_left' hn' rfl)
      exact ⟨n, by rw [hroute hj, hbefore, List.append_assoc]⟩

theorem getLast?_route_join (p : Path) :
    (route (p.join ⟨piece⟩)).getLast? = some piece.toList := by
  obtain ⟨n, hroute⟩ := route_join hp p
  rw [hroute, ← List.append_assoc, List.getLast?_concat]

theorem walk_join (p : Path) :
    t.walk (t.origin (p.join ⟨piece⟩)) (route (p.join ⟨piece⟩)) =
      match t.walk (t.origin p) (route p) with
      | .error e => .error e
      | .ok goal => t.walk goal [piece.toList] := by
  have horigin : t.origin (p.join ⟨piece⟩) = t.origin p := by
    rw [origin, origin, isAbsolute_join hp.relative]
  obtain ⟨n, hroute⟩ := route_join hp p
  rw [horigin, hroute, walk_append]
  cases t.walk (t.origin p) (route p) with
  | error e => rfl
  | ok goal => exact walk_replicate piece.toList n goal

theorem null_mem_join (p : Path) :
    '\x00' ∈ (p.join ⟨piece⟩).chars ↔ '\x00' ∈ p.chars ∨ '\x00' ∈ piece.toList := by
  rcases chars_join (p := p) hp.relative with ⟨-, hj⟩ | ⟨-, hj⟩
  · rw [hj, List.mem_append]
  · rw [hj, List.mem_append, List.mem_cons]
    simp

theorem lexicalPlace_join_piece (t : Tree) (p : Path) :
    t.lexicalPlace (p.join ⟨piece⟩) = stepInto (t.lexicalPlace p) piece.toList := by
  have hidle (n : Nat) (place : Place) : (List.replicate n []).foldl stepInto place = place := by
    induction n with
    | zero => rfl
    | succ n ih => rw [List.replicate_succ, List.foldl_cons, stepInto_of_idle rfl, ih]
  obtain ⟨n, hroute⟩ := route_join hp p
  unfold lexicalPlace
  rw [hroute, isAbsolute_join hp.relative, List.foldl_append, List.foldl_append, hidle,
    List.foldl_cons, List.foldl_nil]

theorem Enters.of_join (h : t.Enters (p.join ⟨piece⟩)) : t.Enters p := by
  have hnull := h.null
  have hwalk := h.walked
  rw [null_mem_join hp, not_or] at hnull
  rw [walk_join hp] at hwalk
  cases habove : t.walk (t.origin p) (route p) with
  | error e => rw [habove] at hwalk; cases hwalk
  | ok above =>
    obtain rfl : above = t.lexicalPlace p := walk_ok habove
    rw [habove] at hwalk
    exact ⟨hnull.1, habove, @directory_of_walk _ _ _ [] _ hwalk (by simp)⟩

theorem size_join (p : Path) : p.text.utf8ByteSize ≤ (p.join ⟨piece⟩).text.utf8ByteSize := by
  rw [utf8ByteSize_text p, utf8ByteSize_text (p.join ⟨piece⟩)]
  rcases chars_join (p := p) hp.relative with ⟨-, hj⟩ | ⟨-, hj⟩ <;>
    rw [hj, String.ofList_append, String.utf8ByteSize_append] <;>
    exact Nat.le_add_right ..

theorem size_join_le (p : Path) :
    (p.join ⟨piece⟩).text.utf8ByteSize ≤ p.text.utf8ByteSize + 1 + piece.utf8ByteSize := by
  rw [utf8ByteSize_text p, utf8ByteSize_text (p.join ⟨piece⟩)]
  rcases chars_join (p := p) hp.relative with ⟨-, hj⟩ | ⟨-, hj⟩
  · rw [hj, String.ofList_append, String.utf8ByteSize_append, String.ofList_toList]
    omega
  · have hslash : (String.ofList ['/']).utf8ByteSize = 1 := by decide
    rw [hj, List.append_cons, String.ofList_append, String.ofList_append,
      String.utf8ByteSize_append, String.utf8ByteSize_append, String.ofList_toList, hslash]

theorem text_join (p : Path) : (p.join ⟨piece⟩).text.isEmpty = false := by
  obtain ⟨c, s, hs, -⟩ := head_of_isPiece hp
  have hne : (p.join ⟨piece⟩).chars ≠ [] := by
    rcases chars_join (p := p) hp.relative with ⟨-, hj⟩ | ⟨-, hj⟩ <;> rw [hj, hs] <;> simp
  rw [Bool.eq_false_iff, ne_eq, String.isEmpty_iff, ← String.toList_eq_nil_iff]
  exact hne

end

section
variable {name : String} (hn : IsName name)
include hn

theorem lexicalPlace_join (t : Tree) (p : Path) :
    t.lexicalPlace (p.join ⟨name⟩) = t.lexicalPlace p ++ [name] := by
  rw [lexicalPlace_join_piece hn.piece, stepInto_of_isName hn]

theorem walk_name (place : Place) : t.walk place [name.toList] =
    match t.at? place with
    | none => .error .notFound
    | some (.file _ _) => .error .notDirectory
    | some (.directory _) =>
      if nameLimit < name.utf8ByteSize then .error .nameTooLong else .ok (place ++ [name]) := by
  rw [walk]
  cases t.at? place with
  | none => rfl
  | some entry =>
    cases entry with
    | file contents mode => rfl
    | directory mode =>
      dsimp only
      rw [String.ofList_toList, stepInto_of_isName hn]
      rfl

theorem steady_join {p : Path} (h : t.Steady p) : t.Steady (p.join ⟨name⟩) := by
  have horigin : t.origin (p.join ⟨name⟩) = t.origin p := by
    rw [origin, origin, isAbsolute_join hn.piece.relative]
  obtain ⟨n, hroute⟩ := route_join hn.piece p
  unfold Steady
  rw [horigin, hroute, steadyFrom_append]
  refine ⟨h, steadyFrom_of_forth (fun s hs => ?_) _⟩
  rcases List.mem_append.1 hs with hs | hs
  · rw [List.eq_of_mem_replicate hs]
    simp
  · rw [List.mem_singleton.1 hs]
    exact hn.forth

theorem endsInSeparator_join (p : Path) : endsInSeparator (p.join ⟨name⟩) = false := by
  obtain ⟨c, s, hs, -⟩ := head_of_isPiece hn.piece
  have hlast : (p.join ⟨name⟩).chars.getLast? = name.toList.getLast? := by
    rcases chars_join (p := p) hn.piece.relative with ⟨-, hj⟩ | ⟨-, hj⟩ <;> rw [hj, hs] <;>
      simp [List.getLast?_cons]
  unfold endsInSeparator
  rw [hlast, decide_eq_false_iff_not]
  exact fun h => hn.flat (List.mem_of_getLast? h)

theorem locate_join {mode : Nat} (hf : Fits p name) (hl : t.locate p = .ok place)
    (hd : t.at? place = some (.directory mode)) :
    t.locate (p.join ⟨name⟩) = .ok (place ++ [name]) := by
  obtain ⟨hz, -, -, hw⟩ := locate_eq_ok.1 hl
  refine locate_eq_ok.2 ⟨?_, text_join hn.piece p, hf.path, ?_⟩
  · rw [null_mem_join hn.piece, not_or]
    exact ⟨hz, hf.null⟩
  · rw [walk_join hn.piece, hw]
    dsimp only
    rw [walk_name hn, hd]
    exact if_neg (Nat.not_lt.2 hf.short)

theorem of_locate_join (h : t.locate (p.join ⟨name⟩) = .ok place) : Fits p name ∧
    ∃ above mode, place = above ++ [name] ∧ t.at? above = some (.directory mode) ∧
      (p.text.isEmpty = false → t.locate p = .ok above) := by
  obtain ⟨hz, -, hb, hw⟩ := locate_eq_ok.1 h
  rw [null_mem_join hn.piece, not_or] at hz
  rw [walk_join hn.piece] at hw
  cases habove : t.walk (t.origin p) (route p) with
  | error e => rw [habove] at hw; cases hw
  | ok above =>
    rw [habove] at hw
    dsimp only at hw
    rw [walk_name hn] at hw
    split at hw
    · cases hw
    · cases hw
    · rename_i mode hd
      split at hw
      · cases hw
      · rename_i hlimit
        cases hw
        refine ⟨⟨Nat.not_lt.1 hlimit, hb, hz.2⟩, above, mode, rfl, hd, fun he => ?_⟩
        exact locate_eq_ok.2 ⟨hz.1, he, (size_join hn.piece p).trans hb, habove⟩

theorem locate_join_iff : t.locate (p.join ⟨name⟩) = .ok place ↔
    Fits p name ∧ t.Enters p ∧ place = t.lexicalPlace p ++ [name] := by
  constructor
  · intro h
    have hplace : place = t.lexicalPlace p ++ [name] := (locate_ok h).trans (lexicalPlace_join hn t p)
    obtain ⟨hfits, above, mode, he, hd, -⟩ := of_locate_join hn h
    obtain rfl := (List.append_inj_left' (he.symm.trans hplace) rfl)
    obtain ⟨hz, -, -, hw⟩ := locate_eq_ok.1 h
    rw [null_mem_join hn.piece, not_or] at hz
    rw [walk_join hn.piece] at hw
    cases habove : t.walk (t.origin p) (route p) with
    | error e => rw [habove] at hw; cases hw
    | ok above => exact ⟨hfits, ⟨hz.1, habove.trans (congrArg _ (walk_ok habove)), mode, hd⟩, hplace⟩
  · rintro ⟨hf, h, rfl⟩
    obtain ⟨mode, hd⟩ := h.directory
    refine locate_eq_ok.2 ⟨?_, text_join hn.piece p, hf.path, ?_⟩
    · rw [null_mem_join hn.piece, not_or]
      exact ⟨h.null, hf.null⟩
    · rw [walk_join hn.piece, h.walked]
      dsimp only
      rw [walk_name hn, hd]
      exact if_neg (Nat.not_lt.2 hf.short)

theorem isDirectory_join_iff : t.isDirectory (p.join ⟨name⟩) = true ↔ Fits p name ∧ t.Enters p ∧
    ∃ mode, t.at? (t.lexicalPlace p ++ [name]) = some (.directory mode) := by
  rw [isDirectory_iff]
  constructor
  · rintro ⟨place, mode, hl, ha⟩
    obtain ⟨hf, he, rfl⟩ := (locate_join_iff hn).1 hl
    exact ⟨hf, he, mode, ha⟩
  · rintro ⟨hf, he, mode, ha⟩
    exact ⟨_, mode, (locate_join_iff hn).2 ⟨hf, he, rfl⟩, ha⟩

theorem pathExists_join_iff : t.pathExists (p.join ⟨name⟩) = true ↔ Fits p name ∧ t.Enters p ∧
    (t.at? (t.lexicalPlace p ++ [name])).isSome := by
  have hfind : t.pathExists (p.join ⟨name⟩) = true ↔
      ∃ place, t.locate (p.join ⟨name⟩) = .ok place ∧ (t.at? place).isSome := by
    unfold pathExists find? find
    rw [endsInSeparator_join hn]
    cases t.locate (p.join ⟨name⟩) with
    | error e => simp [Except.toOption]
    | ok place => cases h : t.at? place <;> simp [Except.toOption, h]
  rw [hfind]
  constructor
  · rintro ⟨place, hl, ha⟩
    obtain ⟨hf, he, rfl⟩ := (locate_join_iff hn).1 hl
    exact ⟨hf, he, ha⟩
  · rintro ⟨hf, he, ha⟩
    exact ⟨_, (locate_join_iff hn).2 ⟨hf, he, rfl⟩, ha⟩

theorem locate_join_of_absent (hf : Fits p name) (he : p.text.isEmpty = false)
    (h : t.find p = .error .notFound) : t.locate (p.join ⟨name⟩) = .error .notFound := by
  rw [locate_eq_notFound (text_join hn.piece p), null_mem_join hn.piece, not_or, walk_join hn.piece]
  rcases find_eq_notFound.1 h with hl | ⟨place, hl, ha⟩
  · obtain ⟨hz, -, hw⟩ := (locate_eq_notFound he).1 hl
    exact ⟨⟨hz, hf.null⟩, hf.path, by rw [hw]⟩
  · obtain ⟨hz, -, -, hw⟩ := locate_eq_ok.1 hl
    refine ⟨⟨hz, hf.null⟩, hf.path, ?_⟩
    rw [hw]
    dsimp only
    rw [walk_name hn, ha]

end

end Patchboard.Tree
