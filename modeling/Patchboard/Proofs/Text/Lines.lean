import Mathlib.Data.List.TakeWhile
import Patchboard.Text.Numeral

set_option autoImplicit false

namespace Patchboard.Text

theorem splitOn_ne_nil (separator : Char) (s : List Char) : splitOn separator s ≠ [] := by
  induction s with
  | nil => simp [splitOn]
  | cons c s ih =>
    rw [splitOn]
    split
    · simp
    · split <;> simp

theorem splitOn_of_not_mem {separator : Char} {s : List Char} (h : separator ∉ s) :
    splitOn separator s = [s] := by
  induction s with
  | nil => rfl
  | cons c s ih =>
    rw [List.mem_cons, not_or] at h
    rw [splitOn, if_neg (Ne.symm h.1), ih h.2]

theorem splitOn_cons_of_ne {separator c : Char} (hc : c ≠ separator) {s piece : List Char}
    {pieces : List (List Char)} (h : splitOn separator s = piece :: pieces) :
    splitOn separator (c :: s) = (c :: piece) :: pieces := by
  rw [splitOn, if_neg hc, h]

theorem splitOn_append (separator : Char) (s s' : List Char) :
    splitOn separator (s ++ separator :: s') = splitOn separator s ++ splitOn separator s' := by
  induction s with
  | nil => simp [splitOn]
  | cons c s ih =>
    by_cases hc : c = separator
    · rw [List.cons_append, splitOn, splitOn, if_pos hc, if_pos hc, ih]
      rfl
    · cases hs : splitOn separator s with
      | nil => exact absurd hs (splitOn_ne_nil separator s)
      | cons piece pieces =>
        rw [hs] at ih
        rw [splitOn_cons_of_ne hc hs, List.cons_append, splitOn_cons_of_ne hc ih]
        rfl

theorem not_mem_of_mem_splitOn {separator : Char} {s piece : List Char}
    (h : piece ∈ splitOn separator s) : separator ∉ piece := by
  induction s generalizing piece with
  | nil =>
    rw [splitOn, List.mem_singleton] at h
    simp [h]
  | cons c s ih =>
    by_cases hc : c = separator
    · rw [splitOn, if_pos hc] at h
      rcases List.mem_cons.1 h with rfl | h
      · simp
      · exact ih h
    · cases hs : splitOn separator s with
      | nil => exact absurd hs (splitOn_ne_nil separator s)
      | cons first pieces =>
        rw [hs] at ih
        rw [splitOn_cons_of_ne hc hs] at h
        rcases List.mem_cons.1 h with rfl | h
        · rw [List.mem_cons, not_or]
          exact ⟨Ne.symm hc, ih (List.mem_cons_self ..)⟩
        · exact ih (List.mem_cons_of_mem _ h)

theorem splitOn_intercalate {separator : Char} {pieces : List (List Char)} (hne : pieces ≠ [])
    (h : ∀ piece ∈ pieces, separator ∉ piece) :
    splitOn separator ([separator].intercalate pieces) = pieces := by
  induction pieces with
  | nil => exact absurd rfl hne
  | cons piece pieces ih =>
    have hpiece := splitOn_of_not_mem (h piece (List.mem_cons_self ..))
    cases pieces with
    | nil => rw [List.intercalate_singleton, hpiece]
    | cons next pieces =>
      have hrest := ih (by simp) fun other ho => h other (List.mem_cons_of_mem _ ho)
      rw [List.intercalate_cons_cons, List.append_assoc, List.singleton_append, splitOn_append,
        hpiece, hrest]
      rfl

theorem of_mem_intercalate {separator c : Char} {pieces : List (List Char)}
    (h : c ∈ [separator].intercalate pieces) : c = separator ∨ ∃ piece ∈ pieces, c ∈ piece := by
  induction pieces with
  | nil => cases h
  | cons piece pieces ih =>
    cases pieces with
    | nil =>
      rw [List.intercalate_singleton] at h
      exact .inr ⟨piece, List.mem_singleton_self _, h⟩
    | cons next pieces =>
      rw [List.intercalate_cons_cons, List.mem_append, List.mem_append, List.mem_singleton] at h
      rcases h with (h | h) | h
      · exact .inr ⟨piece, List.mem_cons_self .., h⟩
      · exact .inl h
      · exact (ih h).imp_right fun ⟨other, ho, hc⟩ => ⟨other, List.mem_cons_of_mem _ ho, hc⟩

def unlines (ls : List (List Char)) : List Char := ls.flatMap (· ++ ['\n'])

theorem splitOn_unlines {ls : List (List Char)} (h : ∀ l ∈ ls, '\n' ∉ l) :
    splitOn '\n' (unlines ls) = ls ++ [[]] := by
  induction ls with
  | nil => rfl
  | cons l ls ih =>
    have hl := splitOn_of_not_mem (h l (List.mem_cons_self ..))
    have hrest := ih fun l' hl' => h l' (List.mem_cons_of_mem _ hl')
    have happend : unlines (l :: ls) = l ++ '\n' :: unlines ls := by simp [unlines]
    rw [happend, splitOn_append, hl, hrest]
    rfl

theorem dropLast?_of_ne {c : Char} {s : List Char} (h : s.getLast? ≠ some c) :
    dropLast? c s = s := by
  rw [dropLast?, if_neg h]

theorem lines_unlines {ls : List (List Char)} (h : ∀ l ∈ ls, '\n' ∉ l)
    (hr : ∀ l ∈ ls, l.getLast? ≠ some '\r') : lines (unlines ls) = ls := by
  have hmap : ls.map (dropLast? '\r') = ls :=
    (List.map_congr_left fun l hl => dropLast?_of_ne (hr l hl)).trans (List.map_id' ls)
  unfold lines
  rw [splitOn_unlines h, List.reverse_concat]
  dsimp only
  rw [List.map_reverse, List.reverse_reverse, hmap]
  exact List.append_nil ls

theorem mem_of_mem_dropLast? {c c' : Char} {s : List Char} (h : c' ∈ dropLast? c s) : c' ∈ s := by
  unfold dropLast? at h
  split at h
  · exact List.dropLast_subset _ h
  · exact h

theorem not_mem_of_mem_lines {s l : List Char} (h : l ∈ lines s) : '\n' ∉ l := by
  have hpieces : ∀ l' ∈ (splitOn '\n' s).reverse, '\n' ∉ l' := fun l' hl' =>
    not_mem_of_mem_splitOn (List.mem_reverse.1 hl')
  unfold lines at h
  split at h
  · simp at h
  · rename_i last earlier hs
    rw [hs] at hpieces
    rcases List.mem_append.1 h with h | h
    · obtain ⟨l', hl', rfl⟩ := List.mem_map.1 (List.mem_reverse.1 h)
      exact fun hc => hpieces l' (List.mem_cons_of_mem _ hl') (mem_of_mem_dropLast? hc)
    · split at h
      · simp at h
      · rw [List.mem_singleton.1 h]
        exact hpieces last (List.mem_cons_self ..)

/-- A text whose last character, if it has one, is not blank. -/
def EndsBare (s : List Char) : Prop := ∀ c ∈ s.getLast?, isBlank c = false

instance (s : List Char) : Decidable (EndsBare s) := Option.decidableForallMem s.getLast?

theorem endsBare_trimEnd (s : List Char) : EndsBare (trimEnd s) := by
  intro c hc
  have hhead := List.head?_dropWhile_not isBlank s.reverse
  rw [trimEnd, List.getLast?_reverse, Option.mem_def] at hc
  rwa [hc] at hhead

theorem trimEnd_of_endsBare {s : List Char} (h : EndsBare s) : trimEnd s = s := by
  unfold EndsBare at h
  rw [← List.head?_reverse] at h
  unfold trimEnd
  cases hs : s.reverse with
  | nil =>
    rw [List.reverse_eq_nil_iff] at hs
    rw [hs]
    rfl
  | cons c rest =>
    have hc := h c (by rw [hs]; rfl)
    rw [List.dropWhile_cons_of_neg (by simp [hc]), ← hs, List.reverse_reverse]

theorem endsBare_of_append {s s' : List Char} (h : EndsBare (s ++ s')) : EndsBare s' := by
  intro c hc
  refine h c ?_
  rw [Option.mem_def] at hc ⊢
  rw [List.getLast?_append, hc]
  rfl

theorem endsBare_append {s s' : List Char} (hs : EndsBare s) (hs' : EndsBare s') :
    EndsBare (s ++ s') := by
  intro c hc
  cases s' with
  | nil =>
    rw [List.append_nil] at hc
    exact hs c hc
  | cons first rest =>
    rw [Option.mem_def, List.getLast?_append] at hc
    exact hs' c (by simpa using hc)

theorem trimStart_of_head {c : Char} {s : List Char} (h : isBlank c = false) :
    trimStart (c :: s) = c :: s :=
  List.dropWhile_cons_of_neg (by simp [h])

theorem trim_eq_nil {s : List Char} : trim s = [] ↔ s.all isBlank = true := by
  rw [trim, trimEnd, List.reverse_eq_nil_iff, List.dropWhile_eq_nil_iff, List.all_eq_true]
  simp only [List.mem_reverse, trimStart]
  constructor
  · intro h c hc
    rw [← List.takeWhile_append_dropWhile (p := isBlank) (l := s)] at hc
    exact (List.mem_append.1 hc).elim List.mem_takeWhile_imp (h c)
  · exact fun h c hc => h c ((List.dropWhile_sublist _).mem hc)

theorem ne_carriageReturn_of_endsBare {s : List Char} (h : EndsBare s) :
    s.getLast? ≠ some '\r' := by
  intro hr
  have hblank := h '\r' hr
  simp [isBlank, blankRanges] at hblank

theorem splitOnce?_of_not_mem {separator : Char} {s : List Char} (h : separator ∉ s) :
    splitOnce? separator s = none := by
  induction s with
  | nil => rfl
  | cons c s ih =>
    rw [List.mem_cons, not_or] at h
    rw [splitOnce?, if_neg (Ne.symm h.1), ih h.2]
    rfl

theorem splitOnce?_append {separator : Char} {s : List Char} (h : separator ∉ s)
    (s' : List Char) : splitOnce? separator (s ++ separator :: s') = some (s, s') := by
  induction s with
  | nil => simp [splitOnce?]
  | cons c s ih =>
    rw [List.mem_cons, not_or] at h
    rw [List.cons_append, splitOnce?, if_neg (Ne.symm h.1), ih h.2]
    rfl

theorem eq_append_of_splitOnce? {separator : Char} {s before rest : List Char}
    (h : splitOnce? separator s = some (before, rest)) : s = before ++ separator :: rest := by
  induction s generalizing before with
  | nil => simp [splitOnce?] at h
  | cons c s ih =>
    rw [splitOnce?] at h
    split at h
    · rename_i hc
      cases h
      rw [hc]
      rfl
    · obtain ⟨halves, hs, heq⟩ := Option.map_eq_some_iff.1 h
      cases heq
      rw [ih hs]
      rfl

theorem numeral_toDigits (n : Nat) : numeral (Nat.toDigits 10 n) = n := Nat.ofDigitChars_ten_toDigits

theorem takeWhile_toDigits (n : Nat) :
    (Nat.toDigits 10 n).takeWhile Char.isDigit = Nat.toDigits 10 n :=
  List.takeWhile_eq_self_iff.2 fun _ hc =>
    Nat.isDigit_of_mem_toDigits (by decide) (by decide) hc

theorem dropPlus_toDigits (n : Nat) : dropPlus (Nat.toDigits 10 n) = Nat.toDigits 10 n := by
  unfold dropPlus
  split
  · rename_i s hs
    have hplus : '+' ∈ Nat.toDigits 10 n := by rw [hs]; exact List.mem_cons_self ..
    have hdigit := Nat.isDigit_of_mem_toDigits (by decide) (by decide) hplus
    simp at hdigit
  · rfl

theorem natural?_decimal {bound n : Nat} (h : n < bound) :
    natural? bound (decimal n).toList = .ok n := by
  have hne : (Nat.toDigits 10 n).isEmpty = false := by simp
  unfold natural? decimal
  rw [String.toList_ofList, dropPlus_toDigits]
  dsimp only
  rw [takeWhile_toDigits, numeral_toDigits, hne, if_neg Bool.false_ne_true, if_neg (by omega),
    if_neg (by simp)]

end Patchboard.Text
