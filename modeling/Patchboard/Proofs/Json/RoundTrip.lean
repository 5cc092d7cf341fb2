import Mathlib.Data.List.TakeWhile
import Patchboard.Json.Parser
import Patchboard.Proofs.Text.Lines

set_option autoImplicit false

namespace Patchboard.Json

def IsGap (s : List Char) : Prop := ∀ c ∈ s, c ∈ [' ', '\n', '\t', '\r']

/-- The blanks of a written form. -/
structure Gaps (feed : Nat → List Char) (gap : List Char) : Prop where
  feed : ∀ depth, IsGap (feed depth)
  gap : IsGap gap

theorem skipBlank_gap {gap : List Char} (h : IsGap gap) (s : List Char) :
    skipBlank (gap ++ s) = skipBlank s := by
  induction gap with
  | nil => rfl
  | cons c gap ih =>
    have hc := h c (List.mem_cons_self ..)
    have hrest := ih fun other ho => h other (List.mem_cons_of_mem _ ho)
    simp only [List.mem_cons, List.not_mem_nil, or_false] at hc
    rcases hc with rfl | rfl | rfl | rfl <;> exact hrest

theorem skipBlank_of_ne {c : Char} (h : c ∉ [' ', '\n', '\t', '\r']) (s : List Char) :
    skipBlank (c :: s) = c :: s := by
  simp only [List.mem_cons, List.not_mem_nil, or_false, not_or] at h
  rw [skipBlank]
  all_goals simp_all

theorem isGap_newline (depth : Nat) : IsGap (newline depth) := by
  intro c hc
  rcases List.mem_cons.1 hc with rfl | hc
  · decide
  · rw [(List.mem_replicate.1 hc).2]
    decide

theorem hexNumeral?_control : ∀ n < 0x20,
    Text.hexNumeral? ['0', '0', Text.hexDigit (n / 16), Text.hexDigit (n % 16)] = some n := by
  decide

theorem unicodeEscape?_control {c : Char} (h : c.toNat < 0x20) (s : List Char) :
    unicodeEscape? ('0' :: '0' :: Text.hexDigit (c.toNat / 16) :: Text.hexDigit (c.toNat % 16) ::
      s) = some (c, s) := by
  have hlow : isLowSurrogate c.toNat = false := by simp [isLowSurrogate]; omega
  have hhigh : isHighSurrogate c.toNat = false := by simp [isHighSurrogate]; omega
  unfold unicodeEscape?
  simp [hexNumeral?_control c.toNat h, hlow, hhigh]

theorem string?_escape {fuel : Nat} {s chars rest : List Char}
    (h : string? fuel s = some (chars, rest)) (c : Char) :
    string? (fuel + 1) (escape c ++ s) = some (c :: chars, rest) := by
  unfold escape
  split
  · simp [string?, simpleEscape?, h]
  · simp [string?, simpleEscape?, h]
  · simp [string?, simpleEscape?, h]
  · simp [string?, simpleEscape?, h]
  · simp [string?, simpleEscape?, h]
  · simp [string?, simpleEscape?, h]
  · simp [string?, simpleEscape?, h]
  · rename_i hquote hslash _ _ _ _ _
    split
    · rename_i hc
      have hcode := unicodeEscape?_control hc s
      simp [string?, h, hcode]
    · rename_i hc
      have hne : c ≠ '\\' := hslash
      rw [List.singleton_append, string?]
      · simp [hc, hne, h]
      · exact hquote
      · rintro t rfl
        exact absurd rfl hslash
      · rintro e t rfl
        exact absurd rfl hslash

theorem string?_quoted (s : List Char) {fuel : Nat} (hf : s.length < fuel) (rest : List Char) :
    string? fuel (s.flatMap escape ++ '"' :: rest) = some (s, rest) := by
  induction s generalizing fuel with
  | nil =>
    obtain ⟨fuel, rfl⟩ := Nat.exists_eq_succ_of_ne_zero (Nat.ne_of_gt hf)
    rfl
  | cons c s ih =>
    obtain ⟨fuel, rfl⟩ := Nat.exists_eq_succ_of_ne_zero (Nat.ne_of_gt (Nat.zero_lt_of_lt hf))
    rw [List.flatMap_cons, List.append_assoc]
    exact string?_escape (ih (Nat.lt_of_succ_lt_succ hf)) c

theorem one_le_length_escape (c : Char) : 1 ≤ (escape c).length := by
  unfold escape
  split
  all_goals first
    | exact Nat.le_add_left 1 1
    | split <;> simp

theorem length_le_flatMap_escape (s : List Char) : s.length ≤ (s.flatMap escape).length := by
  induction s with
  | nil => exact Nat.le_refl 0
  | cons c s ih =>
    have hc := one_le_length_escape c
    rw [List.flatMap_cons, List.length_append, List.length_cons]
    omega

theorem string?_quote (s : String) (rest : List Char) :
    let body := s.toList.flatMap escape ++ '"' :: rest
    string? (body.length + 1) body = some (s.toList, rest) := by
  have hlength := length_le_flatMap_escape s.toList
  refine string?_quoted s.toList ?_ rest
  rw [List.length_append]
  omega

theorem newline_not_mem_escape (c : Char) : '\n' ∉ escape c := by
  unfold escape
  split
  any_goals decide
  rename_i hc _ _ _ _
  split
  · rename_i hcontrol
    have hdigits : ∀ n < 0x20, '\n' ∉ ['\\', 'u', '0', '0', Text.hexDigit (n / 16),
        Text.hexDigit (n % 16)] := by decide
    exact hdigits c.toNat hcontrol
  · rw [List.mem_singleton]
    exact fun h => hc h.symm

theorem newline_not_mem_quote (s : String) : '\n' ∉ quote s := by
  simp [quote, newline_not_mem_escape]

/-- What follows a number does not go on with it. -/
def Stops (rest : List Char) : Prop :=
  ∀ c ∈ rest.head?, c.isDigit = false ∧ c ≠ '.' ∧ c ≠ 'e' ∧ c ≠ 'E'

theorem stops_gap {gap rest : List Char} (h : IsGap gap) (hr : Stops rest) :
    Stops (gap ++ rest) := by
  cases gap with
  | nil => exact hr
  | cons c gap =>
    intro first hf
    obtain rfl : c = first := by simpa using hf
    have hc := h c (List.mem_cons_self ..)
    simp only [List.mem_cons, List.not_mem_nil, or_false] at hc
    rcases hc with rfl | rfl | rfl | rfl <;> decide

theorem stops_cons {c : Char} (h : c ∈ [',', ']', '}']) (rest : List Char) :
    Stops (c :: rest) := by
  intro first hf
  obtain rfl : c = first := by simpa using hf
  simp only [List.mem_cons, List.not_mem_nil, or_false] at h
  rcases h with rfl | rfl | rfl <;> decide

theorem digits1?_toDigits (n : Nat) {rest : List Char} (h : Stops rest) :
    digits1? (Nat.toDigits 10 n ++ rest) = some (Nat.toDigits 10 n, rest) := by
  have hdigit : ∀ c ∈ Nat.toDigits 10 n, c.isDigit = true := fun c hc =>
    Nat.isDigit_of_mem_toDigits (by decide) (by decide) hc
  have htake : rest.takeWhile Char.isDigit = [] := by
    cases rest with
    | nil => rfl
    | cons c rest => simp [(h c rfl).1]
  have hdrop : rest.dropWhile Char.isDigit = rest := by
    cases rest with
    | nil => rfl
    | cons c rest => simp [(h c rfl).1]
  unfold digits1?
  rw [List.takeWhile_append_of_pos hdigit, List.dropWhile_append_of_pos hdigit, htake, hdrop,
    List.append_nil]
  simp [Nat.toDigits_ne_nil]

theorem head?_toDigits {n : Nat} (h : n ≠ 0) : (Nat.toDigits 10 n).head? ≠ some '0' := by
  have hdigit : ∀ m < 10, m ≠ 0 → [m.digitChar].head? ≠ some '0' := by decide
  induction n using Nat.strongRecOn with
  | ind n ih =>
    by_cases hn : n < 10
    · rw [Nat.toDigits_of_lt_base hn]
      exact hdigit n hn h
    · rw [Nat.toDigits_of_base_le (by decide) (by omega), List.head?_append,
        Option.or_of_isSome (by simp [Nat.toDigits_ne_nil])]
      exact ih (n / 10) (by omega) (by omega)

theorem number?_ofInteger (n : Int) {rest : List Char} (h : Stops rest) :
    number? (Text.ofInteger n ++ rest) = some (.integer n, rest) := by
  have hdigits := digits1?_toDigits n.natAbs h
  have hfraction : fractionPart? rest = some ([], rest) := by
    unfold fractionPart?
    split
    · exact absurd rfl (h _ rfl).2.1
    · rfl
  have hexponent : exponentPart? rest = some ([], rest) := by
    unfold exponentPart?
    split
    · rename_i c s
      have hc := (h c rfl).2.2
      rw [if_neg (by simp [hc.1, hc.2])]
    · rfl
  have hvalue := Text.numeral_toDigits n.natAbs
  unfold Text.ofInteger
  split
  · rename_i hn
    have hne : n ≠ 0 := by omega
    have hhead := head?_toDigits (Int.natAbs_ne_zero.2 hne)
    have hsize : n.natAbs ≠ 0 := by omega
    -- Under a name of its own the magnitude is not rewritten before it is compared with `n`.
    generalize hm : n.natAbs = m at hdigits hhead hvalue hsize ⊢
    simp [number?, hdigits, hhead, hfraction, hexponent, hvalue, hsize]
    omega
  · rename_i hn
    have hhead : 1 < (Nat.toDigits 10 n.natAbs).length →
        (Nat.toDigits 10 n.natAbs).head? ≠ some '0' := by
      intro hlong
      refine head?_toDigits fun hzero => ?_
      rw [hzero] at hlong
      exact absurd hlong (by decide)
    obtain ⟨c, digits, hc⟩ :=
      List.exists_cons_of_ne_nil (Nat.toDigits_ne_nil (b := 10) (n := n.natAbs))
    have hdigit : c.isDigit = true :=
      Nat.isDigit_of_mem_toDigits (by decide) (by decide) (hc ▸ List.mem_cons_self ..)
    have hsign : c ≠ '-' := by
      rintro rfl
      cases hdigit
    rw [hc] at hdigits hhead hvalue ⊢
    rw [List.cons_append] at hdigits ⊢
    simp [number?, hsign, hdigits, hfraction, hexponent, hvalue]
    exact ⟨by simpa using hhead, by omega⟩

section
variable (feed : Nat → List Char) (gap : List Char)

mutual

/-- Both written forms: `feed` stands before each item and field and before the closing bracket, and
`gap` after the colon of a field. -/
def spaced (depth : Nat) : Json → List Char
  | .list (item :: items) =>
    '[' :: feed (depth + 1) ++ spaced (depth + 1) item ++ spacedItems (depth + 1) items
      ++ feed depth ++ [']']
  | .object ((key, value) :: fields) =>
    '{' :: feed (depth + 1) ++ quote key ++ ':' :: gap ++ spaced (depth + 1) value
      ++ spacedFields (depth + 1) fields ++ feed depth ++ ['}']
  | .null => word "null"
  | .bool true => word "true"
  | .bool false => word "false"
  | .integer n => Text.ofInteger n
  | .fraction digits => digits
  | .text s => quote s
  | .list [] => ['[', ']']
  | .object [] => ['{', '}']

def spacedItems (depth : Nat) : List Json → List Char
  | [] => []
  | item :: items => ',' :: feed depth ++ spaced depth item ++ spacedItems depth items

def spacedFields (depth : Nat) : List (String × Json) → List Char
  | [] => []
  | (key, value) :: fields =>
    ',' :: feed depth ++ quote key ++ ':' :: gap ++ spaced depth value ++ spacedFields depth fields

end

end

mutual

theorem compact_eq (depth : Nat) : (j : Json) → compact j = spaced (fun _ => []) [] depth j
  | .list (item :: items) => by
    simp [compact, compactItems, spaced, compact_eq (depth + 1) item,
      compactMoreItems_eq (depth + 1) items]
  | .object ((key, value) :: fields) => by
    simp [compact, compactFields, spaced, compact_eq (depth + 1) value,
      compactMoreFields_eq (depth + 1) fields]
  | .null | .bool true | .bool false | .integer _ | .fraction _ | .text _ | .list [] | .object [] =>
    rfl

theorem compactMoreItems_eq (depth : Nat) :
    (items : List Json) → compactMoreItems items = spacedItems (fun _ => []) [] depth items
  | [] => rfl
  | item :: items => by
    simp [compactMoreItems, spacedItems, compact_eq depth item, compactMoreItems_eq depth items]

theorem compactMoreFields_eq (depth : Nat) : (fields : List (String × Json)) →
    compactMoreFields fields = spacedFields (fun _ => []) [] depth fields
  | [] => rfl
  | (key, value) :: fields => by
    simp [compactMoreFields, spacedFields, compact_eq depth value,
      compactMoreFields_eq depth fields]

end

mutual

theorem indented_eq (depth : Nat) : (j : Json) → indented depth j = spaced newline [' '] depth j
  | .list (item :: items) => by
    simp [indented, spaced, indented_eq (depth + 1) item, indentedItems_eq (depth + 1) items]
  | .object ((key, value) :: fields) => by
    simp [indented, spaced, indented_eq (depth + 1) value, indentedFields_eq (depth + 1) fields]
  | .null | .bool true | .bool false | .integer _ | .fraction _ | .text _ | .list [] | .object [] =>
    rfl

theorem indentedItems_eq (depth : Nat) :
    (items : List Json) → indentedItems depth items = spacedItems newline [' '] depth items
  | [] => rfl
  | item :: items => by
    simp [indentedItems, spacedItems, indented_eq depth item, indentedItems_eq depth items]

theorem indentedFields_eq (depth : Nat) : (fields : List (String × Json)) →
    indentedFields depth fields = spacedFields newline [' '] depth fields
  | [] => rfl
  | (key, value) :: fields => by
    simp [indentedFields, spacedFields, indented_eq depth value, indentedFields_eq depth fields]

end

mutual

/-- A value without numbers that were kept as they were written. -/
def Whole : Json → Prop
  | .fraction _ => False
  | .list items => WholeItems items
  | .object fields => WholeFields fields
  | _ => True

def WholeItems : List Json → Prop
  | [] => True
  | item :: items => Whole item ∧ WholeItems items

def WholeFields : List (String × Json) → Prop
  | [] => True
  | (_, value) :: fields => Whole value ∧ WholeFields fields

end

theorem value?_gap {before : List Char} (h : IsGap before) (fuel : Nat) (s : List Char) :
    value? fuel (before ++ s) = value? fuel s := by
  cases fuel with
  | zero => rw [value?, value?]
  | succ fuel => rw [value?, value?, skipBlank_gap h]

mutual

theorem newline_not_mem_compact : (j : Json) → j.Whole → '\n' ∉ compact j
  | .list (item :: items), hw => by
    simp [compact, compactItems, newline_not_mem_compact item hw.1,
      newline_not_mem_compactMoreItems items hw.2]
  | .object ((key, value) :: fields), hw => by
    simp [compact, compactFields, newline_not_mem_quote, newline_not_mem_compact value hw.1,
      newline_not_mem_compactMoreFields fields hw.2]
  | .integer n, _ => by
    have hdigits : '\n' ∉ Nat.toDigits 10 n.natAbs := fun h =>
      absurd (Nat.isDigit_of_mem_toDigits (by decide) (by decide) h) (by decide)
    rw [compact, Text.ofInteger]
    split <;> simp [hdigits]
  | .fraction _, hw => False.elim hw
  | .text s, _ => newline_not_mem_quote s
  | .null, _ | .bool true, _ | .bool false, _ | .list [], _ | .object [], _ => by decide

theorem newline_not_mem_compactMoreItems :
    (items : List Json) → WholeItems items → '\n' ∉ compactMoreItems items
  | [], _ => by simp [compactMoreItems]
  | item :: items, hw => by
    simp [compactMoreItems, newline_not_mem_compact item hw.1,
      newline_not_mem_compactMoreItems items hw.2]

theorem newline_not_mem_compactMoreFields :
    (fields : List (String × Json)) → WholeFields fields → '\n' ∉ compactMoreFields fields
  | [], _ => by simp [compactMoreFields]
  | (key, value) :: fields, hw => by
    simp [compactMoreFields, newline_not_mem_quote, newline_not_mem_compact value hw.1,
      newline_not_mem_compactMoreFields fields hw.2]

end

section
variable {fuel : Nat} {s s' s'' rest : List Char} {key : String} {item value : Json}
  {items : List Json} {fields : List (String × Json)}

theorem value?_quote (fuel : Nat) (s : List Char) : value? (fuel + 1) ('"' :: s) =
    (string? (s.length + 1) s).map fun halves => (.text (String.ofList halves.1), halves.2) := rfl

theorem value?_listOpening (fuel : Nat) (s : List Char) :
    value? (fuel + 1) ('[' :: s) = match skipBlank s with
    | ']' :: rest => some (.list [], rest)
    | s => (items? fuel s).map fun halves => (.list halves.1, halves.2) := rfl

theorem value?_bracket (h : skipBlank s = s') (hs : s'.head? ≠ some ']')
    (hi : items? fuel s' = some (items, rest)) :
    value? (fuel + 1) ('[' :: s) = some (.list items, rest) := by
  rw [value?_listOpening, h]
  split
  · exact absurd rfl hs
  · rw [hi]
    rfl

theorem value?_objectOpening (fuel : Nat) (s : List Char) :
    value? (fuel + 1) ('{' :: s) = match skipBlank s with
    | '}' :: rest => some (.object [], rest)
    | s => (fields? fuel s).map fun halves => (.object halves.1, halves.2) := rfl

theorem value?_brace (h : skipBlank s = s') (hs : s'.head? ≠ some '}')
    (hf : fields? fuel s' = some (fields, rest)) :
    value? (fuel + 1) ('{' :: s) = some (.object fields, rest) := by
  rw [value?_objectOpening, h]
  split
  · exact absurd rfl hs
  · rw [hf]
    rfl

theorem items?_last (h : value? fuel s = some (item, s')) (hs : skipBlank s' = ']' :: rest) :
    items? (fuel + 1) s = some ([item], rest) := by
  rw [items?, h]
  simp [hs]

theorem items?_more (h : value? fuel s = some (item, s')) (hs : skipBlank s' = ',' :: s'')
    (hi : items? fuel s'' = some (items, rest)) :
    items? (fuel + 1) s = some (item :: items, rest) := by
  rw [items?, h]
  simp [hs, hi]

def FieldAt (fuel : Nat) (s : List Char) (key : String) (value : Json) (rest : List Char) : Prop :=
  ∃ t, skipBlank s = '"' :: t ∧ ∃ t', string? (t.length + 1) t = some (key.toList, t') ∧
    ∃ t'', skipBlank t' = ':' :: t'' ∧ value? fuel t'' = some (value, rest)

theorem fields?_last (h : FieldAt fuel s key value s') (hs : skipBlank s' = '}' :: rest) :
    fields? (fuel + 1) s = some ([(key, value)], rest) := by
  obtain ⟨t, ht, t', hkey, t'', hcolon, hvalue⟩ := h
  rw [fields?, ht]
  simp [hkey, hcolon, hvalue, hs]

theorem fields?_more (h : FieldAt fuel s key value s') (hs : skipBlank s' = ',' :: s'')
    (hf : fields? fuel s'' = some (fields, rest)) :
    fields? (fuel + 1) s = some ((key, value) :: fields, rest) := by
  obtain ⟨t, ht, t', hkey, t'', hcolon, hvalue⟩ := h
  rw [fields?, ht]
  simp [hkey, hcolon, hvalue, hs, hf]

end

theorem quote_append (s : String) (rest : List Char) :
    quote s ++ rest = '"' :: (s.toList.flatMap escape ++ '"' :: rest) := by
  simp [quote]

theorem value?_text (s : String) (fuel : Nat) (rest : List Char) :
    value? (fuel + 1) (quote s ++ rest) = some (.text s, rest) := by
  have hstring := string?_quote s rest
  rw [quote_append, value?_quote]
  dsimp only at hstring
  rw [hstring, Option.map_some, String.ofList_toList]

theorem ofInteger_cases (n : Int) : ∃ c s, Text.ofInteger n = c :: s ∧
    c ∉ [' ', '\n', '\t', '\r', '"', '[', ']', '{', '}', 'n', 't', 'f'] := by
  unfold Text.ofInteger
  split
  · exact ⟨'-', _, rfl, by decide⟩
  · obtain ⟨c, digits, hc⟩ :=
      List.exists_cons_of_ne_nil (Nat.toDigits_ne_nil (b := 10) (n := n.natAbs))
    have hdigit : c.isDigit = true :=
      Nat.isDigit_of_mem_toDigits (by decide) (by decide) (hc ▸ List.mem_cons_self ..)
    refine ⟨c, digits, hc, fun hm => ?_⟩
    have hnone : ∀ d ∈ [' ', '\n', '\t', '\r', '"', '[', ']', '{', '}', 'n', 't', 'f'],
        d.isDigit = false := by simp
    rw [hnone c hm] at hdigit
    cases hdigit

theorem value?_integer (n : Int) (fuel : Nat) {rest : List Char} (h : Stops rest) :
    value? (fuel + 1) (Text.ofInteger n ++ rest) = some (.integer n, rest) := by
  have hnumber := number?_ofInteger n h
  obtain ⟨c, s, hc, hne⟩ := ofInteger_cases n
  rw [hc, List.cons_append] at hnumber ⊢
  simp only [List.mem_cons, List.not_mem_nil, or_false, not_or] at hne
  rw [value?, skipBlank_of_ne (by simp [hne])]
  simp [word, Text.after?, hne, Ne.symm, hnumber]

theorem spaced_cases (feed : Nat → List Char) (gap : List Char) (depth : Nat) {j : Json}
    (h : j.Whole) : ∃ c s, spaced feed gap depth j = c :: s ∧
      c ∉ [' ', '\n', '\t', '\r', ']', '}'] := by
  match j with
  | .integer n =>
    obtain ⟨c, s, hc, hne⟩ := ofInteger_cases n
    refine ⟨c, s, by rw [spaced, hc], ?_⟩
    simp only [List.mem_cons, List.not_mem_nil, or_false, not_or] at hne ⊢
    simp [hne]
  | .null => exact ⟨'n', _, rfl, by decide⟩
  | .bool true => exact ⟨'t', _, rfl, by decide⟩
  | .bool false => exact ⟨'f', _, rfl, by decide⟩
  | .fraction digits => exact absurd h (by simp [Whole])
  | .text s => exact ⟨'"', _, rfl, by decide⟩
  | .list [] => exact ⟨'[', _, rfl, by decide⟩
  | .list (item :: items) => exact ⟨'[', _, rfl, by decide⟩
  | .object [] => exact ⟨'{', _, rfl, by decide⟩
  | .object ((key, value) :: fields) => exact ⟨'{', _, rfl, by decide⟩

section
variable {feed : Nat → List Char} {gap : List Char}

theorem stops_spacedItems (h : Gaps feed gap) (depth depth' : Nat)
    (items : List Json) (rest : List Char) :
    Stops (spacedItems feed gap depth items ++ (feed depth' ++ ']' :: rest)) := by
  cases items with
  | nil =>
    have hend := stops_gap (h.feed depth') (stops_cons (c := ']') (by decide) rest)
    simpa [spacedItems] using hend
  | cons item items =>
    rw [spacedItems]
    simp only [List.cons_append]
    exact stops_cons (by decide) _

theorem stops_spacedFields (h : Gaps feed gap) (depth depth' : Nat)
    (fields : List (String × Json)) (rest : List Char) :
    Stops (spacedFields feed gap depth fields ++ (feed depth' ++ '}' :: rest)) := by
  cases fields with
  | nil =>
    have hend := stops_gap (h.feed depth') (stops_cons (c := '}') (by decide) rest)
    simpa [spacedFields] using hend
  | cons field fields =>
    obtain ⟨key, value⟩ := field
    rw [spacedFields]
    simp only [List.cons_append]
    exact stops_cons (by decide) _

theorem items?_gap {before : List Char} (h : IsGap before) (fuel : Nat) (s : List Char) :
    items? fuel (before ++ s) = items? fuel s := by
  cases fuel with
  | zero => rw [items?, items?]
  | succ fuel => rw [items?, items?, value?_gap h]

theorem fields?_gap {before : List Char} (h : IsGap before) (fuel : Nat) (s : List Char) :
    fields? fuel (before ++ s) = fields? fuel s := by
  cases fuel with
  | zero => rw [fields?, fields?]
  | succ fuel => rw [fields?, fields?, skipBlank_gap h]

theorem tail_spacedItems (depth : Nat) (item : Json) (items : List Json) :
    (spacedItems feed gap depth (item :: items)).tail =
      feed depth ++ (spaced feed gap depth item ++ spacedItems feed gap depth items) := by
  rw [spacedItems]
  simp

theorem tail_spacedFields (depth : Nat) (key : String) (value : Json)
    (fields : List (String × Json)) :
    (spacedFields feed gap depth ((key, value) :: fields)).tail = feed depth ++ (quote key ++
      ':' :: (gap ++ (spaced feed gap depth value ++ spacedFields feed gap depth fields))) := by
  rw [spacedFields]
  simp

theorem length_quote_pos (s : String) : 0 < (quote s).length := by simp [quote]

variable (hgaps : Gaps feed gap)
include hgaps

mutual

theorem value?_spaced (depth fuel : Nat) (rest : List Char) (hr : Stops rest) : (j : Json) →
    j.Whole → (spaced feed gap depth j).length ≤ fuel →
      value? fuel (spaced feed gap depth j ++ rest) = some (j, rest)
  | .list (item :: items), hw, hl => by
    rw [spaced] at hl ⊢
    simp only [List.length_append, List.length_cons, List.length_nil] at hl
    obtain ⟨fuel, rfl⟩ := Nat.exists_eq_succ_of_ne_zero (n := fuel) (by omega)
    have hitems := items?_spaced (depth + 1) depth fuel rest (item :: items) hw (by simp) (by
      rw [tail_spacedItems, List.length_append, List.length_append]
      omega)
    obtain ⟨c, s, hc, hne⟩ := spaced_cases feed gap (depth + 1) hw.1
    rw [tail_spacedItems, List.append_assoc, items?_gap (hgaps.feed _), hc] at hitems
    simp only [List.cons_append, List.append_assoc, List.nil_append, hc] at hitems ⊢
    simp only [List.mem_cons, List.not_mem_nil, or_false, not_or] at hne
    refine value?_bracket ?_ ?_ hitems
    · rw [skipBlank_gap (hgaps.feed _), skipBlank_of_ne (by simp [hne])]
    · simp [hne]
  | .object ((key, value) :: fields), hw, hl => by
    rw [spaced] at hl ⊢
    simp only [List.length_append, List.length_cons, List.length_nil] at hl
    obtain ⟨fuel, rfl⟩ := Nat.exists_eq_succ_of_ne_zero (n := fuel) (by omega)
    have hfields := fields?_spaced (depth + 1) depth fuel rest ((key, value) :: fields) hw
      (by simp) (by
        rw [tail_spacedFields]
        simp only [List.length_append, List.length_cons]
        omega)
    rw [tail_spacedFields, List.append_assoc, fields?_gap (hgaps.feed _)] at hfields
    simp only [quote, List.cons_append, List.append_assoc, List.nil_append] at hfields ⊢
    refine value?_brace ?_ ?_ hfields
    · rw [skipBlank_gap (hgaps.feed _), skipBlank_of_ne (by decide)]
    · simp
  | .null, _, hl => by
    obtain ⟨fuel, rfl⟩ := Nat.exists_eq_succ_of_ne_zero (Nat.ne_of_gt (Nat.zero_lt_of_lt hl))
    rfl
  | .bool true, _, hl => by
    obtain ⟨fuel, rfl⟩ := Nat.exists_eq_succ_of_ne_zero (Nat.ne_of_gt (Nat.zero_lt_of_lt hl))
    rfl
  | .bool false, _, hl => by
    obtain ⟨fuel, rfl⟩ := Nat.exists_eq_succ_of_ne_zero (Nat.ne_of_gt (Nat.zero_lt_of_lt hl))
    rfl
  | .integer n, _, hl => by
    obtain ⟨c, s, hc, -⟩ := ofInteger_cases n
    rw [spaced] at hl ⊢
    obtain ⟨fuel, rfl⟩ := Nat.exists_eq_succ_of_ne_zero (n := fuel) (by
      rw [hc, List.length_cons] at hl
      omega)
    exact value?_integer n fuel hr
  | .fraction _, hw, _ => False.elim hw
  | .text s, _, hl => by
    rw [spaced] at hl ⊢
    have hpos := length_quote_pos s
    obtain ⟨fuel, rfl⟩ := Nat.exists_eq_succ_of_ne_zero (n := fuel) (by omega)
    exact value?_text s fuel rest
  | .list [], _, hl => by
    obtain ⟨fuel, rfl⟩ := Nat.exists_eq_succ_of_ne_zero (Nat.ne_of_gt (Nat.zero_lt_of_lt hl))
    rfl
  | .object [], _, hl => by
    obtain ⟨fuel, rfl⟩ := Nat.exists_eq_succ_of_ne_zero (Nat.ne_of_gt (Nat.zero_lt_of_lt hl))
    rfl

theorem items?_spaced (depth depth' fuel : Nat) (rest : List Char) : (items : List Json) →
    WholeItems items → items ≠ [] → (spacedItems feed gap depth items).tail.length < fuel →
      items? fuel ((spacedItems feed gap depth items).tail ++ (feed depth' ++ ']' :: rest)) =
        some (items, rest)
  | [], _, hne, _ => absurd rfl hne
  | item :: items, hw, _, hl => by
    obtain ⟨fuel, rfl⟩ := Nat.exists_eq_succ_of_ne_zero (Nat.ne_of_gt (Nat.zero_lt_of_lt hl))
    have hstops := stops_spacedItems hgaps depth depth' items rest
    rw [tail_spacedItems] at hl ⊢
    simp only [List.length_append] at hl
    have hvalue := value?_spaced depth fuel _ hstops item hw.1 (by omega)
    have hitems := items?_spaced depth depth' fuel rest items hw.2
    rw [List.append_assoc, List.append_assoc, items?_gap (hgaps.feed depth)]
    cases items with
    | nil =>
      refine items?_last hvalue ?_
      rw [spacedItems, List.nil_append, skipBlank_gap (hgaps.feed depth'),
        skipBlank_of_ne (by decide)]
    | cons next items =>
      have hrest := hitems (by simp) (by
        rw [tail_spacedItems]
        rw [spacedItems] at hl
        simp only [List.length_append, List.length_cons] at hl ⊢
        omega)
      refine items?_more hvalue ?_ hrest
      rw [tail_spacedItems, spacedItems]
      simp only [List.cons_append, List.append_assoc]
      exact skipBlank_of_ne (by decide) _

theorem fields?_spaced (depth depth' fuel : Nat) (rest : List Char) :
    (fields : List (String × Json)) → WholeFields fields → fields ≠ [] →
      (spacedFields feed gap depth fields).tail.length < fuel →
      fields? fuel ((spacedFields feed gap depth fields).tail ++ (feed depth' ++ '}' :: rest)) =
        some (fields, rest)
  | [], _, hne, _ => absurd rfl hne
  | (key, value) :: fields, hw, _, hl => by
    obtain ⟨fuel, rfl⟩ := Nat.exists_eq_succ_of_ne_zero (Nat.ne_of_gt (Nat.zero_lt_of_lt hl))
    have hstops := stops_spacedFields hgaps depth depth' fields rest
    rw [tail_spacedFields] at hl ⊢
    simp only [List.length_append, List.length_cons] at hl
    have hvalue := value?_spaced depth fuel _ hstops value hw.1 (by omega)
    have hfields := fields?_spaced depth depth' fuel rest fields hw.2
    have hkey := string?_quote key (':' :: (gap ++ (spaced feed gap depth value ++
      (spacedFields feed gap depth fields ++ (feed depth' ++ '}' :: rest)))))
    have hfield : FieldAt fuel (quote key ++ ':' :: (gap ++ (spaced feed gap depth value ++
        (spacedFields feed gap depth fields ++ (feed depth' ++ '}' :: rest))))) key value
        (spacedFields feed gap depth fields ++ (feed depth' ++ '}' :: rest)) := by
      rw [quote_append]
      exact ⟨_, skipBlank_of_ne (by decide) _, _, hkey, _, skipBlank_of_ne (by decide) _,
        (value?_gap hgaps.gap ..).trans hvalue⟩
    simp only [List.append_assoc, List.cons_append]
    rw [fields?_gap (hgaps.feed depth)]
    cases fields with
    | nil =>
      refine fields?_last hfield ?_
      rw [spacedFields, List.nil_append, skipBlank_gap (hgaps.feed depth'),
        skipBlank_of_ne (by decide)]
    | cons next fields =>
      obtain ⟨key', value'⟩ := next
      have hrest := hfields (by simp) (by
        rw [tail_spacedFields]
        rw [spacedFields] at hl
        simp only [List.length_append, List.length_cons] at hl ⊢
        omega)
      refine fields?_more hfield ?_ hrest
      rw [tail_spacedFields, spacedFields]
      simp only [List.cons_append, List.append_assoc]
      exact skipBlank_of_ne (by decide) _

end

theorem parse?_spaced (depth : Nat) {j : Json} (h : j.Whole) :
    parse? (String.ofList (spaced feed gap depth j)) = some j := by
  have hvalue := value?_spaced hgaps depth (2 * (spaced feed gap depth j).length + 2) []
    (by simp [Stops]) j h (by omega)
  rw [List.append_nil] at hvalue
  unfold parse?
  rw [String.length_ofList, String.toList_ofList, hvalue]
  rfl

end

theorem parse?_render {j : Json} (h : j.Whole) : parse? j.render = some j := by
  have hgaps : Gaps (fun _ => []) [] := ⟨by simp [IsGap], by simp [IsGap]⟩
  rw [render, compact_eq 0]
  exact parse?_spaced hgaps 0 h

theorem parse?_renderIndented {j : Json} (h : j.Whole) : parse? j.renderIndented = some j := by
  have hgaps : Gaps newline [' '] := ⟨isGap_newline, by simp [IsGap]⟩
  rw [renderIndented, indented_eq]
  exact parse?_spaced hgaps 0 h

end Patchboard.Json
