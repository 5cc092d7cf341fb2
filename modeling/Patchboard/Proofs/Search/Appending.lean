import Patchboard.Proofs.Search.Literal

set_option autoImplicit false

/-!
Taking back an addition at the end of a file. The addition stands before the longest closing of the
file, and the reversed search looks for it before a closing, the leftmost place first. That is the
place of the addition unless the addition begins once more further to the left and what follows it
there is a longer closing. This needs an addition that is made of the characters of a closing.
-/

namespace Patchboard.Search
open Pattern

def retraction (s : Search) : Search := ⟨.atEnd, false, s.loose, s.add, ""⟩

theorem reversed_atEnd {s : Search} (hs : s.IsLiteral) (hp : s.position = .atEnd) :
    s.reversed = .ok s.retraction := by
  unfold reversed
  rw [if_neg (by simp [hs.noPattern]), hp]
  rfl

theorem isLiteral_retraction {s : Search} (hs : s.IsLiteral) : s.retraction.IsLiteral :=
  ⟨rfl, hs.noLoose⟩

/-- A text that stands once more before its own end, with `mark` behind it, holds no character
that `mark` does not hold. -/
theorem mem_of_shifted {mark : List Char} (hm : mark ≠ []) {body t : List Char}
    (h : t ++ mark <:+ body ++ t) {c : Char} (hc : c ∈ t) : c ∈ mark := by
  have ht : t <:+ body ++ t := List.suffix_append ..
  have hmark : mark <:+ body ++ t := (List.suffix_append ..).trans h
  rcases Nat.le_total t.length mark.length with hle | hle
  · exact (List.suffix_of_suffix_length_le ht hmark hle).subset hc
  · -- The text ends in `mark`, and what stands before that is shifted in the same way.
    obtain ⟨t', rfl⟩ := List.suffix_of_suffix_length_le hmark ht hle
    rcases List.mem_append.1 hc with hc | hc
    · have hshift : t' ++ mark <:+ body ++ t' := by
        obtain ⟨u, hu⟩ := h
        rw [← List.append_assoc, ← List.append_assoc body] at hu
        exact ⟨u, List.append_cancel_right hu⟩
      have hshort : t'.length < (t' ++ mark).length := by
        have hpos := List.length_pos_iff.2 hm
        simp only [List.length_append]
        omega
      exact mem_of_shifted hm hshift hc
    · exact hc
termination_by t.length

/-- What the addition at the end of a file could be completed by, so that it is taken for an earlier
one: a text that makes a longer closing together with the one that is there. -/
def Mistaken (add body tail mark : List Char) : Prop :=
  mark ≠ [] ∧ mark ++ tail ∈ closings ∧ add ++ mark <:+ body ++ add

/-- The characters that closings are made of. -/
def closingChars : List Char := ['\n', '?', '>']

theorem mem_closingChars {closing : List Char} (h : closing ∈ closings) {c : Char}
    (hc : c ∈ closing) : c ∈ closingChars := by
  have hall : ∀ closing ∈ closings, ∀ c ∈ closing, c ∈ closingChars := by
    simp [closings, closingChars]
  exact hall closing h c hc

theorem Mistaken.mem_closingChars {add body tail mark : List Char}
    (h : Mistaken add body tail mark) {c : Char} (hc : c ∈ add) : c ∈ closingChars := by
  obtain ⟨hne, hclosing, hshift⟩ := h
  exact Search.mem_closingChars hclosing
    (List.mem_append_left tail (mem_of_shifted hne hshift hc))

/-- Where an addition is looked for that stands before the longest closing of a text: at some place
with a closing behind it that ends in the one that is there. -/
theorem exists_closingPlace? (add body : List Char) {tail : List Char} (ht : tail ∈ closings) :
    ∃ u mark, closingPlace? add (body ++ add ++ tail) = some (u, mark ++ tail) ∧
      mark ++ tail ∈ closings ∧ u ++ add ++ mark = body ++ add ∧
      ∀ other ∈ closings, add ++ other <:+ body ++ add ++ tail →
        other.length ≤ (mark ++ tail).length := by
  have hthere : ((add ++ tail).isSuffixOf (body ++ add ++ tail)) = true := by
    rw [List.isSuffixOf_iff_suffix, List.append_assoc]
    exact List.suffix_append ..
  cases hc : closings.find? fun rest => (add ++ rest).isSuffixOf (body ++ add ++ tail) with
  | none => exact absurd hthere (by simpa using List.find?_eq_none.1 hc tail ht)
  | some rest =>
    have hsuf := List.find?_some hc
    obtain ⟨u, hu⟩ := List.isSuffixOf_iff_suffix.1 hsuf
    have hle : tail.length ≤ rest.length := length_le_of_find? hc ht hthere
    have htail : tail <:+ rest :=
      List.suffix_of_suffix_length_le (List.suffix_append ..)
        ((List.suffix_append ..).trans (List.isSuffixOf_iff_suffix.1 hsuf)) hle
    obtain ⟨mark, rfl⟩ := htail
    have hsame : u ++ add ++ mark = body ++ add := by
      rw [← List.append_assoc, ← List.append_assoc] at hu
      exact List.append_cancel_right hu
    refine ⟨u, mark, ?_, List.mem_of_find?_eq_some hc, hsame, fun other ho hs => ?_⟩
    · unfold closingPlace?
      rw [hc, Option.map_some, ← hu]
      simp
    · exact length_le_of_find? hc ho (List.isSuffixOf_iff_suffix.2 hs)

/-- Without the addition that is found the text is the original one exactly when the addition is not
mistaken for an earlier one. -/
theorem LongestClosing.restored_iff {h body tail : List Char} (hl : LongestClosing h body tail)
    {add u mark : List Char} (hmark : mark ++ tail ∈ closings)
    (hsame : u ++ add ++ mark = body ++ add)
    (hlongest : ∀ other ∈ closings, add ++ other <:+ body ++ add ++ tail →
      other.length ≤ (mark ++ tail).length) :
    u ++ (mark ++ tail) = h ↔ ∀ mark, ¬ Mistaken add body tail mark := by
  have hshift : add ++ mark <:+ body ++ add := ⟨u, by rw [← List.append_assoc, hsame]⟩
  constructor
  · rintro hh mark' ⟨hne, hclosing, hshift'⟩
    -- The original text ends in the closing that was found, which is therefore the longest one.
    have hshort := hl.longest _ hmark ⟨u, hh⟩
    have hfound := hlongest _ hclosing (by
      rw [← List.append_assoc]
      obtain ⟨v, hv⟩ := hshift'
      exact ⟨v, by rw [← hv]; simp⟩)
    have hpos := List.length_pos_iff.2 hne
    simp only [List.length_append] at hshort hfound
    omega
  · intro hnone
    have hempty : mark = [] :=
      Decidable.byContradiction fun hne => hnone mark ⟨hne, hmark, hshift⟩
    subst hempty
    rw [List.append_nil] at hsame
    rw [List.append_cancel_right hsame, hl.whole]
    rfl

/-- An addition at the end of a file is found again by its reversal, which takes exactly the addition
away unless it is mistaken for an earlier one. It never is when it holds any other character than
those of a closing. -/
theorem append_reversed_iff {s : Search} (hs : s.IsLiteral) (hp : s.position = .atEnd)
    (he : s.search = "") (hne : s.add ≠ "") (hadd : Clear s.add.toList) {h : List Char}
    (hh : Clear h) :
    ∃ r c c' body tail, s.reversed = .ok r ∧ s.compile = .ok c ∧ r.compile = .ok c' ∧
      c.isFound h = true ∧ LongestClosing h body tail ∧
      revealed (c.applyOnce h) = body ++ s.add.toList ++ tail ∧
      c'.isFound (revealed (c.applyOnce h)) = true ∧
      (revealed (c'.applyOnce (revealed (c.applyOnce h))) = h ↔
        ∀ mark, ¬ Mistaken s.add.toList body tail mark) ∧
      ((∃ x ∈ s.add.toList, x ∉ closingChars) →
        revealed (c'.applyOnce (revealed (c.applyOnce h))) = h) := by
  obtain ⟨body, tail, hplace, hl⟩ := closingPlace?_nil h
  have hplace : s.place? h = some (body, tail) := by
    simp only [place?, hp, he]
    exact hplace
  have hedited : revealed (s.literalCompiled.applyOnce h) = body ++ s.add.toList ++ tail := by
    rw [revealed_applyOnce hadd hh hplace, hp, he]
    rfl
  have hclear := hh
  rw [hl.whole, clear_append] at hclear
  have hclear' : Clear (body ++ s.add.toList ++ tail) :=
    clear_append.2 ⟨clear_append.2 ⟨hclear.1, hadd⟩, hclear.2⟩
  obtain ⟨u, mark, hfound, hmark, hsame, hlongest⟩ :=
    exists_closingPlace? s.add.toList body hl.closing
  have hback : s.retraction.place? (body ++ s.add.toList ++ tail) = some (u, mark ++ tail) := hfound
  have hrestored : revealed (s.retraction.literalCompiled.applyOnce
      (body ++ s.add.toList ++ tail)) = u ++ (mark ++ tail) := by
    have hempty : ¬ s.retraction.search.toList.isEmpty = true := by simpa [retraction] using hne
    have hnothing : Clear s.retraction.add.toList := ⟨by simp [retraction], by simp [retraction]⟩
    rw [revealed_applyOnce hnothing hclear' hback]
    exact if_neg hempty
  have hiff := hl.restored_iff hmark hsame hlongest
  refine ⟨s.retraction, s.literalCompiled, s.retraction.literalCompiled, body, tail,
    reversed_atEnd hs hp, compile_literal hs, compile_literal (isLiteral_retraction hs), ?_, hl,
    hedited, ?_, ?_, ?_⟩
  · rw [isFound_literal, hplace]
    rfl
  · rw [hedited, isFound_literal, hback]
    rfl
  · rw [hedited, hrestored]
    exact hiff
  · rintro ⟨x, hx, hother⟩
    rw [hedited, hrestored]
    exact hiff.2 fun mark hm => hother (hm.mem_closingChars hx)

/-- A closing tag that the file ends in already, but for a line end. -/
theorem append_reversed_closing : (literal .atEnd "" "?>\n$x").IsLiteral ∧
    "?>\n$x" ≠ "" ∧ Clear "?>\n$x".toList ∧ Clear "<?php\n?>\n\n".toList ∧
    ∃ r c c' body tail, (literal .atEnd "" "?>\n$x").reversed = .ok r ∧
      (literal .atEnd "" "?>\n$x").compile = .ok c ∧ r.compile = .ok c' ∧
      c.isFound "<?php\n?>\n\n".toList = true ∧
      LongestClosing "<?php\n?>\n\n".toList body tail ∧
      revealed (c.applyOnce "<?php\n?>\n\n".toList) = body ++ "?>\n$x".toList ++ tail ∧
      c'.isFound (revealed (c.applyOnce "<?php\n?>\n\n".toList)) = true ∧
      revealed (c'.applyOnce (revealed (c.applyOnce "<?php\n?>\n\n".toList))) =
        "<?php\n?>\n\n".toList := by
  have hs : (literal .atEnd "" "?>\n$x").IsLiteral := ⟨rfl, rfl⟩
  have hne : "?>\n$x" ≠ "" := by decide
  have hadd : Clear "?>\n$x".toList := by decide
  have hh : Clear "<?php\n?>\n\n".toList := by decide
  obtain ⟨r, c, c', body, tail, hr, hc, hc', hfound, hl, hedited, hfound', -, hback⟩ :=
    append_reversed_iff hs rfl rfl hne hadd hh
  exact ⟨hs, hne, hadd, hh, r, c, c', body, tail, hr, hc, hc', hfound, hl, hedited, hfound',
    hback ⟨'x', by decide, by decide⟩⟩

/-- With a second closing tag behind the first one, the first one is taken away. -/
theorem append_reversed_mistaken : ∃ r c c', (literal .atEnd "" "?>").reversed = .ok r ∧
    (literal .atEnd "" "?>").compile = .ok c ∧ r.compile = .ok c' ∧
    revealed (c.applyOnce "?>\n\n".toList) = "?>\n?>\n".toList ∧
    revealed (c'.applyOnce "?>\n?>\n".toList) = "\n?>\n".toList := by
  have hs : (literal .atEnd "" "?>").IsLiteral := ⟨rfl, rfl⟩
  refine ⟨_, _, _, reversed_atEnd hs rfl, compile_literal hs,
    compile_literal (isLiteral_retraction hs), ?_, ?_⟩
  all_goals decide +kernel

end Patchboard.Search
