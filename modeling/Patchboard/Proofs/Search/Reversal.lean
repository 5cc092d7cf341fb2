import Patchboard.Proofs.Search.Literal

set_option autoImplicit false

namespace Patchboard.Search
open Pattern

def withdrawal (s : Search) : Search :=
  ⟨.replace, false, s.loose, s.search ++ s.add, s.search⟩

theorem reversed_after {s : Search} (hs : s.IsLiteral) (hp : s.position = .after) :
    s.reversed = .ok s.withdrawal := by
  unfold reversed
  rw [if_neg (by simp [hs.noPattern]), hp]
  rfl

theorem isLiteral_withdrawal {s : Search} (hs : s.IsLiteral) : s.withdrawal.IsLiteral :=
  ⟨rfl, hs.noLoose⟩

/-- An addition behind a literal text is found at the first place of the text, and its reversal takes
it away from there and leaves the text as it was. -/
theorem after_reversed {s : Search} (hs : s.IsLiteral) (hp : s.position = .after)
    (hadd : Clear s.add.toList) {h : List Char} (hh : Clear h) (hin : s.search.toList <:+: h) :
    ∃ r c c', s.reversed = .ok r ∧ s.compile = .ok c ∧ r.compile = .ok c' ∧
      c.isFound h = true ∧
      (∃ before after, Text.FirstOccurrence s.search.toList h before after ∧
        revealed (c.applyOnce h) = before ++ s.search.toList ++ s.add.toList ++ after) ∧
      c'.isFound (revealed (c.applyOnce h)) = true ∧
      revealed (c'.applyOnce (revealed (c.applyOnce h))) = h := by
  obtain ⟨⟨before, after⟩, hcut⟩ := Option.isSome_iff_exists.1 (Text.infix_of_cut?.2 hin)
  have hfirst := Text.firstOccurrence_of_cut? hcut
  have hplace : s.place? h = some (before, after) :=
    (place?_of_ne_atEnd (by simp [hp]) h).trans hcut
  have hinserted : revealed (s.literalCompiled.applyOnce h) =
      before ++ (s.search.toList ++ s.add.toList) ++ after := by
    rw [revealed_applyOnce hadd hh hplace, hp]
    simp [edited]
  have hclear := hh
  rw [hfirst.whole, clear_append, clear_append] at hclear
  obtain ⟨⟨hbefore, hsearch⟩, hafter⟩ := hclear
  have hclear' : Clear (before ++ (s.search.toList ++ s.add.toList) ++ after) :=
    clear_append.2 ⟨clear_append.2 ⟨hbefore, clear_append.2 ⟨hsearch, hadd⟩⟩, hafter⟩
  -- The place where the reversal applies is the place of the addition.
  have hback : s.withdrawal.place? (before ++ (s.search.toList ++ s.add.toList) ++ after) =
      some (before, after) := by
    rw [place?_of_ne_atEnd (by simp [withdrawal]), Text.cut?_eq_some_iff]
    simpa only [withdrawal, String.toList_append] using hfirst.lengthened s.add.toList
  refine ⟨s.withdrawal, s.literalCompiled, s.withdrawal.literalCompiled, reversed_after hs hp,
    compile_literal hs, compile_literal (isLiteral_withdrawal hs), ?_,
    ⟨before, after, hfirst, by rw [hinserted]; simp⟩, ?_, ?_⟩
  · rw [isFound_literal, hplace]
    rfl
  · rw [hinserted, isFound_literal, hback]
    rfl
  · rw [hinserted, revealed_applyOnce hsearch hclear' hback, hfirst.whole]
    rfl

/-- The text and its addition overlap with themselves and with each other. -/
theorem after_reversed_overlapping : (literal .after "aa" "a$a").IsLiteral ∧
    "aa".toList <:+: "baaaa".toList ∧
    ∃ r c c', (literal .after "aa" "a$a").reversed = .ok r ∧
      (literal .after "aa" "a$a").compile = .ok c ∧ r.compile = .ok c' ∧
      c.isFound "baaaa".toList = true ∧
      (∃ before after, Text.FirstOccurrence "aa".toList "baaaa".toList before after ∧
        revealed (c.applyOnce "baaaa".toList) =
          before ++ "aa".toList ++ "a$a".toList ++ after) ∧
      c'.isFound (revealed (c.applyOnce "baaaa".toList)) = true ∧
      revealed (c'.applyOnce (revealed (c.applyOnce "baaaa".toList))) = "baaaa".toList := by
  have hs : (literal .after "aa" "a$a").IsLiteral := ⟨rfl, rfl⟩
  have hin : "aa".toList <:+: "baaaa".toList := ⟨"b".toList, "aa".toList, by decide⟩
  exact ⟨hs, hin, after_reversed hs rfl (by decide) (by decide) hin⟩

end Patchboard.Search
