import Patchboard.Proofs.Patch.Undo.Editing
import Patchboard.Proofs.Search.Literal

set_option autoImplicit false

namespace Patchboard

namespace Search
open Pattern

/-- The search that takes an addition in front of a text away again. -/
def removal (s : Search) : Search :=
  ⟨.replace, false, s.loose, s.add ++ s.search, s.search⟩

theorem reversed_before {s : Search} (hs : s.IsLiteral) (hp : s.position = .before) :
    s.reversed = .ok s.removal := by
  unfold reversed
  rw [if_neg (by simp [hs.noPattern]), hp]
  rfl

theorem isLiteral_removal {s : Search} (hs : s.IsLiteral) : s.removal.IsLiteral :=
  ⟨rfl, hs.noLoose⟩

/-- An addition in front of the first occurrence of a text is taken away by its reversal exactly
when it is the first place where the addition and the text stand together. -/
theorem removal_iff {s : Search} (hp : s.position = .before) (hadd : Clear s.add.toList)
    {h before after : List Char} (hh : Clear h)
    (hfirst : Text.FirstOccurrence s.search.toList h before after) :
    s.literalCompiled.isFound h = true ∧
      revealed (s.literalCompiled.applyOnce h) =
        before ++ (s.add ++ s.search).toList ++ after ∧
      s.removal.literalCompiled.isFound (before ++ (s.add ++ s.search).toList ++ after) = true ∧
      (revealed (s.removal.literalCompiled.applyOnce
          (before ++ (s.add ++ s.search).toList ++ after)) = h ↔
        Text.FirstOccurrence (s.add ++ s.search).toList
          (before ++ (s.add ++ s.search).toList) before []) := by
  have hplace : s.place? h = some (before, after) :=
    (place?_of_ne_atEnd (by simp [hp]) h).trans (Text.cut?_eq_some_iff.2 hfirst)
  have hclear := hh
  rw [hfirst.whole, clear_append, clear_append] at hclear
  obtain ⟨⟨hbefore, hsearch⟩, hafter⟩ := hclear
  have hlong : Clear (s.add ++ s.search).toList := by
    rw [String.toList_append]
    exact clear_append.2 ⟨hadd, hsearch⟩
  have hclear' : Clear (before ++ (s.add ++ s.search).toList ++ after) :=
    clear_append.2 ⟨clear_append.2 ⟨hbefore, hlong⟩, hafter⟩
  obtain ⟨u, v, hfound⟩ := Text.exists_firstOccurrence
    (p := (s.add ++ s.search).toList) (s := before ++ (s.add ++ s.search).toList ++ after)
    ⟨before, after, rfl⟩
  have hback : s.removal.place? (before ++ (s.add ++ s.search).toList ++ after) = some (u, v) :=
    (place?_of_ne_atEnd (by simp [removal]) _).trans (Text.cut?_eq_some_iff.2 hfound)
  refine ⟨by rw [isFound_literal, hplace]; rfl, ?_, by rw [isFound_literal, hback]; rfl, ?_⟩
  · rw [revealed_applyOnce hadd hh hplace, hp]
    simp [edited]
  · rw [revealed_applyOnce hsearch hclear' hback]
    exact (hfirst.restores_iff hfound).trans Text.firstOccurrence_append_iff

end Search

namespace Patch
open Search Boardmod

/-- An addition in front of a text is taken away by undoing it, and the file is as it was, exactly
when it is found again where it was put: in a modification, which changes the first occurrence of the
text, behind what stands before that; in a tagged stream, which changes all of them, behind each of
the pieces. -/
theorem before_undone_iff {search add : String} {h : List Char} (hs : search ≠ "")
    (hin : search.toList <:+: h) :
    (Clear add.toList → Clear h →
      ∃ r c c' before after,
        (literal .before search add).reversed = .ok r ∧
        (literal .before search add).compile = .ok c ∧ r.compile = .ok c' ∧
        Text.FirstOccurrence search.toList h before after ∧ c.isFound h = true ∧
        revealed (c.applyOnce h) = before ++ (add ++ search).toList ++ after ∧
        c'.isFound (revealed (c.applyOnce h)) = true ∧
        (revealed (c'.applyOnce (revealed (c.applyOnce h))) = h ↔
          Text.FirstOccurrence (add ++ search).toList (before ++ (add ++ search).toList)
            before [])) ∧
    ∀ (o o' : PatchOptions) (t : Token) (f : OpenFile) (s s' : State),
      o.undo = false → o'.undo = true → t.kind = .insertBefore → t.text = add.toList →
      f.text = h →
        ∃ gaps last text, Text.Cuts search.toList h gaps last ∧
          s.CarriesOut o t search.toList f
            (Text.joined (add.toList ++ '\n' :: search.toList) gaps last) ∧
          s'.CarriesOut o' t search.toList
            { f with text := Text.joined (add.toList ++ '\n' :: search.toList) gaps last } text ∧
          (text = h ↔ ∀ gap ∈ gaps, Text.FirstOccurrence (add.toList ++ '\n' :: search.toList)
            (gap ++ (add.toList ++ '\n' :: search.toList)) gap []) := by
  constructor
  · intro hadd hh
    obtain ⟨before, after, hfirst⟩ := Text.exists_firstOccurrence hin
    have hlit : (literal .before search add).IsLiteral := ⟨rfl, rfl⟩
    obtain ⟨hfound, hedited, hfound', hiff⟩ :=
      removal_iff (s := literal .before search add) rfl hadd hh hfirst
    refine ⟨_, _, _, before, after, reversed_before hlit rfl, compile_literal hlit,
      compile_literal (isLiteral_removal hlit), hfirst, hfound, hedited, ?_, ?_⟩
    · rw [hedited]
      exact hfound'
    · rw [hedited]
      exact hiff
  · rintro o o' t f s s' ho ho' ht rfl' rfl
    have hne : search.toList ≠ [] := fun he => hs (String.toList_eq_nil_iff.1 he)
    obtain ⟨gaps, last, hcuts⟩ := Text.exists_cuts hne f.text
    have he : edited t.kind t.text search.toList = add.toList ++ '\n' :: search.toList := by
      rw [ht, rfl', Boardmod.edited]
    have hdone := carriesOut_edited (t := t) ho hne hin hcuts s
    have hback := carriesOut_undone (f := f) ho' (by rw [he]; simp) (hcuts.ne_nil hin) last s'
    rw [he] at hdone hback
    have hiff := hcuts.replaceAll_preceded_iff hne (add.toList ++ ['\n'])
    rw [List.append_assoc] at hiff
    exact ⟨gaps, last, _, hcuts, hdone, hback, hiff⟩

def facing : OpenFile := ⟨⟨"/f"⟩, 0, "a\nbbaba".toList, false⟩

def lineInFront (text : String) : Token := ⟨.insertBefore, text.toList, none, 0⟩

theorem before_undone_dollar : "ba" ≠ "" ∧ "ba".toList <:+: facing.text ∧
    Clear "$b".toList ∧ Clear facing.text ∧
    (∃ r c c' before after,
      (literal .before "ba" "$b").reversed = .ok r ∧
      (literal .before "ba" "$b").compile = .ok c ∧ r.compile = .ok c' ∧
      Text.FirstOccurrence "ba".toList facing.text before after ∧
      c.isFound facing.text = true ∧
      revealed (c.applyOnce facing.text) = before ++ ("$b" ++ "ba").toList ++ after ∧
      c'.isFound (revealed (c.applyOnce facing.text)) = true ∧
      (revealed (c'.applyOnce (revealed (c.applyOnce facing.text))) = facing.text ↔
        Text.FirstOccurrence ("$b" ++ "ba").toList (before ++ ("$b" ++ "ba").toList)
          before [])) ∧
    ∃ gaps last text, Text.Cuts "ba".toList facing.text gaps last ∧
      (holding facing).CarriesOut ⟨false, false⟩ (lineInFront "$b") "ba".toList facing
        (Text.joined ("$b".toList ++ '\n' :: "ba".toList) gaps last) ∧
      (holding facing).CarriesOut ⟨false, true⟩ (lineInFront "$b") "ba".toList
        { facing with text := Text.joined ("$b".toList ++ '\n' :: "ba".toList) gaps last } text ∧
      (text = facing.text ↔ ∀ gap ∈ gaps,
        Text.FirstOccurrence ("$b".toList ++ '\n' :: "ba".toList)
          (gap ++ ("$b".toList ++ '\n' :: "ba".toList)) gap []) := by
  have hs : "ba" ≠ "" := by decide
  have hin : "ba".toList <:+: facing.text := ⟨"a\nb".toList, "ba".toList, by decide⟩
  have hadd : Clear "$b".toList := by decide
  have hh : Clear facing.text := by decide
  obtain ⟨hmodification, hstream⟩ := @before_undone_iff "ba" "$b" facing.text hs hin
  exact ⟨hs, hin, hadd, hh, hmodification hadd hh,
    hstream ⟨false, false⟩ ⟨false, true⟩ (lineInFront "$b") facing _ _ rfl rfl rfl rfl rfl⟩

/-- An end of what stands in front and the addition are taken for the addition: `a` in front of `ba`
turns `abba` into `ababa`, where `aba` stands two characters further to the left. -/
theorem before_undone_shifted :
    (∃ r c c', (literal .before "ba" "a").reversed = .ok r ∧
      (literal .before "ba" "a").compile = .ok c ∧ r.compile = .ok c' ∧
      revealed (c.applyOnce "abba".toList) = "ababa".toList ∧
      revealed (c'.applyOnce "ababa".toList) = "baba".toList) ∧
    ((holding facing).applyEdit ⟨false, false⟩ (lineInFront "a") "ba".toList facing).file =
      some { facing with text := "a\nba\nbaa\nba".toList } ∧
    ((holding facing).applyEdit ⟨false, true⟩ (lineInFront "a") "ba".toList
      { facing with text := "a\nba\nbaa\nba".toList }).file =
      some { facing with text := "ba\nbaba".toList } := by
  have hlit : (literal .before "ba" "a").IsLiteral := ⟨rfl, rfl⟩
  refine ⟨⟨_, _, _, reversed_before hlit rfl, compile_literal hlit,
    compile_literal (isLiteral_removal hlit), ?_, ?_⟩, ?_, ?_⟩
  all_goals decide +kernel

end Patch

end Patchboard
