import Patchboard.Proofs.Text.Case
import Patchboard.Proofs.Text.Lines
import Patchboard.Version.Select

set_option autoImplicit false

namespace Patchboard.Version
open Text

def plain (s : List Char) : List Char := lowerAscii (s.filter fun c => !isBlank c)

theorem normalize_eq (v : String) : normalize v = plain v.toList := rfl

theorem plain_cons (c : Char) (s : List Char) :
    plain (c :: s) = if isBlank c then plain s else c.toLower :: plain s := by
  cases h : isBlank c <;> simp [plain, lowerAscii, h]

theorem plain_plain (s : List Char) : plain (plain s) = plain s := by
  induction s with
  | nil => rfl
  | cons c s ih =>
    rw [plain_cons]
    split
    · exact ih
    · rename_i hc
      rw [plain_cons, isBlank_toLower, if_neg hc, toLower_toLower, ih]

theorem normalize_plain (s : List Char) : normalize (String.ofList (plain s)) = plain s := by
  rw [normalize_eq, String.toList_ofList, plain_plain]

theorem splitOn_plain {d : Char} (hb : isBlank d = false) (hd : d.isAlpha = false)
    (s : List Char) : splitOn d (plain s) = (splitOn d s).map plain := by
  induction s with
  | nil => rfl
  | cons c s ih =>
    rw [plain_cons]
    by_cases hc : c = d
    · rw [if_neg (by simp [hc, hb]), splitOn, splitOn, if_pos ((toLower_eq_iff hd).2 hc), if_pos hc,
        ih]
      rfl
    · cases hs : splitOn d s with
      | nil => exact absurd hs (splitOn_ne_nil d s)
      | cons piece pieces =>
        rw [hs] at ih
        rw [splitOn_cons_of_ne hc hs, List.map_cons, plain_cons]
        split
        · exact ih
        · exact splitOn_cons_of_ne (mt (toLower_eq_iff hd).1 hc) ih

/-- A spelling of a text, with blanks put in anywhere and the letters in either case. -/
inductive Spells : List Char → List Char → Prop
  | nil : Spells [] []
  | blank {c : Char} {raw text : List Char} (h : isBlank c = true) (rest : Spells raw text) :
    Spells (c :: raw) text
  | char {c d : Char} {raw text : List Char} (h : c.toLower = d.toLower) (rest : Spells raw text) :
    Spells (c :: raw) (d :: text)

theorem Spells.plain_eq {raw text : List Char} (h : Spells raw text) : plain raw = plain text := by
  induction h with
  | nil => rfl
  | blank h _ ih => rw [plain_cons, if_pos h, ih]
  | char h _ ih => rw [plain_cons, plain_cons, ← isBlank_toLower, h, isBlank_toLower, ih]

end Patchboard.Version
