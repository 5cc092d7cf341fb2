import Patchboard.Proofs.Tree.Ways
import Patchboard.StateLayout

set_option autoImplicit false

namespace Patchboard.StateLayout
open Path Tree

theorem isName_installed : IsName "installed" := by decide

theorem isName_staging : IsName "staging" := by decide

theorem isName_runs : IsName "runs" := by decide

theorem safeChar_ne {c : Char} (h : c.isAlphanum = false) (hd : c ≠ '-') (hu : c ≠ '_')
    (hp : c ≠ '.') (d : Char) : safeChar d ≠ c := by
  unfold safeChar
  split
  · rintro rfl
    rename_i hc
    simp [h, hd, hu, hp] at hc
  · exact Ne.symm hu

theorem not_mem_fileStem {c : Char} (h : c.isAlphanum = false) (hd : c ≠ '-') (hu : c ≠ '_')
    (hp : c ≠ '.') (package : String) : c ∉ (fileStem package).toList := by
  unfold fileStem
  rw [String.toList_ofList, List.mem_map]
  rintro ⟨d, -, hc⟩
  exact safeChar_ne h hd hu hp d hc

theorem fileStem_eq_empty {package : String} : fileStem package = "" ↔ package = "" := by
  unfold fileStem
  rw [← String.toList_inj, String.toList_ofList, ← String.toList_inj]
  simp

theorem fileStem_eq_iff {package : String} (dots : String) (h : ∀ c ∈ dots.toList, c = '.') :
    fileStem package = dots ↔ package = dots := by
  have hdot {c : Char} : safeChar c = '.' ↔ c = '.' := by
    unfold safeChar
    split
    · rfl
    · rename_i hc
      constructor
      · intro he
        simp at he
      · rintro rfl
        simp at hc
  have hfix {s d : List Char} (hd : ∀ c ∈ d, c = '.') : s.map safeChar = d ↔ s = d := by
    induction s generalizing d with
    | nil => simp [eq_comm]
    | cons c s ih =>
      cases d with
      | nil => simp
      | cons c' d =>
        rw [List.map_cons, List.cons.injEq, List.cons.injEq, hd c' (List.mem_cons_self ..), hdot,
          ih fun other ho => hd other (List.mem_cons_of_mem _ ho)]
  rw [← String.toList_inj, ← String.toList_inj, fileStem, String.toList_ofList]
  exact hfix h

theorem isName_fileStem {package : String} (hne : package ≠ "") (hd : package ≠ ".")
    (hu : package ≠ "..") : IsName (fileStem package) := by
  rw [ne_eq, ← fileStem_eq_iff _ (by simp)] at hd hu
  refine ⟨?_, not_mem_fileStem (by decide) (by decide) (by decide) (by decide) package,
    fun h => hu (String.toList_inj.1 h)⟩
  have hempty : (fileStem package).toList ≠ [] := fun h =>
    hne (fileStem_eq_empty.1 (String.toList_inj.1 h))
  have hdot : (fileStem package).toList ≠ ['.'] := fun h => hd (String.toList_inj.1 h)
  simp [isIdle, hempty, hdot]

theorem isPiece_fileStem {package : String} (hne : package ≠ "") : IsPiece (fileStem package) :=
  ⟨fun h => hne (fileStem_eq_empty.1 (String.toList_inj.1 h)),
    not_mem_fileStem (by decide) (by decide) (by decide) (by decide) package⟩

/-- The name of the file that the receipt of a package is kept in. -/
def receiptFile (package : String) : String := fileStem package ++ ".receipt"

theorem toList_receiptFile (package : String) :
    (receiptFile package).toList = (fileStem package).toList ++ ".receipt".toList := by
  rw [receiptFile, String.toList_append]

theorem receiptFile_inj {a b : String} : receiptFile a = receiptFile b ↔ fileStem a = fileStem b := by
  rw [← String.toList_inj, toList_receiptFile, toList_receiptFile, List.append_left_inj,
    String.toList_inj]

theorem isName_receiptFile (package : String) : IsName (receiptFile package) := by
  have hlong : ∀ s : List Char, s.length ≤ 2 → (receiptFile package).toList ≠ s := by
    rintro s hs rfl
    rw [toList_receiptFile, List.length_append] at hs
    simp at hs
  refine ⟨?_, ?_, hlong _ (by decide)⟩
  · simp [isIdle, hlong [] (by decide), hlong ['.'] (by decide)]
  · rw [toList_receiptFile, List.mem_append, not_or]
    exact ⟨not_mem_fileStem (by decide) (by decide) (by decide) (by decide) package, by decide⟩

theorem splitName_receiptFile {package : String} (h : package ≠ "") :
    (splitName (receiptFile package).toList).2 = some "receipt".toList := by
  have hstem : (fileStem package).toList ≠ [] := fun he =>
    h (fileStem_eq_empty.1 (String.toList_inj.1 he))
  have hextension : (((receiptFile package).toList.reverse.takeWhile (· ≠ '.')).reverse) =
      "receipt".toList := by
    rw [toList_receiptFile]
    simp
  unfold splitName
  rw [hextension]
  rw [if_neg]
  rw [toList_receiptFile]
  simp [hstem]

theorem splitName_receiptFile_empty : (splitName (receiptFile "").toList).2 = none := by decide

-- from here on a stem is any name, which keeps terms from being evaluated through it
attribute [local irreducible] fileStem

variable (l : StateLayout)

theorem receipt_eq (package : String) :
    l.receipt package = l.receipts.join ⟨receiptFile package⟩ := rfl

theorem packageStaging_eq (package : String) :
    l.packageStaging package = l.staging.join ⟨fileStem package⟩ := rfl

theorem parent?_receipt (package : String) : (l.receipt package).parent? = some l.receipts :=
  parent?_join (isName_receiptFile package) (endsSolid_join isName_installed l.root)

theorem text_receipts : l.receipts.text.isEmpty = false := text_join isName_installed.piece l.root

theorem text_staging : l.staging.text.isEmpty = false := text_join isName_staging.piece l.root

theorem text_runs : l.runs.text.isEmpty = false := text_join isName_runs.piece l.root

theorem text_packageStaging {package : String} (hn : IsName (fileStem package)) :
    (l.packageStaging package).text.isEmpty = false := by
  rw [packageStaging_eq]
  exact text_join hn.piece l.staging

theorem ends_packageStaging {package : String} (hn : IsName (fileStem package)) :
    endsInSeparator (l.packageStaging package) = false := by
  rw [packageStaging_eq]
  exact endsInSeparator_join hn l.staging

theorem steady_packageStaging {package : String} (hn : IsName (fileStem package)) {t : Tree}
    (h : t.Steady l.root) : t.Steady (l.packageStaging package) := by
  rw [packageStaging_eq]
  exact steady_join hn (steady_join isName_staging h)

theorem lexicalPlace_receipt (t : Tree) (package : String) :
    t.lexicalPlace (l.receipt package) = t.lexicalPlace l.receipts ++ [receiptFile package] :=
  lexicalPlace_join (isName_receiptFile package) t l.receipts

theorem lexicalPlace_staging (t : Tree) :
    t.lexicalPlace l.staging = t.lexicalPlace l.root ++ ["staging"] :=
  lexicalPlace_join isName_staging t l.root

theorem lexicalPlace_packageStaging {package : String} (hn : IsName (fileStem package))
    (t : Tree) : t.lexicalPlace (l.packageStaging package) =
      t.lexicalPlace l.staging ++ [fileStem package] :=
  lexicalPlace_join hn t l.staging

theorem prefix_packageStaging {package : String} (hne : package ≠ "") (hu : package ≠ "..")
    (t : Tree) : t.lexicalPlace l.staging <+: t.lexicalPlace (l.packageStaging package) := by
  have hstem : (fileStem package).toList ≠ ['.', '.'] := fun h =>
    hu ((fileStem_eq_iff ".." (by simp)).1 (String.toList_inj.1 h))
  rw [packageStaging_eq, lexicalPlace_join_piece (isPiece_fileStem hne), stepInto, if_neg hstem]
  split
  · exact List.prefix_rfl
  · exact List.prefix_append ..

end Patchboard.StateLayout
