import Mathlib.Data.List.Nodup
import Patchboard.Proofs.Tree.Confinement

set_option autoImplicit false

namespace Patchboard.Tree

variable {t u : Tree} {place : Place} {name : String}

theorem at?_isSome (h : place ≠ []) : (t.at? place).isSome ↔ place ∈ t.entries.map (·.1) := by
  unfold at?
  rw [if_neg (by simpa using h)]
  rw [Option.isSome_map, List.find?_isSome]
  simp

def nameIn (directory place : Place) : Option String :=
  if place.length = directory.length + 1 && within place directory then place.getLast? else none

theorem nameIn_eq_some {directory : Place} :
    nameIn directory place = some name ↔ place = directory ++ [name] := by
  unfold nameIn within
  constructor
  · intro h
    split at h
    · rename_i hc
      simp only [Bool.and_eq_true, decide_eq_true_eq, List.isPrefixOf_iff_prefix] at hc
      obtain ⟨hlength, rest, rfl⟩ := hc
      obtain ⟨last, rfl⟩ := List.length_eq_one_iff.1 (by simpa using hlength)
      simpa using h
    · cases h
  · rintro rfl
    simp

theorem names_eq (t : Tree) (directory : Place) :
    (t.names directory).Perm ((t.entries.map (·.1)).filterMap (nameIn directory)) := by
  unfold names
  rw [List.filterMap_map]
  exact List.mergeSort_perm ..

theorem mem_names {directory : Place} :
    name ∈ t.names directory ↔ (t.at? (directory ++ [name])).isSome := by
  rw [(names_eq t directory).mem_iff, List.mem_filterMap, at?_isSome (by simp)]
  constructor
  · rintro ⟨place, hp, hn⟩
    rwa [← nameIn_eq_some.1 hn]
  · exact fun h => ⟨_, h, nameIn_eq_some.2 rfl⟩

theorem nodup_names (h : t.Keyed) (directory : Place) : (t.names directory).Nodup := by
  rw [(names_eq t directory).nodup_iff]
  refine List.Nodup.filterMap ?_ h
  intro a b name ha hb
  rw [nameIn_eq_some.1 ha, nameIn_eq_some.1 hb]

theorem pairwise_names (t : Tree) (directory : Place) :
    (t.names directory).Pairwise fun a b => (compare a b != .gt) = true := by
  refine List.pairwise_mergeSort (fun a b c => ?_) (fun a b => ?_) _
  · simp only [bne_iff_ne, ← Ordering.isLE_iff_ne_gt]
    exact Std.TransCmp.isLE_trans
  · have hswap : compare b a = (compare a b).swap := Std.OrientedCmp.eq_swap
    rw [hswap]
    cases compare a b <;> rfl

theorem names_congr (ht : t.Keyed) (hu : u.Keyed) {directory : Place}
    (h : ∀ name, (u.at? (directory ++ [name])).isSome ↔ (t.at? (directory ++ [name])).isSome) :
    u.names directory = t.names directory := by
  have hperm : (u.names directory).Perm (t.names directory) :=
    (List.perm_ext_iff_of_nodup (nodup_names hu directory) (nodup_names ht directory)).2
      fun name => by rw [mem_names, mem_names, h]
  refine hperm.eq_of_pairwise (fun a b _ _ hab hba => ?_) (pairwise_names u directory)
    (pairwise_names t directory)
  have hswap : compare b a = (compare a b).swap := Std.OrientedCmp.eq_swap
  rw [hswap] at hba
  refine Std.compare_eq_iff_eq.1 ?_
  cases ho : compare a b with
  | eq => rfl
  | lt => rw [ho] at hba; exact absurd hba (by decide)
  | gt => rw [ho] at hab; exact absurd hab (by decide)

end Patchboard.Tree
