import Mathlib.Data.List.Nodup
import Mathlib.Data.List.Pairwise
import Patchboard.Config
import Patchboard.Proofs.Path.Names
import Patchboard.ThemeCopies

set_option autoImplicit false

/-!
The custom theme that a path belongs to. The themes of a board stand in the order of their ids, so a
path in several of them is owned by the one with the smallest id; and a copy of a file belongs to the
theme that it is made for, as long as the directories of the custom themes lie apart.
-/

namespace Patchboard

namespace Theme

variable {themes : List Theme} {t t' : Theme} {p : Path}

theorem mem_custom_iff : t ∈ custom themes ↔ t ∈ themes ∧ t.id ≠ defaultId := by
  simp [custom, isDefault]

theorem contains_iff : t.contains p = true ↔ t.directory.components <+: p.components := by
  rw [contains, Path.startsWith, List.isPrefixOf_iff_prefix]

theorem owner_cases (themes : List Theme) (p : Path) :
    (owner themes p = noCustom ∧ ∀ t ∈ custom themes, t.contains p = false) ∨
    ∃ before t after, custom themes = before ++ t :: after ∧ t.contains p = true ∧
      owner themes p = t.id ∧ ∀ t' ∈ before, t'.contains p = false := by
  unfold owner
  cases hfind : (custom themes).find? fun t => t.contains p with
  | none =>
    rw [List.find?_eq_none] at hfind
    exact .inl ⟨rfl, fun t ht => by simpa using hfind t ht⟩
  | some t =>
    obtain ⟨hp, before, after, hsplit, hbefore⟩ := List.find?_eq_some_iff_append.1 hfind
    exact .inr ⟨before, t, after, hsplit, hp, rfl, fun t' ht' => by simpa using hbefore t' ht'⟩

theorem owner_eq_noCustom_iff (hs : themes.Pairwise fun t t' => t.id ≤ t'.id) :
    owner themes p = noCustom ↔ (∀ t ∈ custom themes, t.contains p = false) ∨
      ∃ t ∈ custom themes, t.id = noCustom ∧ t.contains p = true := by
  rcases owner_cases themes p with ⟨howner, hnone⟩ | ⟨before, t, after, hsplit, hp, howner, hbefore⟩
  · exact iff_of_true howner (.inl hnone)
  · have hmem : t ∈ custom themes := by simp [hsplit]
    rw [howner]
    constructor
    · exact fun hid => .inr ⟨t, hmem, hid, hp⟩
    · rintro (hnone | ⟨t', ht', hid, hp'⟩)
      · rw [hnone t hmem] at hp
        cases hp
      · have hle : t.id ≤ t'.id := by
          have hordered : (custom themes).Pairwise fun t t' => t.id ≤ t'.id := hs.filter _
          rw [hsplit] at hordered ht'
          rcases List.mem_append.1 ht' with ht' | ht'
          · rw [hbefore t' ht'] at hp'
            cases hp'
          · rcases List.mem_cons.1 ht' with rfl | ht'
            · exact Nat.le_refl _
            · exact (List.pairwise_cons.1 (List.pairwise_append.1 hordered).2.1).1 t' ht'
        exact Nat.le_zero.1 (hle.trans_eq hid)

/-- No custom theme lies in another one. -/
def Apart (themes : List Theme) : Prop :=
  (custom themes).Pairwise fun t t' =>
    t.contains t'.directory = false ∧ t'.contains t.directory = false

instance (themes : List Theme) : Decidable (Apart themes) :=
  inferInstanceAs (Decidable (List.Pairwise _ _))

theorem Apart.eq_of_contains (h : Apart themes) (ht : t ∈ custom themes) (ht' : t' ∈ custom themes)
    (hp : t.contains p = true) (hp' : t'.contains p = true) : t = t' := by
  by_contra hne
  have : Std.Symm fun t t' : Theme =>
      t.contains t'.directory = false ∧ t'.contains t.directory = false := ⟨fun _ _ => And.symm⟩
  obtain ⟨hout, hout'⟩ := List.Pairwise.forall h ht ht' hne
  rw [Bool.eq_false_iff, ne_eq, contains_iff] at hout hout'
  rw [contains_iff] at hp hp'
  rcases List.prefix_or_prefix_of_prefix hp hp' with hin | hin
  · exact hout hin
  · exact hout' hin

theorem Apart.owner_of_contains (h : Apart themes) (ht : t ∈ custom themes)
    (hp : t.contains p = true) : owner themes p = t.id := by
  rcases owner_cases themes p with ⟨-, hnone⟩ | ⟨before, t', after, hsplit, hp', howner, -⟩
  · rw [hnone t ht] at hp
    cases hp
  · rw [howner, h.eq_of_contains ht (by simp [hsplit]) hp hp']

theorem Apart.owner_eq_iff (h : Apart themes) {id : Nat} (hid : id ≠ noCustom) :
    owner themes p = id ↔ ∃ t ∈ custom themes, t.id = id ∧ t.contains p = true := by
  constructor
  · intro howner
    rcases owner_cases themes p with ⟨hnone, -⟩ | ⟨before, t, after, hsplit, hp, ht, -⟩
    · exact absurd (howner.symm.trans hnone) hid
    · exact ⟨t, by simp [hsplit], ht.symm.trans howner, hp⟩
  · rintro ⟨t, ht, rfl, hp⟩
    exact h.owner_of_contains ht hp

theorem Apart.owner_eq_id_iff (h : Apart themes) (hn : (themes.map (·.id)).Nodup)
    (ht : t ∈ custom themes) (hid : t.id ≠ noCustom) :
    owner themes p = t.id ↔ t.contains p = true := by
  refine ⟨fun howner => ?_, h.owner_of_contains ht⟩
  obtain ⟨t', ht', hsame, hp⟩ := (h.owner_eq_iff hid).1 howner
  have hmem := (mem_custom_iff.1 ht).1
  have hmem' := (mem_custom_iff.1 ht').1
  rwa [← List.inj_on_of_nodup_map hn hmem' hmem hsame]

def Rooted (themes : List Theme) : Prop :=
  ∀ main ∈ default? themes, main.directory.text ≠ ""

theorem Apart.owner_of_candidate (h : Apart themes) (hr : Rooted themes) {copy : ThemeCopy}
    (hc : copy ∈ ThemeCopy.candidates themes p) : copy.theme = owner themes copy.path := by
  unfold ThemeCopy.candidates at hc
  split at hc
  · simp at hc
  · rename_i main hmain
    split at hc
    · simp at hc
    · rename_i relative hrelative
      obtain ⟨t, ht, rfl⟩ := List.mem_map.1 hc
      have hbelow := Path.relative_of_stripPrefix? hrelative (hr main hmain)
      exact (h.owner_of_contains ht (Path.startsWith_join hbelow t.directory)).symm

end Theme

namespace Config

theorem duplicate?_eq_none_iff {seen ids : List Nat} :
    duplicate? seen ids = none ↔ ids.Nodup ∧ ∀ id ∈ ids, id ∉ seen := by
  induction ids generalizing seen with
  | nil => simp [duplicate?]
  | cons id ids ih =>
    rw [duplicate?]
    by_cases hid : id ∈ seen
    · simp [hid]
    · rw [if_neg (by simpa using hid), ih]
      rw [List.nodup_cons, List.forall_mem_cons]
      simp only [List.mem_cons, not_or]
      constructor
      · rintro ⟨hnodup, hnew⟩
        exact ⟨⟨fun hm => (hnew id hm).1 rfl, hnodup⟩, hid, fun other ho => (hnew other ho).2⟩
      · rintro ⟨⟨hfirst, hnodup⟩, -, hnew⟩
        exact ⟨hnodup, fun other ho => ⟨fun heq => hfirst (heq ▸ ho), hnew other ho⟩⟩

theorem ordered_themes (c : Config) : c.themes.Pairwise fun t t' => t.id ≤ t'.id := by
  unfold themes
  split
  · exact List.pairwise_singleton _ _
  · refine List.Pairwise.imp (fun h => of_decide_eq_true h) (List.pairwise_mergeSort ?_ ?_ _)
    · exact fun _ _ _ h h' => decide_eq_true ((of_decide_eq_true h).trans (of_decide_eq_true h'))
    · exact fun t t' => by simpa using Nat.le_total t.id t'.id

theorem themes_of_ordered {c : Config} (hs : c.themeSettings ≠ [])
    (ho : c.themeSettings.Pairwise fun t t' => t.id ≤ t'.id) : c.themes =
      c.themeSettings.map fun t => { t with directory := c.resolveDirectory t.directory } := by
  unfold themes
  split
  · rename_i hnone
    exact absurd hnone hs
  · refine List.mergeSort_of_pairwise (List.pairwise_map.2 (ho.imp fun h => ?_))
    exact decide_eq_true h

theorem nodup_ids {text : String} {c : Config} (h : parse text = .ok c) :
    (c.themes.map (·.id)).Nodup := by
  have hsettings : (c.themeSettings.map (·.id)).Nodup := by
    unfold parse at h
    split at h
    · cases h
    · rename_i c' _
      unfold check at h
      dsimp only at h
      split at h
      · cases h
      · split at h
        · cases h
        · rename_i hnone
          split at h
          · cases h
          · obtain rfl := Except.ok.inj h
            exact (duplicate?_eq_none_iff.1 hnone).1
  unfold themes
  split
  · exact List.nodup_singleton _
  · have hperm := (List.mergeSort_perm
      (c.themeSettings.map fun t => { t with directory := c.resolveDirectory t.directory })
      fun t t' => decide (t.id ≤ t'.id)).map (·.id)
    rw [List.map_map] at hperm
    exact hperm.nodup_iff.2 hsettings

theorem rooted_themes {c : Config} (h : c.defaultThemeDirectory.text ≠ "") :
    Theme.Rooted c.themes := by
  intro main hm
  unfold defaultThemeDirectory at h
  rwa [Option.mem_def.1 hm] at h

end Config

end Patchboard
