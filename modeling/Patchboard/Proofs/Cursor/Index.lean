import Mathlib.Data.List.Induction
import Patchboard.Cursor
import Patchboard.Proofs.Path.Names

set_option autoImplicit false

/-!
The table of the files that a run has patched. Every result for a file is added to the summary of
its key, so a summary holds the results of one key, in order. The key is made of the name of the file
and that of the patch file, and so a summary is of one file as long as the names of different files
differ.
-/

namespace Patchboard.Cursor

structure FileResult where
  action : Action
  path : Path
  result : StepResult

namespace FileResult

def key (r : FileResult) : String := indexKey r.action r.path

def alike (r r' : FileResult) : Bool :=
  r.action.filename = r'.action.filename && r.path.same r'.path

def add (files : List (String × FileSummary)) (r : FileResult) : List (String × FileSummary) :=
  addToIndex r.key r.path r.result files

def first (r : FileResult) : FileSummary :=
  ⟨r.path, r.result.theme, r.result.status, r.result.operations⟩

end FileResult

section
variable {key k : String} {path : Path} {r : StepResult} {files : List (String × FileSummary)}

def Ordered (files : List (String × FileSummary)) : Prop := files.Pairwise fun e e' => e.1 < e'.1

theorem key_of_mem_addToIndex {e : String × FileSummary} (h : e ∈ addToIndex key path r files) :
    e.1 = key ∨ ∃ e' ∈ files, e'.1 = e.1 := by
  induction files with
  | nil =>
    rw [addToIndex, List.mem_singleton] at h
    rw [h]
    exact .inl rfl
  | cons e' files ih =>
    obtain ⟨k, f⟩ := e'
    rw [addToIndex] at h
    split at h
    · rcases List.mem_cons.1 h with rfl | h
      · exact .inr ⟨_, List.mem_cons_self .., rfl⟩
      · exact .inr ⟨e, List.mem_cons_of_mem _ h, rfl⟩
    · split at h
      · rcases List.mem_cons.1 h with rfl | h
        · exact .inl rfl
        · exact .inr ⟨e, h, rfl⟩
      · rcases List.mem_cons.1 h with rfl | h
        · exact .inr ⟨_, List.mem_cons_self .., rfl⟩
        · refine (ih h).imp_right fun ⟨e', he', hk⟩ => ⟨e', List.mem_cons_of_mem _ he', hk⟩

theorem ordered_addToIndex (h : Ordered files) : Ordered (addToIndex key path r files) := by
  induction files with
  | nil => exact List.pairwise_singleton _ _
  | cons e files ih =>
    obtain ⟨k, f⟩ := e
    obtain ⟨hfirst, hrest⟩ := List.pairwise_cons.1 h
    rw [addToIndex]
    split
    · exact List.pairwise_cons.2 ⟨hfirst, hrest⟩
    · rename_i hne
      split
      · rename_i hlt
        refine List.pairwise_cons.2 ⟨fun e he => ?_, h⟩
        rcases List.mem_cons.1 he with rfl | he
        · exact hlt
        · exact String.lt_trans hlt (hfirst e he)
      · rename_i hle
        have hgt : k < key := by
          by_contra hge
          exact hne (String.le_antisymm (String.not_lt.1 hge) (String.not_lt.1 hle))
        refine List.pairwise_cons.2 ⟨fun e he => ?_, ih hrest⟩
        rcases key_of_mem_addToIndex he with hk | ⟨e', he', hk⟩
        · rw [hk]
          exact hgt
        · rw [← hk]
          exact hfirst e' he'

theorem lookup_addToIndex_of_ne (h : k ≠ key) :
    (addToIndex key path r files).lookup k = files.lookup k := by
  induction files with
  | nil => rw [addToIndex, List.lookup_cons, beq_false_of_ne h]
  | cons e files ih =>
    obtain ⟨k', f⟩ := e
    rw [addToIndex]
    split
    · rename_i hk
      rw [List.lookup_cons, List.lookup_cons, beq_false_of_ne (hk ▸ h)]
    · split
      · rw [List.lookup_cons, beq_false_of_ne h]
      · rw [List.lookup_cons, List.lookup_cons, ih]

theorem lookup_addToIndex (h : Ordered files) : (addToIndex key path r files).lookup key =
    some (((files.lookup key).map fun f => FileSummary.extend f r).getD
      ⟨path, r.theme, r.status, r.operations⟩) := by
  induction files with
  | nil => rw [addToIndex, List.lookup_cons, beq_self_eq_true]; rfl
  | cons e files ih =>
    obtain ⟨k, f⟩ := e
    obtain ⟨hfirst, hrest⟩ := List.pairwise_cons.1 h
    rw [addToIndex]
    split
    · rename_i hk
      rw [List.lookup_cons, List.lookup_cons, hk, beq_self_eq_true]
      rfl
    · rename_i hne
      split
      · rename_i hlt
        have hnone : ((k, f) :: files).lookup key = none := by
          rw [List.lookup_eq_none_iff]
          intro e he
          rw [bne_iff_ne]
          rcases List.mem_cons.1 he with rfl | he
          · exact hne
          · rintro rfl
            exact String.lt_irrefl _ (String.lt_trans hlt (hfirst e he))
        rw [hnone, List.lookup_cons, beq_self_eq_true]
        rfl
      · rw [List.lookup_cons, List.lookup_cons, beq_false_of_ne hne]
        exact ih hrest

theorem mem_iff_lookup {f : FileSummary} (h : Ordered files) :
    (k, f) ∈ files ↔ files.lookup k = some f := by
  rw [List.lookup_eq_some_iff]
  constructor
  · intro hm
    obtain ⟨before, after, rfl⟩ := List.append_of_mem hm
    refine ⟨before, after, rfl, fun e he => bne_iff_ne.2 fun hk => ?_⟩
    have hlt := (List.pairwise_append.1 h).2.2 e he (k, f) (List.mem_cons_self ..)
    rw [← hk] at hlt
    exact String.lt_irrefl _ hlt
  · rintro ⟨before, after, rfl, -⟩
    simp

end

def summary? : List FileResult → Option FileSummary
  | [] => none
  | r :: rest => some (rest.foldl (fun f r => FileSummary.extend f r.result) r.first)

theorem summary?_concat (results : List FileResult) (r : FileResult) :
    summary? (results ++ [r]) =
      some (((summary? results).map fun f => FileSummary.extend f r.result).getD r.first) := by
  cases results with
  | nil => rfl
  | cons first rest =>
    rw [List.cons_append, summary?, List.foldl_append]
    rfl

theorem foldl_extend (results : List FileResult) (f : FileSummary) :
    let f' := results.foldl (fun f r => FileSummary.extend f r.result) f
    f'.path = f.path ∧ f'.theme = f.theme ∧
      f'.operations = f.operations ++ results.flatMap (fun r => r.result.operations) ∧
      f'.status.isFailure = (f.status.isFailure || results.any fun r => r.result.isFailure) := by
  induction results generalizing f with
  | nil => simp
  | cons r results ih =>
    obtain ⟨hpath, htheme, hoperations, hstatus⟩ := ih (FileSummary.extend f r.result)
    refine ⟨hpath, htheme, ?_, ?_⟩
    · rw [List.foldl_cons, hoperations, List.flatMap_cons, ← List.append_assoc]
      rfl
    · have hextend : (FileSummary.extend f r.result).status.isFailure =
          (f.status.isFailure || r.result.isFailure) := by
        unfold FileSummary.extend StepResult.isFailure
        dsimp only
        split
        · rename_i hf
          rw [hf, Bool.true_or]
        · rename_i hf
          rw [Bool.not_eq_true] at hf
          rw [hf, Bool.false_or]
      rw [List.foldl_cons, hstatus, hextend, List.any_cons, Bool.or_assoc]

theorem summary?_eq_some {results : List FileResult} {f : FileSummary}
    (h : summary? results = some f) :
    (∃ r ∈ results.head?, f.path = r.path ∧ f.theme = r.result.theme) ∧
      f.operations = results.flatMap (fun r => r.result.operations) ∧
      (f.status.isFailure = true ↔ ∃ r ∈ results, r.result.isFailure = true) := by
  cases results with
  | nil => cases h
  | cons r rest =>
    obtain ⟨hpath, htheme, hoperations, hstatus⟩ := foldl_extend rest r.first
    obtain rfl := Option.some.inj h
    refine ⟨⟨r, rfl, hpath, htheme⟩, hoperations, ?_⟩
    rw [hstatus, ← List.any_eq_true, List.any_cons]
    rfl

/-- The table of some results: in the order of the keys, the summary of the results of each. -/
structure Tabulates (files : List (String × FileSummary)) (results : List FileResult) : Prop where
  ordered : Ordered files
  lookup : ∀ k, files.lookup k = summary? (results.filter fun r => r.key = k)

theorem tabulates_foldl (results : List FileResult) :
    Tabulates (results.foldl FileResult.add []) results := by
  induction results using List.reverseRecOn with
  | nil => exact ⟨List.Pairwise.nil, fun k => rfl⟩
  | append_singleton results r ih =>
    rw [List.foldl_append]
    refine ⟨ordered_addToIndex ih.ordered, fun k => ?_⟩
    rw [List.filter_append]
    by_cases hk : r.key = k
    · rw [← hk, List.filter_cons_of_pos (by simp), List.filter_nil, summary?_concat, ← ih.lookup]
      exact lookup_addToIndex ih.ordered
    · rw [List.filter_cons_of_neg (by simpa using hk), List.filter_nil, List.append_nil, ← ih.lookup]
      exact lookup_addToIndex_of_ne (Ne.symm hk)

theorem indexName_of_same {p q : Path} (h : p.same q = true) : indexName p = indexName q := by
  have hsteps := Path.steps_of_same h
  unfold indexName
  rw [Path.parent?_bind_fileName?, Path.parent?_bind_fileName?, Path.fileName?_eq, Path.fileName?_eq,
    hsteps]

namespace FileResult

variable {r r' : FileResult}

theorem key_eq_iff : r.key = r'.key ↔ indexName r.path ++ ['|', '|'] ++ r.action.filename.toList =
    indexName r'.path ++ ['|', '|'] ++ r'.action.filename.toList := by
  unfold key indexKey
  exact String.ofList_inj

theorem key_of_alike (h : r.alike r' = true) : r.key = r'.key := by
  obtain ⟨hpatch, hfile⟩ := Bool.and_eq_true_iff.1 h
  rw [key_eq_iff, of_decide_eq_true hpatch, indexName_of_same hfile]

theorem alike_of_key (hk : r.key = r'.key) (hs : r.path.same r'.path = true) :
    r.alike r' = true := by
  rw [key_eq_iff, indexName_of_same hs] at hk
  have hpatch := String.toList_inj.1 (List.append_cancel_left hk)
  exact Bool.and_eq_true_iff.2 ⟨decide_eq_true hpatch, hs⟩

theorem names_of_key (h : r.key = r'.key) (hr : '|' ∉ indexName r.path)
    (hr' : '|' ∉ indexName r'.path) :
    indexName r.path = indexName r'.path ∧ r.action.filename = r'.action.filename := by
  have hname (r : FileResult) (hr : '|' ∉ indexName r.path) :
      (indexName r.path ++ ['|', '|'] ++ r.action.filename.toList).takeWhile (· ≠ '|') =
        indexName r.path := by
    rw [List.append_assoc, List.takeWhile_append_of_pos fun c hc => ?_]
    · simp
    · rw [decide_eq_true_iff]
      rintro rfl
      exact hr hc
  rw [key_eq_iff] at h
  have hnames := congrArg (List.takeWhile (· ≠ '|')) h
  rw [hname r hr, hname r' hr'] at hnames
  rw [hnames] at h
  exact ⟨hnames, String.toList_inj.1 (List.append_cancel_left h)⟩

end FileResult

/-- No two results for different files share a summary. -/
def Apart (results : List FileResult) : Prop :=
  ∀ r ∈ results, ∀ r' ∈ results, r.key = r'.key → r.path.same r'.path = true

instance (results : List FileResult) : Decidable (Apart results) :=
  inferInstanceAs (Decidable (∀ r ∈ results, ∀ r' ∈ results, r.key = r'.key → _))

/-- The summary of each result is of its file, and holds all that the same patch file has recorded
for it, and nothing else. -/
def Whole (files : List (String × FileSummary)) (results : List FileResult) : Prop :=
  ∀ r ∈ results, ∃ f, (r.key, f) ∈ files ∧ f.path.same r.path = true ∧
    f.operations = (results.filter r.alike).flatMap (fun r => r.result.operations) ∧
    (f.status.isFailure = true ↔ ∃ r' ∈ results, r.alike r' = true ∧ r'.result.isFailure = true)

/-- The files of one patch file have names of their own, without a bar. -/
def NamedApart (results : List FileResult) : Prop :=
  (∀ r ∈ results, '|' ∉ indexName r.path) ∧
    ∀ r ∈ results, ∀ r' ∈ results, r.action.filename = r'.action.filename →
      indexName r.path = indexName r'.path → r.path.same r'.path = true

instance (results : List FileResult) : Decidable (NamedApart results) :=
  inferInstanceAs (Decidable (_ ∧ ∀ r ∈ results, ∀ r' ∈ results,
    r.action.filename = r'.action.filename → indexName r.path = indexName r'.path → _))

theorem NamedApart.apart {results : List FileResult} (h : NamedApart results) : Apart results := by
  intro r hr r' hr' hk
  obtain ⟨hname, hpatch⟩ := FileResult.names_of_key hk (h.1 r hr) (h.1 r' hr')
  exact h.2 r hr r' hr' hpatch hname

section
variable {files : List (String × FileSummary)} {results : List FileResult}

theorem Tabulates.exists_iff (h : Tabulates files results) (k : String) :
    (∃ f, (k, f) ∈ files) ↔ ∃ r ∈ results, r.key = k := by
  simp only [mem_iff_lookup h.ordered, h.lookup]
  cases hown : results.filter fun r => r.key = k with
  | nil =>
    rw [List.filter_eq_nil_iff] at hown
    simpa [summary?] using hown
  | cons r rest =>
    have hr : r ∈ results.filter fun r => r.key = k := by rw [hown]; exact List.mem_cons_self ..
    rw [List.mem_filter, decide_eq_true_iff] at hr
    exact iff_of_true ⟨_, rfl⟩ ⟨r, hr⟩

theorem Tabulates.of_mem {k : String} {f : FileSummary} (h : Tabulates files results)
    (hm : (k, f) ∈ files) : summary? (results.filter fun r => r.key = k) = some f := by
  rw [← h.lookup]
  exact (mem_iff_lookup h.ordered).1 hm

theorem Tabulates.whole_iff (h : Tabulates files results) :
    Whole files results ↔ Apart results := by
  constructor
  · intro hwhole r hr r' hr' hk
    obtain ⟨f, hf, hpath, -⟩ := hwhole r hr
    obtain ⟨f', hf', hpath', -⟩ := hwhole r' hr'
    rw [hk, mem_iff_lookup h.ordered] at hf
    rw [mem_iff_lookup h.ordered, hf] at hf'
    obtain rfl := Option.some.inj hf'
    unfold Path.same at hpath hpath' ⊢
    rw [decide_eq_true_iff] at hpath hpath' ⊢
    exact hpath.symm.trans hpath'
  · intro hapart r hr
    obtain ⟨f, hf⟩ := (h.exists_iff r.key).2 ⟨r, hr, rfl⟩
    obtain ⟨⟨first, hfirst, hpath, -⟩, hoperations, hstatus⟩ := summary?_eq_some (h.of_mem hf)
    have hsame : ∀ r' ∈ results, (r'.key = r.key ↔ r.alike r' = true) := by
      intro r' hr'
      refine ⟨fun hk => ?_, fun ha => (FileResult.key_of_alike ha).symm⟩
      exact FileResult.alike_of_key hk.symm (hapart r hr r' hr' hk.symm)
    have hown : (results.filter fun r' => r'.key = r.key) = results.filter r.alike := by
      refine List.filter_congr fun r' hr' => ?_
      rw [Bool.eq_iff_iff, decide_eq_true_iff]
      exact hsame r' hr'
    obtain ⟨hfirst, hkey⟩ := List.mem_filter.1 (List.mem_of_mem_head? hfirst)
    refine ⟨f, hf, ?_, hown ▸ hoperations, ?_⟩
    · rw [hpath]
      exact hapart first hfirst r hr (of_decide_eq_true hkey)
    · rw [hstatus, hown]
      simp only [List.mem_filter, and_assoc]

end

end Patchboard.Cursor
