import Patchboard.Proofs.Patch.Block
import Patchboard.Proofs.Patch.Settling

set_option autoImplicit false

namespace Patchboard.Modification
open Tree Progress

/-- One thing a modification does: a block without a name is an error, any other block is applied
to a file. -/
inductive Job where
  | nameless (number : Nat)
  | block (document : Document) (copy : ThemeCopy)

def Job.path? : Job → Option Path
  | .nameless _ => none
  | .block _ copy => some copy.path

def runJob (b : Board) (o : PatchOptions) (p : Progress) : Job → Progress
  | .nameless number => malformed p ("file block #" ++ Text.decimal number ++ " has no name")
  | .block document copy => applyBlock b o document copy.path copy.theme p

def jobsOf (b : Board) (index : CopyIndex) (numbered : Target × Nat) : List Job :=
  match numbered.1.path with
  | none => [.nameless (numbered.2 + 1)]
  | some path => (variants b index path).map (.block numbered.1.block)

/-- The jobs of a modification. The copies are looked up in the tree before the first job. -/
def jobs (b : Board) (d : Document) (t : Tree) : List Job :=
  let index := CopyIndex.ofTargets b.themes t ((targets b d).filterMap (·.path))
  (targets b d).zipIdx.flatMap (jobsOf b index)

theorem applyTarget_eq (b : Board) (o : PatchOptions) (index : CopyIndex) (p : Progress)
    (numbered : Target × Nat) :
    applyTarget b o index p numbered = (jobsOf b index numbered).foldl (runJob b o) p := by
  unfold applyTarget jobsOf
  cases numbered.1.path with
  | none => rfl
  | some path =>
    dsimp only
    rw [List.foldl_map]
    rfl

theorem applyTo_eq {b : Board} {d : Document} (h : targets b d ≠ []) (o : PatchOptions)
    (s : Site) : applyTo b o d s = (jobs b d s.tree).foldl (runJob b o) ⟨s, .empty⟩ := by
  have hstep : applyTarget b o (CopyIndex.ofTargets b.themes s.tree
      ((targets b d).filterMap (·.path))) = fun p numbered => (jobsOf b (CopyIndex.ofTargets
        b.themes s.tree ((targets b d).filterMap (·.path))) numbered).foldl (runJob b o) p := by
    funext p numbered
    exact applyTarget_eq ..
  unfold applyTo jobs
  cases ht : targets b d with
  | nil => exact absurd ht h
  | cons target rest =>
    rw [ht] at hstep
    dsimp only
    rw [hstep, List.foldl_flatMap]

theorem applyTo_nil {b : Board} {d : Document} (h : targets b d = []) (o : PatchOptions)
    (s : Site) :
    applyTo b o d s = malformed ⟨s, .empty⟩ "modification has no file blocks" := by
  unfold applyTo
  rw [h]

theorem applyBlock_eq (b : Board) (o : PatchOptions) (block : Document) (path : Path)
    (theme : Nat) (p : Progress) :
    applyBlock b o block path theme p =
      match p.site.tree.file? path with
      | some (.text text) => patchText b o block path theme text.toList true p
      | some (.bytes _) => missing p path theme
      | none =>
        match MissingFile.parse (block.fetch? "@error") with
        | .skip => p.note path theme .skipped
        | .ignore => patchText b o block path theme [] false p
        | .fatal => missing p path theme := by
  unfold applyBlock
  rw [isFile_eq_file?]
  cases h : p.site.tree.file? path with
  | none => rfl
  | some contents =>
    rw [if_pos (Option.isSome_some), text?_of_file? h]
    cases contents <;> rfl

theorem settles_malformed (b : Board) (o : PatchOptions) (path? : Option Path) (p : Progress)
    (reason : String) : Settles b o path? p (malformed p reason) :=
  .kept ((Report.Records.refl p.report).fail none _ _ rfl trivial)

theorem settles_missing (b : Board) (o : PatchOptions) (path : Path) (theme : Nat)
    (p : Progress) : Settles b o (some path) p (missing p path theme) :=
  .kept ((Report.Records.refl p.report).fail (some path) theme _ rfl trivial)

theorem settles_patchText (b : Board) (o : PatchOptions) (block : Document) (path : Path)
    (theme : Nat) (text : List Char) (existed : Bool) (p : Progress) :
    Settles b o (some path) p (patchText b o block path theme text existed p) := by
  obtain ⟨new, report, hr, ⟨-, hp⟩ | ⟨hn, text', hp⟩⟩ :=
    patchText_cases path theme b o block text existed p
  · rw [hp]
    exact .kept hr
  · rw [hp]
    exact .saved theme text' existed hr (by simpa using hn) rfl

theorem settles_applyBlock (b : Board) (o : PatchOptions) (block : Document) (path : Path)
    (theme : Nat) (p : Progress) :
    Settles b o (some path) p (applyBlock b o block path theme p) := by
  rw [applyBlock_eq]
  split
  · exact settles_patchText ..
  · exact settles_missing ..
  · split
    · exact .kept ((Report.Records.refl p.report).note path theme _ rfl trivial)
    · exact settles_patchText ..
    · exact settles_missing ..

theorem settles_runJob (b : Board) (o : PatchOptions) (p : Progress) (job : Job) :
    Settles b o job.path? p (runJob b o p job) := by
  cases job with
  | nameless number => exact settles_malformed ..
  | block document copy => exact settles_applyBlock ..

def Job.footprint (b : Board) (t : Tree) (job : Job) : List Place :=
  job.path?.toList.flatMap (Save.footprint b t)

theorem grown_runJob (b : Board) (o : PatchOptions) (p : Progress) (job : Job) :
    Grown p.site.tree (runJob b o p job).site.tree (job.footprint b p.site.tree) :=
  (settles_runJob b o p job).grown

theorem records_foldl_runJob (b : Board) (o : PatchOptions) (jobs : List Job) (p : Progress) :
    ∃ new, p.report.Records new (jobs.foldl (runJob b o) p).report := by
  induction jobs generalizing p with
  | nil => exact ⟨[], .refl _⟩
  | cons job jobs ih =>
    obtain ⟨new, hjob⟩ := (settles_runJob b o p job).records
    obtain ⟨new', hrest⟩ := ih (runJob b o p job)
    exact ⟨new ++ new', hjob.trans hrest⟩

end Patchboard.Modification
