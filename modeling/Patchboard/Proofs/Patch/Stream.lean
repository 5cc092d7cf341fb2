import Patchboard.Patch.Boardmod
import Patchboard.Proofs.Patch.Saving

set_option autoImplicit false

namespace Patchboard.Boardmod
open Tree

namespace State

def path? (s : State) : Option Path := s.file.map OpenFile.path

theorem openFile_cases (path : Path) (theme : Nat) (s : State) :
    (∃ text, s.progress.site.tree.text? path = .ok text ∧ s.openFile path theme =
      ⟨some ⟨path, theme, text.toList, false⟩, none, s.progress.note path theme .opened⟩) ∨
    s.openFile path theme = ⟨none, none, s.progress.fail (some path) theme .missing⟩ := by
  unfold openFile
  dsimp only
  split
  · split
    · rename_i text ht
      exact .inl ⟨text, ht, rfl⟩
    · exact .inr rfl
  · exact .inr rfl

theorem close_cases (b : Board) (o : PatchOptions) (s : State) :
    (s.file = none ∧ s.close b o = s) ∨
    ∃ f, s.file = some f ∧
      ((f.failed = true ∧ s.close b o = { s with file := none }) ∨
        (f.failed = false ∧ s.close b o = { s with
          file := none
          progress := Save.save b o f.path f.theme f.text true s.progress })) := by
  unfold close
  cases hf : s.file with
  | none => exact .inl ⟨rfl, rfl⟩
  | some f =>
    refine .inr ⟨f, rfl, ?_⟩
    cases hfail : f.failed with
    | true => exact .inl ⟨rfl, by simp [hfail]⟩
    | false => exact .inr ⟨rfl, by simp [hfail]⟩

/-- A state goes on within its file: the site stays as it is, some events are recorded, and the file
fails when one of them is a failure. -/
structure GoesOn (s : State) (new : List Event) (s' : State) : Prop where
  records : s.progress.report.Records new s'.progress.report
  site : s'.progress.site = s.progress.site
  path : s'.path? = s.path?
  failed : ∀ f ∈ s.file, ∀ f' ∈ s'.file, f'.failed = (f.failed || new.any (·.kind.isFailure))

theorem GoesOn.refl (s : State) : s.GoesOn [] s := by
  refine ⟨.refl _, rfl, rfl, fun f hf f' hf' => ?_⟩
  rw [Option.some_inj.1 (hf.symm.trans hf')]
  simp

theorem GoesOn.file {s s' : State} {new : List Event} (h : s.GoesOn new s') {f' : OpenFile}
    (hf' : s'.file = some f') : ∃ f, s.file = some f ∧
      f'.failed = (f.failed || new.any (·.kind.isFailure)) := by
  have hp := h.path
  unfold path? at hp
  cases hf : s.file with
  | none => simp [hf, hf'] at hp
  | some f => exact ⟨f, rfl, h.failed f hf f' hf'⟩

theorem GoesOn.trans {s s' s'' : State} {new new' : List Event} (h : s.GoesOn new s')
    (h' : s'.GoesOn new' s'') : s.GoesOn (new ++ new') s'' := by
  refine ⟨h.records.trans h'.records, h'.site.trans h.site, h'.path.trans h.path,
    fun f hf f'' hf'' => ?_⟩
  obtain ⟨f', hf', hlast⟩ := h'.file hf''
  rw [hlast, h.failed f hf f' hf', List.any_append, Bool.or_assoc]

theorem goesOn_malformed {s : State} (hf : s.file = none) (theme : Nat) (reason : String) :
    ∃ new, s.GoesOn new (s.malformed none theme reason) := by
  refine ⟨_, (Report.Records.refl _).fail none theme _ rfl trivial, rfl, rfl, ?_⟩
  simp [hf]

theorem goesOn_spoil {s : State} {f : OpenFile} (hf : s.file = some f) (reason : String) :
    ∃ new, s.GoesOn new (s.spoil f reason) := by
  refine ⟨_, (Report.Records.refl _).fail (some f.path) f.theme _ rfl trivial, rfl, ?_, ?_⟩
  · simp [path?, spoil, malformed, hf]
  · intro g hg g' hg'
    simp only [spoil, malformed, Option.mem_def, Option.some.injEq] at hg'
    simp [← hg', EventKind.isFailure]

theorem goesOn_beginSearch (t : Token) (s : State) : ∃ new, s.GoesOn new (s.beginSearch t) := by
  unfold beginSearch
  cases hf : s.file with
  | none => exact goesOn_malformed hf t.theme _
  | some f =>
    dsimp only
    split
    · obtain ⟨new, h⟩ := goesOn_spoil hf "two searches without a replacement"
      exact ⟨new, h.records, h.site, h.path, h.failed⟩
    · obtain ⟨hr, hs, hp, hfail⟩ := GoesOn.refl s
      exact ⟨[], hr, hs, hp, hfail⟩

theorem goesOn_applyEdit (o : PatchOptions) (t : Token) (search : List Char) {f : OpenFile}
    {s : State} (hf : s.file = some f) : ∃ new, s.GoesOn new (s.applyEdit o t search f) := by
  have hrefl := Report.Records.refl s.progress.report
  unfold applyEdit
  dsimp only
  split
  · refine ⟨_, hrefl.note f.path f.theme _ rfl rfl, rfl, by simp [path?, hf], fun g hg g' hg' => ?_⟩
    rw [hf, Option.mem_some_iff] at hg
    rw [Option.mem_some_iff] at hg'
    simp [← hg', hg, EventKind.isFailure]
  · refine ⟨_, hrefl.fail (some f.path) f.theme _ rfl rfl, rfl, by simp [path?, hf], ?_⟩
    intro g hg g' hg'
    rw [Option.mem_some_iff] at hg'
    simp [← hg', EventKind.isFailure]

theorem goesOn_edit (o : PatchOptions) (t : Token) (s : State) :
    ∃ new, s.GoesOn new (s.edit o t) := by
  unfold edit
  dsimp only
  split
  · rename_i hf
    obtain ⟨new, h⟩ := goesOn_malformed (s := { s with search := none }) hf t.theme
      "replacement before any file"
    exact ⟨new, h.records, h.site, h.path, h.failed⟩
  · rename_i f hf _
    obtain ⟨new, h⟩ := goesOn_spoil (s := { s with search := none }) hf
      "replacement without a search"
    exact ⟨new, h.records, h.site, h.path, h.failed⟩
  · rename_i f search hf _
    obtain ⟨new, h⟩ := goesOn_applyEdit o t search (s := { s with search := none }) hf
    exact ⟨new, h.records, h.site, h.path, h.failed⟩

theorem site_openFile (path : Path) (theme : Nat) (s : State) :
    (s.openFile path theme).progress.site = s.progress.site := by
  rcases openFile_cases path theme s with ⟨text, -, h⟩ | h
  · rw [h]
    rfl
  · rw [h]
    rfl

theorem path?_openFile (path : Path) (theme : Nat) (s : State) :
    ∀ other ∈ (s.openFile path theme).path?, other = path := by
  rcases openFile_cases path theme s with ⟨text, -, h⟩ | h
  · rw [h]
    simp [path?]
  · rw [h]
    simp [path?]

theorem records_openFile (path : Path) (theme : Nat) (s : State) :
    ∃ new, s.progress.report.Records new (s.openFile path theme).progress.report := by
  have hrefl := Report.Records.refl s.progress.report
  rcases openFile_cases path theme s with ⟨text, -, h⟩ | h
  · rw [h]
    exact ⟨_, hrefl.note path theme _ rfl trivial⟩
  · rw [h]
    exact ⟨_, hrefl.fail (some path) theme _ rfl trivial⟩

theorem records_close (b : Board) (o : PatchOptions) (s : State) :
    ∃ new, s.progress.report.Records new (s.close b o).progress.report := by
  rcases close_cases b o s with ⟨-, h⟩ | ⟨f, -, ⟨-, h⟩ | ⟨-, h⟩⟩
  · rw [h]
    exact ⟨[], .refl _⟩
  · rw [h]
    exact ⟨[], .refl _⟩
  · rw [h]
    obtain ⟨new, hr, -⟩ := Save.records_save b f.path f.theme f.text true o s.progress
    exact ⟨new, hr⟩

theorem grown_close (b : Board) (o : PatchOptions) (s : State) :
    Grown s.progress.site.tree (s.close b o).progress.site.tree
      (s.path?.toList.flatMap (Save.footprint b s.progress.site.tree)) := by
  rcases close_cases b o s with ⟨-, h⟩ | ⟨f, hf, ⟨-, h⟩ | ⟨-, h⟩⟩
  · rw [h]
    exact Grown.refl ..
  · rw [h]
    exact Grown.refl ..
  · rw [h]
    have hs := Save.grown_save b f.path f.theme f.text true o s.progress
    exact hs.mono (by simp [path?, hf])

end State

theorem goesOn_advance {b : Board} {o : PatchOptions} {t : Token} (hk : t.kind ≠ .file)
    (s : State) : ∃ new, s.GoesOn new (advance b o s t) := by
  unfold advance
  split
  · rename_i h
    exact absurd h hk
  · exact s.goesOn_beginSearch t
  · exact s.goesOn_edit o t

theorem records_advance (b : Board) (o : PatchOptions) (s : State) (t : Token) :
    ∃ new, s.progress.report.Records new (advance b o s t).progress.report := by
  by_cases hk : t.kind = .file
  · unfold advance
    rw [hk]
    obtain ⟨new, hclose⟩ := s.records_close b o
    obtain ⟨new', hopen⟩ := State.records_openFile (t.path.getD (resolveTarget b
      (s.close b o).progress.site.tree (Text.trimmed (String.ofList t.text)))) t.theme (s.close b o)
    exact ⟨new ++ new', hclose.trans hopen⟩
  · obtain ⟨new, h⟩ := goesOn_advance (b := b) (o := o) hk s
    exact ⟨new, h.records⟩

theorem records_foldl_advance (b : Board) (o : PatchOptions) (tokens : List Token) (s : State) :
    ∃ new, s.progress.report.Records new (tokens.foldl (advance b o) s).progress.report := by
  induction tokens generalizing s with
  | nil => exact ⟨[], .refl _⟩
  | cons t tokens ih =>
    obtain ⟨new, ht⟩ := records_advance b o s t
    obtain ⟨new', hrest⟩ := ih (advance b o s t)
    exact ⟨new ++ new', ht.trans hrest⟩

def fileOf? (t : Token) : Option Path := if t.kind = .file then t.path else none

/-- The tokens that are carried out, those for the copies last. -/
def visited (b : Board) (raw : String) (t : Tree) : List Token :=
  fannedOut b t ((Token.tokens raw.toList).map (locate b t))

theorem isSome_locate {b : Board} {tree : Tree} {t : Token} (h : (locate b tree t).kind = .file) :
    (locate b tree t).path.isSome := by
  unfold locate at h ⊢
  split
  · rfl
  · rename_i hk
    rw [if_neg hk] at h
    exact absurd h hk

theorem isSome_of_mem_visited {b : Board} {raw : String} {tree : Tree} {t : Token}
    (h : t ∈ visited b raw tree) (hk : t.kind = .file) : t.path.isSome := by
  unfold visited fannedOut at h
  rcases List.mem_append.1 h with h | h
  · obtain ⟨t', -, rfl⟩ := List.mem_map.1 h
    exact isSome_locate hk
  · obtain ⟨group, -, h⟩ := List.mem_flatMap.1 h
    unfold copiesOf at h
    split at h
    · simp at h
    · split at h
      · obtain ⟨copy, -, h⟩ := List.mem_flatMap.1 h
        obtain ⟨t', -, rfl⟩ := List.mem_map.1 h
        have hk' : t'.kind = .file := hk
        simp [hk']
      · simp at h

theorem advance_file {b : Board} {o : PatchOptions} {s : State} {t : Token} {path : Path}
    (h : fileOf? t = some path) : advance b o s t = (s.close b o).openFile path t.theme := by
  unfold fileOf? at h
  split at h
  · rename_i hk
    unfold advance
    rw [hk, h]
    rfl
  · simp at h

theorem fileOf?_of_kind {t : Token} (hk : t.kind = .file) (hp : t.path.isSome) :
    ∃ path, fileOf? t = some path := by
  obtain ⟨path, hp⟩ := Option.isSome_iff_exists.1 hp
  exact ⟨path, by rw [fileOf?, if_pos hk, hp]⟩

def start (raw : String) (s : Site) : State :=
  ⟨none, none, reportProblems ⟨s, .empty⟩ (Token.problems raw.toList)⟩

def namesFile (raw : String) : Bool := (Token.tokens raw.toList).any fun t => t.kind = .file

theorem applyTo_eq {raw : String} (h : namesFile raw = true) (b : Board) (o : PatchOptions)
    (s : Site) : applyTo b o raw s =
      (((visited b raw s.tree).foldl (advance b o) (start raw s)).close b o).progress := by
  unfold namesFile at h
  unfold applyTo
  exact if_pos h

theorem applyTo_nameless {raw : String} (h : namesFile raw = false) (b : Board)
    (o : PatchOptions) (s : Site) : applyTo b o raw s =
      (start raw s).progress.fail none Theme.noCustom
        (.error (.malformedPatch "boardmod patch names no files")) := by
  unfold namesFile at h
  unfold applyTo
  exact if_neg (by simp [h])

end Patchboard.Boardmod
