import Patchboard.Proofs.Patch.Settling
import Patchboard.Proofs.Patch.Stream

set_option autoImplicit false

namespace Patchboard.Boardmod
open Progress

theorem flatten_groups (tokens : List Token) : (groups tokens).flatten = tokens := by
  induction tokens with
  | nil => rfl
  | cons t tokens ih =>
    rw [groups]
    split
    · rename_i h
      rw [h] at ih
      simp [← ih]
    · rename_i group more h
      rw [h] at ih
      split <;> simp [← ih]

theorem kind_ne_of_mem_tail {tokens group : List Token} (hg : group ∈ groups tokens) :
    ∀ t ∈ group.tail, t.kind ≠ .file := by
  induction tokens generalizing group with
  | nil => simp [groups] at hg
  | cons first tokens ih =>
    rw [groups] at hg
    split at hg
    · rw [List.mem_singleton.1 hg]
      simp
    · rename_i next more h
      rw [h] at ih
      split at hg
      · rcases List.mem_cons.1 hg with rfl | hg
        · simp
        · exact ih hg
      · rename_i hhead
        rcases List.mem_cons.1 hg with rfl | hg
        · have htail := ih (List.mem_cons_self ..)
          intro t ht hk
          cases next with
          | nil => simp at ht
          | cons second rest =>
            rcases List.mem_cons.1 ht with rfl | ht
            · exact hhead (by simp [hk])
            · exact htail t ht hk
        · exact ih (List.mem_cons_of_mem _ hg)

theorem kind_head_of_mem_tail {tokens group : List Token} (hg : group ∈ (groups tokens).tail) :
    group.head?.map (·.kind) = some .file := by
  induction tokens with
  | nil => simp [groups] at hg
  | cons first tokens ih =>
    rw [groups] at hg
    split at hg
    · simp at hg
    · rename_i next more h
      rw [h] at ih
      split at hg
      · rename_i hhead
        rcases List.mem_cons.1 hg with rfl | hg
        · exact hhead
        · exact ih hg
      · exact ih hg

def runGroup (b : Board) (o : PatchOptions) (p : Progress) (group : List Token) : Progress :=
  ((group.foldl (advance b o) ⟨none, none, p⟩).close b o).progress

theorem advance_of_file {t : Token} (hk : t.kind = .file) (b : Board) (o : PatchOptions)
    (s : State) : advance b o s t = advance b o ⟨none, none, (s.close b o).progress⟩ t := by
  unfold advance
  rw [hk]
  rfl

theorem foldl_of_heads {gs : List (List Token)}
    (h : ∀ group ∈ gs, group.head?.map (·.kind) = some .file) (b : Board) (o : PatchOptions)
    (s : State) : ((gs.flatten.foldl (advance b o) s).close b o).progress =
      gs.foldl (runGroup b o) (s.close b o).progress := by
  induction gs generalizing s with
  | nil => rfl
  | cons group gs ih =>
    have hhead := h group (List.mem_cons_self ..)
    have hstep : ((group.foldl (advance b o) s).close b o).progress =
        runGroup b o (s.close b o).progress group := by
      cases group with
      | nil => simp at hhead
      | cons t rest =>
        unfold runGroup
        rw [List.foldl_cons, List.foldl_cons, advance_of_file (by simpa using hhead)]
    rw [List.flatten_cons, List.foldl_append, List.foldl_cons,
      ih (fun other ho => h other (List.mem_cons_of_mem _ ho)), hstep]

theorem foldl_advance_eq (b : Board) (o : PatchOptions) (tokens : List Token) (p : Progress) :
    ((tokens.foldl (advance b o) ⟨none, none, p⟩).close b o).progress =
      (groups tokens).foldl (runGroup b o) p := by
  have hflat := flatten_groups tokens
  have hheads := fun group (hg : group ∈ (groups tokens).tail) => kind_head_of_mem_tail hg
  cases hgs : groups tokens with
  | nil =>
    rw [hgs] at hflat
    rw [← hflat]
    rfl
  | cons group gs =>
    rw [hgs] at hflat hheads
    rw [List.tail_cons] at hheads
    rw [← hflat, List.flatten_cons, List.foldl_append, foldl_of_heads hheads]
    rfl

theorem goesOn_foldl {b : Board} {o : PatchOptions} {tokens : List Token}
    (hk : ∀ t ∈ tokens, t.kind ≠ .file) (s : State) :
    ∃ new, s.GoesOn new (tokens.foldl (advance b o) s) := by
  induction tokens generalizing s with
  | nil => exact ⟨[], .refl s⟩
  | cons t tokens ih =>
    obtain ⟨new, ht⟩ := goesOn_advance (b := b) (o := o) (hk t (List.mem_cons_self ..)) s
    obtain ⟨new', hrest⟩ := ih (fun other ho => hk other (List.mem_cons_of_mem _ ho))
      (advance b o s t)
    exact ⟨new ++ new', ht.trans hrest⟩

theorem settles_close {b : Board} {o : PatchOptions} {path? : Option Path} {p : Progress}
    {s s' : State} {new new' : List Event} (hs : s.progress.site = p.site)
    (hr : p.report.Records new s.progress.report) (hn : ∀ e ∈ new, s.file.isSome →
      e.kind.isFailure = false) (hfile : ∀ f ∈ s.file, f.failed = false ∧ f.path ∈ path?)
    (h : s.GoesOn new' s') : Settles b o path? p (s'.close b o).progress := by
  have hrecords := hr.trans h.records
  have hprogress : s'.progress = { p with report := s'.progress.report } := by
    rw [← hs, ← h.site]
  rcases s'.close_cases b o with ⟨-, hc⟩ | ⟨f', hf', ⟨-, hc⟩ | ⟨hfail, hc⟩⟩
  · rw [hc, hprogress]
    exact .kept hrecords
  · rw [hc]
    dsimp only
    rw [hprogress]
    exact .kept hrecords
  · obtain ⟨f, hf, hlast⟩ := h.file hf'
    obtain ⟨hfirst, hpath⟩ := hfile f hf
    have hsame : f'.path = f.path := by
      have hp := h.path
      simpa [State.path?, hf, hf'] using hp
    rw [hfail, hfirst, Bool.false_or, eq_comm, List.any_eq_false] at hlast
    rw [hc]
    dsimp only
    rw [hprogress]
    refine .saved f'.theme f'.text true hrecords (fun e he => ?_) (hsame ▸ hpath)
    rcases List.mem_append.1 he with he | he
    · exact hn e he (by rw [hf]; rfl)
    · simpa using hlast e he

theorem settles_runGroup {group : List Token} (hk : ∀ t ∈ group.tail, t.kind ≠ .file)
    (hp : ∀ t ∈ group, t.kind = .file → t.path.isSome) (b : Board) (o : PatchOptions)
    (p : Progress) : Settles b o (group.head?.bind fileOf?) p (runGroup b o p group) := by
  have hrefl := Report.Records.refl p.report
  unfold runGroup
  cases group with
  | nil => exact .kept hrefl
  | cons t rest =>
    by_cases ht : t.kind = .file
    · obtain ⟨path, hpath⟩ := fileOf?_of_kind ht (hp t (List.mem_cons_self ..) ht)
      have hbegin : advance b o ⟨none, none, p⟩ t =
          (⟨none, none, p⟩ : State).openFile path t.theme := advance_file hpath
      have hbind : (t :: rest).head?.bind fileOf? = some path := hpath
      obtain ⟨new', hrest⟩ := goesOn_foldl (b := b) (o := o) hk (advance b o ⟨none, none, p⟩ t)
      rw [List.foldl_cons, hbind]
      rcases State.openFile_cases path t.theme ⟨none, none, p⟩ with ⟨text, -, ho⟩ | ho
      · rw [hbegin, ho] at hrest
        rw [hbegin, ho]
        exact settles_close rfl (hrefl.note path t.theme .opened rfl trivial)
          (by simp [EventKind.isFailure]) (by simp) hrest
      · rw [hbegin, ho] at hrest
        rw [hbegin, ho]
        exact settles_close rfl (hrefl.fail (some path) t.theme .missing rfl trivial)
          (by simp) (by simp) hrest
    · have hnone : ∀ other ∈ t :: rest, other.kind ≠ .file := by
        intro other ho
        rcases List.mem_cons.1 ho with rfl | ho
        · exact ht
        · exact hk other ho
      obtain ⟨new', hall⟩ := goesOn_foldl (b := b) (o := o) hnone ⟨none, none, p⟩
      exact settles_close rfl hrefl (by simp) (by simp) hall

theorem settles_reportProblems (b : Board) (o : PatchOptions) (problems : List Problem)
    (p : Progress) : Settles b o none p (reportProblems p problems) := by
  have hall : ∃ new report, p.report.Records new report ∧
      reportProblems p problems = { p with report } := by
    induction problems generalizing p with
    | nil => exact ⟨[], p.report, .refl _, rfl⟩
    | cons problem problems ih =>
      obtain ⟨new, report, hr, hp⟩ := ih (p.fail none Theme.noCustom (.error problem))
      have hfirst := (Report.Records.refl p.report).fail none Theme.noCustom
        (.error problem) rfl trivial
      exact ⟨_, report, hfirst.trans hr, hp⟩
  obtain ⟨new, report, hr, hp⟩ := hall
  rw [hp]
  exact .kept hr

end Patchboard.Boardmod
