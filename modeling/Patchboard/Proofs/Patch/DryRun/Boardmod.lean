import Patchboard.Proofs.Patch.Stream
import Patchboard.Proofs.Tree.View
import Mathlib.Data.List.Find

set_option autoImplicit false

namespace Patchboard.Boardmod
open Tree

namespace State

def on (s : State) (site : Site) : State := { s with progress := s.progress.on site }

theorem close_on {b : Board} {undo : Bool} {s : State} {site : Site}
    (hw : ∀ f ∈ s.file, site.isWritable f.path = true)
    (hr : (s.close b ⟨false, undo⟩).progress.report.Unrefused) :
    (s.on site).close b ⟨true, undo⟩ = (s.close b ⟨false, undo⟩).on site := by
  have hfile : (s.on site).file = s.file := rfl
  unfold close at hr ⊢
  rw [hfile]
  cases hf : s.file with
  | none => rfl
  | some f =>
    rw [hf] at hr
    dsimp only at hr ⊢
    split at hr
    · rename_i hfail
      rw [if_pos hfail, if_pos hfail]
      rfl
    · rename_i hfail
      rw [if_neg hfail, if_neg hfail]
      have hs := Save.save_on b f.path f.theme f.text true (hw f hf) hr
      unfold on
      dsimp only
      rw [hs]

theorem openFile_on {path : Path} {theme : Nat} {s : State} {site : Site}
    (hf : s.progress.site.tree.file? path = site.tree.file? path) :
    (s.on site).openFile path theme = (s.openFile path theme).on site := by
  have hsite : (s.on site).progress.site = site := rfl
  unfold openFile
  rw [hsite, isFile_eq_file?, isFile_eq_file?, hf]
  cases hp : site.tree.file? path with
  | none => rfl
  | some contents =>
    rw [text?_of_file? hp, text?_of_file? (hf.trans hp)]
    cases contents <;> rfl

theorem beginSearch_on (t : Token) (s : State) (site : Site) :
    (s.on site).beginSearch t = (s.beginSearch t).on site := by
  have hfile : (s.on site).file = s.file := rfl
  have hsearch : (s.on site).search = s.search := rfl
  unfold beginSearch
  rw [hfile, hsearch]
  cases s.file with
  | none => rfl
  | some f =>
    dsimp only
    split <;> rfl

theorem applyEdit_on (undo : Bool) (t : Token) (search : List Char) (f : OpenFile) (s : State)
    (site : Site) : (s.on site).applyEdit ⟨true, undo⟩ t search f =
      (s.applyEdit ⟨false, undo⟩ t search f).on site := by
  unfold applyEdit
  dsimp only
  split <;> rfl

theorem edit_on (undo : Bool) (t : Token) (s : State) (site : Site) :
    (s.on site).edit ⟨true, undo⟩ t = (s.edit ⟨false, undo⟩ t).on site := by
  have hfile : (s.on site).file = s.file := rfl
  have hsearch : (s.on site).search = s.search := rfl
  unfold edit
  rw [hfile, hsearch]
  dsimp only
  cases s.file with
  | none => rfl
  | some f =>
    cases s.search with
    | none => rfl
    | some search => exact applyEdit_on undo t search f { s with search := none } site

end State

def lookups (b : Board) (raw : String) : List Path :=
  let resolved := b.vars.resolve raw
  match b.vars.boardDirectory? with
  | none => []
  | some board => board.join resolved :: (fallbacks b).map fun base => base.join resolved

theorem resolveTarget_of_view {b : Board} {raw : String} {t t' : Tree}
    (h : ∀ p ∈ lookups b raw, t.view p = t'.view p) :
    resolveTarget b t raw = resolveTarget b t' raw := by
  unfold lookups at h
  unfold resolveTarget
  dsimp only at h ⊢
  split
  · rfl
  · cases hb : b.vars.boardDirectory? with
    | none => rfl
    | some board =>
      rw [hb] at h
      dsimp only at h ⊢
      have hprimary := pathExists_of_view (h _ (List.mem_cons_self ..))
      have hfallbacks := List.find?_congr fun p hp =>
        pathExists_of_view (h p (List.mem_cons_of_mem _ hp))
      rw [hprimary, hfallbacks]

def targetText (t : Token) : String := Text.trimmed (String.ofList t.text)

theorem locate_of_view {b : Board} {token : Token} {t t' : Tree}
    (h : ∀ p ∈ lookups b (targetText token), t.view p = t'.view p) :
    locate b t token = locate b t' token := by
  have htarget := resolveTarget_of_view h
  unfold targetText at htarget
  unfold locate
  dsimp only
  rw [htarget]

def looks (b : Board) (raw : String) (t : Tree) : List Path :=
  let tokens := Token.tokens raw.toList
  tokens.flatMap (fun token => lookups b (targetText token)) ++
    ((tokens.map (locate b t)).filterMap (·.path)).flatMap fun p =>
      (ThemeCopy.candidates b.themes p).map ThemeCopy.path

theorem visited_of_view {b : Board} {raw : String} {t t' : Tree}
    (h : ∀ p ∈ looks b raw t, t.view p = t'.view p) : visited b raw t = visited b raw t' := by
  unfold looks at h
  unfold visited fannedOut
  have hlocate := List.map_congr_left fun token ht =>
    locate_of_view fun p hp => h p (List.mem_append_left _ (List.mem_flatMap.2 ⟨token, ht, hp⟩))
  have hindex := CopyIndex.ofTargets_of_view fun p hp copy hc => h copy.path
    (List.mem_append_right _ (List.mem_flatMap.2 ⟨p, hp, List.mem_map_of_mem hc⟩))
  dsimp only at hindex ⊢
  rw [hindex, hlocate]

theorem advance_on {b : Board} {undo : Bool} {s : State} {t : Token} {site : Site}
    (hw : ∀ path ∈ s.path?, site.isWritable path = true) (hp : t.kind = .file → t.path.isSome)
    (hf : ∀ path ∈ fileOf? t, (s.close b ⟨false, undo⟩).progress.site.tree.file? path =
      site.tree.file? path)
    (hr : (advance b ⟨false, undo⟩ s t).progress.report.Unrefused) :
    advance b ⟨true, undo⟩ (s.on site) t = (advance b ⟨false, undo⟩ s t).on site := by
  by_cases hk : t.kind = .file
  · obtain ⟨path, hpath⟩ := fileOf?_of_kind hk (hp hk)
    rw [advance_file hpath] at hr ⊢
    obtain ⟨new, hopen⟩ := State.records_openFile path t.theme (s.close b ⟨false, undo⟩)
    rw [advance_file hpath, State.close_on ?_ (hr.of_prefix hopen.prefix_events)]
    · exact State.openFile_on (hf path hpath)
    · intro f hfile
      exact hw f.path (by rw [State.path?, hfile]; rfl)
  · unfold advance
    split
    · rename_i h
      exact absurd h hk
    · exact s.beginSearch_on t site
    · exact s.edit_on undo t site

theorem path?_advance {b : Board} {o : PatchOptions} {s : State} {t : Token}
    (hp : t.kind = .file → t.path.isSome) :
    ∀ path ∈ (advance b o s t).path?, path ∈ fileOf? t ∨ path ∈ s.path? := by
  intro path hpath
  by_cases hk : t.kind = .file
  · obtain ⟨file, hfile⟩ := fileOf?_of_kind hk (hp hk)
    rw [advance_file hfile] at hpath
    rw [State.path?_openFile _ _ _ path hpath]
    exact .inl hfile
  · obtain ⟨new, h⟩ := goesOn_advance (b := b) (o := o) hk s
    rw [h.path] at hpath
    exact .inr hpath

def Undisturbed (b : Board) (undo : Bool) (site : Site) : List Token → State → Prop
  | [], _ => True
  | t :: rest, s =>
    (∀ path ∈ fileOf? t, (s.close b ⟨false, undo⟩).progress.site.tree.file? path =
      site.tree.file? path) ∧
      Undisturbed b undo site rest (advance b ⟨false, undo⟩ s t)

theorem foldl_advance_on {b : Board} {undo : Bool} {site : Site} {tokens : List Token}
    {s : State} (hp : ∀ t ∈ tokens, t.kind = .file → t.path.isSome)
    (hopen : ∀ path ∈ s.path?, site.isWritable path = true)
    (hw : ∀ t ∈ tokens, ∀ path ∈ fileOf? t, site.isWritable path = true)
    (hu : Undisturbed b undo site tokens s)
    (hr : ((tokens.foldl (advance b ⟨false, undo⟩) s).close b
      ⟨false, undo⟩).progress.report.Unrefused) :
    (tokens.foldl (advance b ⟨true, undo⟩) (s.on site)).close b ⟨true, undo⟩ =
      ((tokens.foldl (advance b ⟨false, undo⟩) s).close b ⟨false, undo⟩).on site := by
  induction tokens generalizing s with
  | nil =>
    refine State.close_on (fun f hf => hopen f.path ?_) hr
    rw [State.path?, hf]
    rfl
  | cons t tokens ih =>
    obtain ⟨hf, hu⟩ := hu
    have hpt := hp t (List.mem_cons_self ..)
    obtain ⟨new, hrest⟩ := records_foldl_advance b ⟨false, undo⟩ tokens
      (advance b ⟨false, undo⟩ s t)
    obtain ⟨new', hclose⟩ := State.records_close b ⟨false, undo⟩
      (tokens.foldl (advance b ⟨false, undo⟩) (advance b ⟨false, undo⟩ s t))
    have hstep : (advance b ⟨false, undo⟩ s t).progress.report.Unrefused :=
      hr.of_prefix (hrest.trans hclose).prefix_events
    rw [List.foldl_cons, List.foldl_cons, advance_on hopen hpt hf hstep]
    refine ih (fun other ho => hp other (List.mem_cons_of_mem _ ho)) (fun path hpath => ?_)
      (fun other ho => hw other (List.mem_cons_of_mem _ ho)) hu hr
    rcases path?_advance hpt path hpath with h | h
    · exact hw t (List.mem_cons_self ..) path h
    · exact hopen path h

theorem reportProblems_on (p : Progress) (site : Site) (problems : List Problem) :
    reportProblems (p.on site) problems = (reportProblems p problems).on site := by
  induction problems generalizing p with
  | nil => rfl
  | cons problem problems ih => exact ih (p.fail none Theme.noCustom (.error problem))

theorem start_on (raw : String) (s site : Site) : (start raw s).on site = start raw site := by
  unfold start State.on
  dsimp only
  rw [← reportProblems_on]
  rfl

theorem applyTo_on {b : Board} {undo : Bool} {raw : String} {site s : Site}
    (hv : visited b raw s.tree = visited b raw site.tree)
    (hw : ∀ t ∈ visited b raw site.tree, ∀ path ∈ fileOf? t, site.isWritable path = true)
    (hu : Undisturbed b undo site (visited b raw s.tree) (start raw s))
    (hr : (applyTo b ⟨false, undo⟩ raw s).report.Unrefused) :
    applyTo b ⟨true, undo⟩ raw site = (applyTo b ⟨false, undo⟩ raw s).on site := by
  have hstart := start_on raw s site
  cases hn : namesFile raw with
  | true =>
    rw [applyTo_eq hn] at hr ⊢
    rw [applyTo_eq hn, ← hv, ← hstart]
    rw [← hv] at hw
    rw [foldl_advance_on (fun t ht => isSome_of_mem_visited ht) (by simp [start, State.path?])
      hw hu hr]
    rfl
  | false =>
    rw [applyTo_nameless hn, applyTo_nameless hn, ← hstart]
    rfl

end Patchboard.Boardmod
