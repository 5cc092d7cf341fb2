import Patchboard.Tree.Operations

set_option autoImplicit false

/-!
How a tree changes while files are written: a few places get new contents, and directories appear
where nothing stood. What a path leads to, modes apart, then stays the same, unless it leads to one
of these places or steps up out of a directory that was not there before.
-/

namespace Patchboard.Tree

/-- What stands at a place, but for its mode. -/
def look (t : Tree) (place : Place) : Option Entry := (t.at? place).map (Entry.withMode 0)

/-- The contents of the file that a path leads to. -/
def file? (t : Tree) (p : Path) : Option Contents :=
  match t.find p with
  | .ok (_, .file contents _) => some contents
  | _ => none

theorem isFile_eq_file? (t : Tree) (p : Path) : t.isFile p = (t.file? p).isSome := by
  unfold isFile find? file?
  cases t.find p with
  | error e => rfl
  | ok found =>
    obtain ⟨place, entry⟩ := found
    cases entry <;> rfl

theorem text?_of_file? {t : Tree} {p : Path} {contents : Contents}
    (h : t.file? p = some contents) :
    t.text? p = match contents with
      | .text s => .ok s
      | .bytes _ => .error .notText := by
  unfold file? at h
  unfold text? contents?
  cases hf : t.find p with
  | error e => simp [hf] at h
  | ok found =>
    obtain ⟨place, entry⟩ := found
    cases entry with
    | directory mode => simp [hf] at h
    | file old mode =>
      simp only [hf, Option.some.injEq] at h
      subst h
      cases old <;> rfl

theorem text?_eq_ok_iff {t : Tree} {p : Path} {s : String} :
    t.text? p = .ok s ↔ t.file? p = some (.text s) := by
  unfold file? text? contents?
  cases t.find p with
  | error e => simp
  | ok found =>
    obtain ⟨place, entry⟩ := found
    cases entry with
    | directory mode => simp
    | file contents mode => cases contents <;> simp

theorem at?_put (t : Tree) (place other : Place) (entry : Entry) :
    (t.put place entry).at? other =
      if other = place ∧ place ≠ [] then some entry else t.at? other := by
  by_cases h : other = place
  · subst h
    by_cases hn : other = []
    · simp [at?, hn]
    · simp [at?, put, find?_insertAt, hn]
  · rw [at?_put_of_ne t h, if_neg fun hc => h hc.1]

theorem at?_root (t : Tree) : t.at? [] = some (.directory modeOfNewDirectory) := rfl

/-- A tree grows: what is written stands at the given places, and otherwise only directories are
new. -/
structure Grown (t t' : Tree) (written : List Place) : Prop where
  working : t'.working = t.working
  keeps : ∀ place, place ∉ written →
    t'.look place = t.look place ∨ t.look place = none ∧ t'.look place = some (.directory 0)
  directory : ∀ place, t.look place = some (.directory 0) → t'.look place = some (.directory 0)
  file : ∀ place contents, t.look place = some (.file contents 0) →
    ∃ contents', t'.look place = some (.file contents' 0)

variable {t t' t'' : Tree} {written written' : List Place}

theorem Grown.refl (t : Tree) (written : List Place) : Grown t t written :=
  ⟨rfl, fun _ _ => .inl rfl, fun _ h => h, fun _ contents h => ⟨contents, h⟩⟩

theorem Grown.mono (h : Grown t t' written) (hs : ∀ place ∈ written, place ∈ written') :
    Grown t t' written' :=
  ⟨h.working, fun place hp => h.keeps place fun hm => hp (hs place hm), h.directory, h.file⟩

theorem Grown.trans (h : Grown t t' written) (h' : Grown t' t'' written') :
    Grown t t'' (written ++ written') := by
  refine ⟨h'.working.trans h.working, fun place hp => ?_, fun place hd => ?_,
    fun place contents hf => ?_⟩
  · rw [List.mem_append, not_or] at hp
    rcases h.keeps place hp.1 with hk | ⟨hn, hd⟩
    · rw [← hk]
      exact h'.keeps place hp.2
    · exact .inr ⟨hn, h'.directory place hd⟩
  · exact h'.directory place (h.directory place hd)
  · obtain ⟨contents', hf'⟩ := h.file place contents hf
    exact h'.file place contents' hf'

theorem Grown.then (h : Grown t t' written) (h' : Grown t' t'' written) : Grown t t'' written :=
  (h.trans h').mono fun place hp => by simpa using hp

theorem look_put (t : Tree) (place other : Place) (entry : Entry) :
    (t.put place entry).look other =
      if other = place ∧ place ≠ [] then some (entry.withMode 0) else t.look other := by
  unfold look
  rw [at?_put]
  split <;> rfl

theorem grown_put_file {place : Place} (hd : t.look place ≠ some (.directory 0))
    (contents : Contents) (mode : Nat) :
    Grown t (t.put place (.file contents mode)) [place] := by
  have hn : place ≠ [] := fun hn => hd (by rw [hn]; rfl)
  refine ⟨rfl, fun other hp => .inl ?_, fun other ho => ?_, fun other old ho => ?_⟩
  · rw [look_put, if_neg fun hc => hp (List.mem_singleton.2 hc.1)]
  · have he : other ≠ place := fun he => hd (he ▸ ho)
    rw [look_put, if_neg fun hc => he hc.1, ho]
  · rw [look_put]
    by_cases he : other = place
    · exact ⟨contents, by rw [if_pos ⟨he, hn⟩]; rfl⟩
    · exact ⟨old, by rw [if_neg fun hc => he hc.1, ho]⟩

theorem grown_put_directory {place : Place} (ha : t.at? place = none) (mode : Nat) :
    Grown t (t.put place (.directory mode)) [] := by
  have hl : t.look place = none := by rw [look, ha]; rfl
  have hother (other : Place) (e : Entry) (ho : t.look other = some e) : other ≠ place := by
    rintro rfl
    simp [hl] at ho
  refine ⟨rfl, fun other _ => ?_, fun other ho => ?_, fun other old ho => ⟨old, ?_⟩⟩
  · rw [look_put]
    split
    · rename_i hc
      exact .inr ⟨hc.1 ▸ hl, rfl⟩
    · exact .inl rfl
  · rw [look_put, if_neg fun hc => hother other _ ho hc.1, ho]
  · rw [look_put, if_neg fun hc => hother other _ ho hc.1, ho]

theorem withMode_withMode (m n : Nat) (e : Entry) : (e.withMode m).withMode n = e.withMode n := by
  cases e <;> rfl

theorem look_put_mode {place : Place} {entry : Entry} (ha : t.at? place = some entry) (mode : Nat)
    (other : Place) : (t.put place (entry.withMode mode)).look other = t.look other := by
  rw [look_put]
  split
  · rename_i hc
    rw [hc.1, look, ha, withMode_withMode]
    rfl
  · rfl

theorem grown_put_mode {place : Place} {entry : Entry} (ha : t.at? place = some entry)
    (mode : Nat) : Grown t (t.put place (entry.withMode mode)) [] :=
  have hl := look_put_mode ha mode
  ⟨rfl, fun other _ => .inl (hl other), fun other ho => (hl other).trans ho,
    fun other old ho => ⟨old, (hl other).trans ho⟩⟩

theorem walk_ok {place goal : Place} {segments : List (List Char)}
    (h : t.walk place segments = .ok goal) : goal = segments.foldl stepInto place := by
  induction segments generalizing place with
  | nil =>
    rw [walk] at h
    exact (Except.ok.inj h).symm
  | cons segment rest ih =>
    rw [walk] at h
    split at h
    · simp at h
    · simp at h
    · split at h
      · simp at h
      · exact ih h

theorem locate_ok {p : Path} {place : Place} (h : t.locate p = .ok place) :
    place = t.lexicalPlace p := by
  unfold locate at h
  split at h
  · simp at h
  · split at h
    · simp at h
    · split at h
      · simp at h
      · exact walk_ok h

theorem lexicalPlace_of_grown (h : Grown t t' written) (p : Path) :
    t'.lexicalPlace p = t.lexicalPlace p := by
  rw [lexicalPlace, lexicalPlace, h.working]

theorem find_ok {p : Path} {place : Place} {entry : Entry} (h : t.find p = .ok (place, entry)) :
    t.locate p = .ok place ∧ t.at? place = some entry := by
  unfold find at h
  split at h
  · simp at h
  · rename_i located hl
    split at h
    · simp at h
    · rename_i e he
      split at h
      · simp at h
      · cases h
        exact ⟨hl, he⟩

theorem writable?_ok {p : Path} {place : Place} {mode : Option Nat}
    (h : t.writable? p = .ok (place, mode)) :
    place = t.lexicalPlace p ∧ t.look place ≠ some (.directory 0) := by
  unfold writable? at h
  split at h
  · simp at h
  · rename_i located hl
    split at h
    · simp at h
    · split at h
      · simp at h
      · rename_i contents m he
        cases h
        refine ⟨locate_ok hl, ?_⟩
        rw [look, he]
        simp [Entry.withMode]
      · rename_i he
        cases h
        refine ⟨locate_ok hl, ?_⟩
        rw [look, he]
        simp

def after {α : Type} (action : Action α) (t : Tree) : Tree := (action.run.run t).2

section
variable {ε α β : Type}

theorem run_bind (x : ExceptT ε (StateM Tree) α) (f : α → ExceptT ε (StateM Tree) β) (t : Tree) :
    (x >>= f).run.run t =
      match x.run.run t with
      | (.ok a, t) => (f a).run.run t
      | (.error e, t) => (.error e, t) := by
  rw [ExceptT.run_bind, StateT.run_bind]
  rcases StateT.run x.run t with ⟨r, t⟩
  cases r <;> rfl

theorem run_pure (a : α) (t : Tree) :
    (pure a : ExceptT ε (StateM Tree) α).run.run t = (.ok a, t) := rfl

theorem run_get (t : Tree) : (get : ExceptT ε (StateM Tree) Tree).run.run t = (.ok t, t) := rfl

theorem run_modify (f : Tree → Tree) (t : Tree) :
    (modify f : ExceptT ε (StateM Tree) PUnit).run.run t = (.ok (), f t) := rfl

theorem run_ask (f : Tree → Except FileError α) (t : Tree) :
    (ask f).run.run t = (f t, t) := by
  unfold ask
  rw [run_bind, run_get]
  dsimp only
  cases f t <;> rfl

end

theorem run_writeContents (p : Path) (contents : Contents) (t : Tree) :
    (writeContents p contents).run.run t =
      match t.writable? p with
      | .error e => (.error e, t)
      | .ok (place, mode) => (.ok (), t.put place (.file contents (mode.getD modeOfNewFile))) := by
  unfold writeContents
  rw [run_bind, run_ask]
  cases t.writable? p <;> rfl

theorem grown_writeContents (p : Path) (contents : Contents) (t : Tree) :
    Grown t (after (writeContents p contents) t) [t.lexicalPlace p] := by
  unfold after
  rw [run_writeContents]
  split
  · exact Grown.refl t _
  · rename_i place mode h
    obtain ⟨rfl, hd⟩ := writable?_ok h
    exact grown_put_file hd ..

theorem grown_copyFile (source target : Path) (t : Tree) :
    Grown t (after (copyFile source target) t) [t.lexicalPlace target] := by
  unfold after copyFile
  rw [run_bind, run_ask]
  cases t.find source with
  | error e => exact Grown.refl t _
  | ok found =>
    obtain ⟨origin, entry⟩ := found
    cases entry with
    | directory mode => exact Grown.refl t _
    | file contents mode =>
      dsimp only
      rw [run_bind, run_ask]
      cases h : t.writable? target with
      | error e => exact Grown.refl t _
      | ok found =>
        obtain ⟨place, found⟩ := found
        obtain ⟨rfl, hd⟩ := writable?_ok h
        exact grown_put_file hd ..

/-- Where relative and absolute paths start from. -/
def origin (t : Tree) (p : Path) : Place := if p.isAbsolute then [] else t.working

/-- Whatever stands in a tree stands in a directory. -/
structure Closed (t : Tree) : Prop where
  parent : ∀ place name, (t.at? (place ++ [name])).isSome →
    ∃ mode, t.at? place = some (.directory mode)

theorem closed_of_entries
    (h : ∀ e ∈ t.entries, (t.at? e.1.dropLast).any Entry.isDirectory = true) : t.Closed := by
  refine ⟨fun place name hs => ?_⟩
  have hfound : (t.entries.find? fun e => e.1 = place ++ [name]).isSome := by
    simpa [at?] using hs
  obtain ⟨e, he⟩ := Option.isSome_iff_exists.1 hfound
  have hplace : e.1 = place ++ [name] := by simpa using List.find?_some he
  have hd := h e (List.mem_of_find?_eq_some he)
  rw [hplace, List.dropLast_concat, Option.any_eq_true] at hd
  obtain ⟨entry, hentry, hd⟩ := hd
  cases entry with
  | file contents mode => simp [Entry.isDirectory, Entry.isFile] at hd
  | directory mode => exact ⟨mode, hentry⟩

/-- Steps up only start from what is there. -/
def SteadyFrom (t : Tree) : Place → List (List Char) → Prop
  | _, [] => True
  | place, segment :: rest =>
    (segment = ['.', '.'] → (t.at? place).isSome) ∧ SteadyFrom t (stepInto place segment) rest

instance decidableSteadyFrom (t : Tree) : (place : Place) → (segments : List (List Char)) →
    Decidable (SteadyFrom t place segments)
  | _, [] => .isTrue trivial
  | place, segment :: rest =>
    have := decidableSteadyFrom t (stepInto place segment) rest
    inferInstanceAs (Decidable ((segment = ['.', '.'] → (t.at? place).isSome) ∧ _))

/-- A path that steps up only out of what is there. -/
def Steady (t : Tree) (p : Path) : Prop := SteadyFrom t (t.origin p) (route p)

instance (t : Tree) (p : Path) : Decidable (t.Steady p) :=
  inferInstanceAs (Decidable (SteadyFrom t (t.origin p) (route p)))

theorem absent_of_steadyFrom (hc : t.Closed) {place : Place} {segments : List (List Char)}
    (hn : t.at? place = none) (hs : SteadyFrom t place segments) :
    t.at? (segments.foldl stepInto place) = none := by
  induction segments generalizing place with
  | nil => exact hn
  | cons segment rest ih =>
    obtain ⟨hup, hs⟩ := hs
    refine ih ?_ hs
    unfold stepInto
    split
    · rename_i hu
      simp [hn] at hup
      exact absurd hu hup
    · split
      · exact hn
      · cases hp : t.at? (place ++ [String.ofList segment]) with
        | none => rfl
        | some e =>
          obtain ⟨mode, hd⟩ := hc.parent place (String.ofList segment) (by rw [hp]; rfl)
          simp [hd] at hn

theorem look_directory {place : Place} {mode : Nat} (h : t.at? place = some (.directory mode)) :
    t.look place = some (.directory 0) := by
  rw [look, h]
  rfl

theorem look_file {place : Place} {contents : Contents} {mode : Nat}
    (h : t.at? place = some (.file contents mode)) : t.look place = some (.file contents 0) := by
  rw [look, h]
  rfl

theorem at?_of_look_directory {place : Place} (h : t.look place = some (.directory 0)) :
    ∃ mode, t.at? place = some (.directory mode) := by
  obtain ⟨e, he, hw⟩ := Option.map_eq_some_iff.1 h
  cases e with
  | file contents mode => simp [Entry.withMode] at hw
  | directory mode => exact ⟨mode, he⟩

theorem at?_of_look_file {place : Place} {contents : Contents}
    (h : t.look place = some (.file contents 0)) :
    ∃ mode, t.at? place = some (.file contents mode) := by
  obtain ⟨e, he, hw⟩ := Option.map_eq_some_iff.1 h
  cases e with
  | file old mode =>
    simp only [Entry.withMode, Entry.file.injEq, and_true] at hw
    exact ⟨mode, by rw [he, hw]⟩
  | directory mode => simp [Entry.withMode] at hw

theorem isSome_at?_of_grown (h : Grown t t' written) {place : Place}
    (ha : (t.at? place).isSome) : (t'.at? place).isSome := by
  obtain ⟨entry, ha⟩ := Option.isSome_iff_exists.1 ha
  cases entry with
  | directory mode =>
    obtain ⟨mode', ha'⟩ := at?_of_look_directory (h.directory place (look_directory ha))
    rw [ha']
    rfl
  | file contents mode =>
    obtain ⟨contents', hf⟩ := h.file place contents (look_file ha)
    obtain ⟨mode', ha'⟩ := at?_of_look_file hf
    rw [ha']
    rfl

theorem walk_of_grown (h : Grown t t' written) {place goal : Place}
    {segments : List (List Char)} (hw : t.walk place segments = .ok goal) :
    t'.walk place segments = .ok goal := by
  induction segments generalizing place with
  | nil => exact hw
  | cons segment rest ih =>
    rw [walk] at hw ⊢
    split at hw
    · simp at hw
    · simp at hw
    · rename_i mode hd
      obtain ⟨mode', hd'⟩ := at?_of_look_directory (h.directory place (look_directory hd))
      rw [hd']
      split at hw
      · simp at hw
      · rename_i hl
        dsimp only
        rw [if_neg hl]
        exact ih hw

/-- What is there and can be reached now could be reached before, unless the way goes up out of
something new. -/
theorem walk_of_grown_of_steady (h : Grown t t' written) (hc : t.Closed) {place goal : Place}
    {segments : List (List Char)} (hs : SteadyFrom t place segments)
    (hw : t'.walk place segments = .ok goal) (hg : (t.at? goal).isSome) :
    t.walk place segments = .ok goal := by
  induction segments generalizing place with
  | nil => exact hw
  | cons segment rest ih =>
    have hgoal := walk_ok hw
    rw [walk] at hw ⊢
    split at hw
    · simp at hw
    · simp at hw
    · rename_i mode hd
      cases ha : t.at? place with
      | none =>
        rw [hgoal, absent_of_steadyFrom hc ha hs] at hg
        simp at hg
      | some e =>
        cases e with
        | file contents mode' =>
          obtain ⟨contents', hf⟩ := h.file place contents (look_file ha)
          rw [look_directory hd] at hf
          simp at hf
        | directory mode' =>
          split at hw
          · simp at hw
          · rename_i hl
            dsimp only
            rw [if_neg hl]
            exact ih hs.2 hw

theorem file?_eq_some {p : Path} {contents : Contents} :
    t.file? p = some contents ↔ endsInSeparator p = false ∧
      ∃ place mode, t.locate p = .ok place ∧ t.at? place = some (.file contents mode) := by
  constructor
  · intro h
    unfold file? at h
    split at h
    · rename_i place old mode hf
      cases h
      obtain ⟨hl, ha⟩ := find_ok hf
      refine ⟨?_, place, mode, hl, ha⟩
      cases he : endsInSeparator p with
      | false => rfl
      | true => simp [find, hl, ha, he, Entry.isFile] at hf
    · simp at h
  · rintro ⟨he, place, mode, hl, ha⟩
    simp [file?, find, hl, ha, he]

theorem locate_congr {p : Path} {place : Place}
    (h : t.walk (t.origin p) (route p) = .ok place → t'.walk (t'.origin p) (route p) = .ok place)
    (hl : t.locate p = .ok place) : t'.locate p = .ok place := by
  unfold locate at hl ⊢
  split at hl
  · simp at hl
  · rename_i hz
    split at hl
    · simp at hl
    · rename_i he
      split at hl
      · simp at hl
      · rename_i hb
        rw [if_neg hz, if_neg he, if_neg hb]
        exact h hl

theorem locate_of_grown (h : Grown t t' written) {p : Path} {place : Place}
    (hl : t.locate p = .ok place) : t'.locate p = .ok place := by
  refine locate_congr (fun hw => ?_) hl
  have horigin : t'.origin p = t.origin p := by rw [origin, origin, h.working]
  rw [horigin]
  exact walk_of_grown h hw

theorem file?_of_grown_of_some (h : Grown t t' written) {p : Path} {contents : Contents}
    (hf : t.file? p = some contents) (hp : t.lexicalPlace p ∉ written) :
    t'.file? p = some contents := by
  obtain ⟨he, place, mode, hl, ha⟩ := file?_eq_some.1 hf
  have hlook := look_file ha
  rw [← locate_ok hl] at hp
  rcases h.keeps place hp with hk | ⟨hn, -⟩
  · rw [← hk] at hlook
    obtain ⟨mode', ha'⟩ := at?_of_look_file hlook
    exact file?_eq_some.2 ⟨he, place, mode', locate_of_grown h hl, ha'⟩
  · rw [hn] at hlook
    simp at hlook

theorem isSome_file?_of_grown (hg : Grown t t' written) {p : Path}
    (hf : (t.file? p).isSome) : (t'.file? p).isSome := by
  obtain ⟨contents, hf⟩ := Option.isSome_iff_exists.1 hf
  obtain ⟨he, place, mode, hl, ha⟩ := file?_eq_some.1 hf
  obtain ⟨contents', hlook⟩ := hg.file place contents (look_file ha)
  obtain ⟨mode', ha'⟩ := at?_of_look_file hlook
  rw [file?_eq_some.2 ⟨he, place, mode', locate_of_grown hg hl, ha'⟩]
  rfl

/-- A path that steps up only out of what was there leads to the same file as before, unless its
place was written. -/
theorem file?_of_grown (h : Grown t t' written) (hc : t.Closed) {p : Path} (hs : t.Steady p)
    (hp : t.lexicalPlace p ∉ written) : t'.file? p = t.file? p := by
  have horigin : t'.origin p = t.origin p := by rw [origin, origin, h.working]
  refine Option.ext fun contents => ⟨fun hf => ?_, fun hf => file?_of_grown_of_some h hf hp⟩
  obtain ⟨he, place, mode, hl, ha⟩ := file?_eq_some.1 hf
  have hplace : place = t.lexicalPlace p := by rw [locate_ok hl, lexicalPlace_of_grown h]
  have hlook := look_file ha
  rcases h.keeps place (hplace ▸ hp) with hk | ⟨-, hd⟩
  · rw [hk] at hlook
    obtain ⟨mode', ha'⟩ := at?_of_look_file hlook
    refine file?_eq_some.2 ⟨he, place, mode', locate_congr (fun hw => ?_) hl, ha'⟩
    rw [horigin] at hw
    exact walk_of_grown_of_steady h hc hs hw (by rw [ha']; rfl)
  · rw [hd] at hlook
    simp at hlook

end Patchboard.Tree
