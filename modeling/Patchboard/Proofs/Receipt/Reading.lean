import Patchboard.Proofs.Text.Lines
import Patchboard.Receipt

set_option autoImplicit false

namespace Patchboard
open Text

/-- A text that a line can end in: it holds no line feed and ends in no blank. -/
def Text.Plain (s : String) : Prop := '\n' ∉ s.toList ∧ EndsBare s.toList

instance (s : String) : Decidable (Text.Plain s) :=
  inferInstanceAs (Decidable ('\n' ∉ s.toList ∧ EndsBare s.toList))

namespace Receipt

structure Plain (r : Receipt) : Prop where
  package : Text.Plain r.package
  name : Text.Plain r.name
  version : Text.Plain r.version
  changes : ∀ change ∈ r.databaseChanges, Text.Plain change

/-- The numbers of a receipt are of 32 and 64 bits. -/
structure Sized (r : Receipt) : Prop where
  themes : ∀ id ∈ r.themes, id < UInt32.size
  time : r.installedAt < UInt64.size

instance (r : Receipt) : Decidable r.Plain :=
  decidable_of_iff (Text.Plain r.package ∧ Text.Plain r.name ∧ Text.Plain r.version ∧
      ∀ change ∈ r.databaseChanges, Text.Plain change)
    ⟨fun h => ⟨h.1, h.2.1, h.2.2.1, h.2.2.2⟩, fun h => ⟨h.package, h.name, h.version, h.changes⟩⟩

instance (r : Receipt) : Decidable r.Sized :=
  decidable_of_iff ((∀ id ∈ r.themes, id < UInt32.size) ∧ r.installedAt < UInt64.size)
    ⟨fun h => ⟨h.1, h.2⟩, fun h => ⟨h.themes, h.time⟩⟩

/-- The keys and values of a receipt in the order of its lines. -/
def fields (r : Receipt) : List (String × String) :=
  [("package_id", r.package), ("name", r.name), ("version", r.version)] ++
    r.themes.map (fun id => ("theme_installed", decimal id)) ++
    r.databaseChanges.map (fun change => ("db_change", change)) ++
    [("install_state", r.state.name), ("installed_at_unix", decimal r.installedAt)]

def fieldLine (f : String × String) : List Char := f.1.toList ++ '=' :: f.2.toList

theorem toList_line (key value : String) :
    (line key value).toList = fieldLine (key, value) ++ ['\n'] := by
  simp [line, fieldLine]

theorem toList_render (r : Receipt) : r.render.toList = unlines (r.fields.map fieldLine) := by
  simp [render, lines, fields, unlines, String.toList_join, toList_line, List.flatMap_map]

/-- A key stands before the first equals sign of its line and does not begin with a blank. -/
def IsKey (key : String) : Prop :=
  '=' ∉ key.toList ∧ '\n' ∉ key.toList ∧ ∃ c s, key.toList = c :: s ∧ isBlank c = false

theorem isKey_of_mem_fields {r : Receipt} {f : String × String} (h : f ∈ r.fields) : IsKey f.1 := by
  have hkeys : f.1 ∈ ["package_id", "name", "version", "theme_installed", "db_change",
      "install_state", "installed_at_unix"] := by
    simp only [fields, List.mem_append, List.mem_map] at h
    rcases h with ((h | ⟨_, _, rfl⟩) | ⟨_, _, rfl⟩) | h
    · simp at h
      rcases h with rfl | rfl | rfl <;> simp
    · simp
    · simp
    · simp at h
      rcases h with rfl | rfl <;> simp
  simp only [List.mem_cons, List.not_mem_nil, or_false] at hkeys
  unfold IsKey
  rcases hkeys with h | h | h | h | h | h | h <;> rw [h] <;>
    exact ⟨by decide, by decide, _, _, rfl, by decide⟩

theorem trim_fieldLine {f : String × String} (hk : IsKey f.1) (hv : Text.Plain f.2) :
    trim (fieldLine f) = fieldLine f := by
  obtain ⟨-, -, c, s, hs, hc⟩ := hk
  have hstart : trimStart (fieldLine f) = fieldLine f := by
    rw [fieldLine, hs]
    exact trimStart_of_head hc
  have hend : EndsBare (fieldLine f) := by
    have hmark : EndsBare ['='] := by decide
    unfold fieldLine
    intro last hlast
    have hvalue := endsBare_append hmark hv.2 last
    rw [Option.mem_def, List.getLast?_append] at hlast
    apply hvalue
    simpa [List.getLast?_cons] using hlast
  rw [trim, hstart, trimEnd_of_endsBare hend]

theorem takeLine_fieldLine {f : String × String} (hk : IsKey f.1) (hv : Text.Plain f.2)
    (d : Draft) : d.takeLine (fieldLine f) = d.take f.1 f.2 := by
  unfold Draft.takeLine
  rw [trim_fieldLine hk hv, fieldLine, splitOnce?_append hk.1]
  simp

theorem lines_render {r : Receipt} (hv : ∀ f ∈ r.fields, Text.Plain f.2) :
    Text.lines r.render.toList = r.fields.map fieldLine := by
  rw [toList_render]
  apply lines_unlines
  · intro l hl
    obtain ⟨f, hf, rfl⟩ := List.mem_map.1 hl
    have hkey := (isKey_of_mem_fields hf).2.1
    have hvalue := (hv f hf).1
    simp [fieldLine, hkey, hvalue]
  · intro l hl
    obtain ⟨f, hf, rfl⟩ := List.mem_map.1 hl
    have htrim := trim_fieldLine (isKey_of_mem_fields hf) (hv f hf)
    apply ne_carriageReturn_of_endsBare
    rw [← htrim]
    exact endsBare_trimEnd _

def Draft.takeField (d : Draft) (f : String × String) : Except Failure Draft := d.take f.1 f.2

theorem foldlM_fieldLine {fs : List (String × String)} (hk : ∀ f ∈ fs, IsKey f.1)
    (hv : ∀ f ∈ fs, Text.Plain f.2) (d : Draft) :
    (fs.map fieldLine).foldlM Draft.takeLine d = fs.foldlM Draft.takeField d := by
  induction fs generalizing d with
  | nil => rfl
  | cons f fs ih =>
    have hfirst := takeLine_fieldLine (hk f (List.mem_cons_self ..)) (hv f (List.mem_cons_self ..)) d
    have hrest := ih (fun g hg => hk g (List.mem_cons_of_mem _ hg))
      (fun g hg => hv g (List.mem_cons_of_mem _ hg))
    rw [List.map_cons, List.foldlM_cons, List.foldlM_cons, hfirst]
    simp only [hrest]
    rfl

theorem number_decimal {bound n : Nat} (h : n < bound) (context : String) :
    number context bound (decimal n) = .ok n := by
  unfold number
  rw [natural?_decimal h]
  rfl

theorem foldlM_themes {ids : List Nat} (h : ∀ id ∈ ids, id < UInt32.size) (d : Draft) :
    (ids.map fun id => ("theme_installed", decimal id)).foldlM Draft.takeField d =
      .ok { d with themes := d.themes ++ ids } := by
  induction ids generalizing d with
  | nil => simp; rfl
  | cons id ids ih =>
    have hfirst : d.takeField ("theme_installed", decimal id) =
        .ok { d with themes := d.themes ++ [id] } := by
      unfold Draft.takeField Draft.take
      dsimp only
      rw [number_decimal (h id (List.mem_cons_self ..))]
      rfl
    have hrest := ih fun other ho => h other (List.mem_cons_of_mem _ ho)
    rw [List.map_cons, List.foldlM_cons, hfirst]
    refine (hrest _).trans ?_
    simp

theorem foldlM_changes (changes : List String) (d : Draft) :
    (changes.map fun change => ("db_change", change)).foldlM Draft.takeField d =
      .ok { d with databaseChanges := d.databaseChanges ++ changes } := by
  induction changes generalizing d with
  | nil => simp; rfl
  | cons change changes ih =>
    rw [List.map_cons, List.foldlM_cons]
    refine (ih _).trans ?_
    simp

theorem parse_name (state : InstallState) : InstallState.parse state.name = .ok state := by
  cases state <;> rfl

theorem plain_decimal (n : Nat) : Text.Plain (decimal n) := by
  have hdigit : ∀ c ∈ (decimal n).toList, c.isDigit = true := by
    intro c hc
    rw [decimal, String.toList_ofList] at hc
    exact Nat.isDigit_of_mem_toDigits (by decide) (by decide) hc
  constructor
  · intro hfeed
    have hd := hdigit '\n' hfeed
    simp at hd
  · intro c hc
    have hd := hdigit c (List.mem_of_getLast? hc)
    rw [Char.isDigit_iff_toNat] at hd
    simp [isBlank, blankRanges] at hd ⊢
    omega

theorem plain_fields {r : Receipt} (h : r.Plain) : ∀ f ∈ r.fields, Text.Plain f.2 := by
  intro f hf
  simp only [fields, List.mem_append, List.mem_map] at hf
  rcases hf with ((hf | ⟨id, -, rfl⟩) | ⟨change, hc, rfl⟩) | hf
  · simp at hf
    rcases hf with rfl | rfl | rfl
    · exact h.package
    · exact h.name
    · exact h.version
  · exact plain_decimal id
  · exact h.changes change hc
  · simp at hf
    rcases hf with rfl | rfl
    · cases r.state <;> decide
    · exact plain_decimal r.installedAt

theorem foldlM_append_of_ok {fs : List (String × String)} {d d' : Draft}
    (h : fs.foldlM Draft.takeField d = .ok d') (gs : List (String × String)) :
    (fs ++ gs).foldlM Draft.takeField d = gs.foldlM Draft.takeField d' := by
  rw [List.foldlM_append, h]
  rfl

theorem foldlM_ending {r : Receipt} (hs : r.Sized) (d : Draft) :
    [("install_state", r.state.name),
      ("installed_at_unix", decimal r.installedAt)].foldlM Draft.takeField d =
        .ok { d with state := some r.state, installedAt := some r.installedAt } := by
  have hstate : d.takeField ("install_state", r.state.name) =
      .ok { d with state := some r.state } := by
    unfold Draft.takeField Draft.take
    dsimp only
    rw [parse_name]
    rfl
  have htime : ({ d with state := some r.state } : Draft).takeField
        ("installed_at_unix", decimal r.installedAt) =
      .ok { d with state := some r.state, installedAt := some r.installedAt } := by
    unfold Draft.takeField Draft.take
    dsimp only
    rw [number_decimal hs.time]
    rfl
  rw [List.foldlM_cons, hstate]
  change ({ d with state := some r.state } : Draft).takeField _ >>= _ = _
  rw [htime]
  rfl

theorem parse_of_plain {r : Receipt} (hp : r.Plain) (hs : r.Sized) : parse r.render = .ok r := by
  have hv := plain_fields hp
  have hthemes := foldlM_themes hs.themes
    { Draft.empty with package := some r.package, name := some r.name, version := some r.version }
  have hfold : r.fields.foldlM Draft.takeField Draft.empty =
      .ok ⟨some r.package, some r.name, some r.version, r.themes, r.databaseChanges, some r.state,
        some r.installedAt⟩ := by
    have hnames : [("package_id", r.package), ("name", r.name),
          ("version", r.version)].foldlM Draft.takeField Draft.empty =
        .ok { Draft.empty with
          package := some r.package, name := some r.name, version := some r.version } := rfl
    unfold fields
    rw [List.append_assoc, List.append_assoc, foldlM_append_of_ok hnames,
      foldlM_append_of_ok hthemes, foldlM_append_of_ok (foldlM_changes r.databaseChanges _),
      foldlM_ending hs]
    simp [Draft.empty]
  unfold parse
  rw [lines_render hv, foldlM_fieldLine (fun f hf => isKey_of_mem_fields hf) hv, hfold]
  rfl

structure Draft.Plain (d : Draft) : Prop where
  package : ∀ s ∈ d.package, Text.Plain s
  name : ∀ s ∈ d.name, Text.Plain s
  version : ∀ s ∈ d.version, Text.Plain s
  changes : ∀ change ∈ d.databaseChanges, Text.Plain change

structure Draft.Sized (d : Draft) : Prop where
  themes : ∀ id ∈ d.themes, id < UInt32.size
  time : ∀ time ∈ d.installedAt, time < UInt64.size

inductive Draft.Takes (d : Draft) (value : String) : Draft → Prop where
  | nothing : Takes d value d
  | package : Takes d value { d with package := some value }
  | name : Takes d value { d with name := some value }
  | version : Takes d value { d with version := some value }
  | theme {id : Nat} (small : id < UInt32.size) : Takes d value { d with themes := d.themes ++ [id] }
  | change : Takes d value { d with databaseChanges := d.databaseChanges ++ [value] }
  | state (state : InstallState) : Takes d value { d with state := some state }
  | time {time : Nat} (small : time < UInt64.size) :
    Takes d value { d with installedAt := some time }

theorem natural?_lt {bound n : Nat} {s : List Char} (h : natural? bound s = .ok n) : n < bound := by
  unfold natural? at h
  dsimp only at h
  split at h
  · cases h
  · split at h
    · cases h
    · split at h
      · cases h
      · cases h
        omega

theorem number_lt {context value : String} {bound n : Nat}
    (h : number context bound value = .ok n) : n < bound := by
  unfold number at h
  cases hn : natural? bound value.toList with
  | error e => rw [hn] at h; cases h
  | ok m =>
    rw [hn] at h
    cases h
    exact natural?_lt hn

theorem takes_of_take {d d' : Draft} {key value : String} (h : d.take key value = .ok d') :
    d.Takes value d' := by
  unfold Draft.take at h
  split at h
  · cases h
    exact .package
  · cases h
    exact .name
  · cases h
    exact .version
  · cases hn : number "theme_installed must be u32" UInt32.size value with
    | error f => rw [hn] at h; cases h
    | ok n =>
      rw [hn] at h
      cases h
      exact .theme (number_lt hn)
  · cases h
    exact .change
  · cases hn : InstallState.parse value with
    | error f => rw [hn] at h; cases h
    | ok state =>
      rw [hn] at h
      cases h
      exact .state state
  · cases hn : number "installed_at_unix must be u64" UInt64.size value with
    | error f => rw [hn] at h; cases h
    | ok n =>
      rw [hn] at h
      cases h
      exact .time (number_lt hn)
  · cases h
    exact .nothing

theorem Draft.Takes.plain {d d' : Draft} {value : String} (h : d.Takes value d') (hd : d.Plain)
    (hv : Text.Plain value) : d'.Plain := by
  cases h with
  | nothing | theme | state | time => exact ⟨hd.package, hd.name, hd.version, hd.changes⟩
  | package => exact ⟨by simpa using hv, hd.name, hd.version, hd.changes⟩
  | name => exact ⟨hd.package, by simpa using hv, hd.version, hd.changes⟩
  | version => exact ⟨hd.package, hd.name, by simpa using hv, hd.changes⟩
  | change =>
    refine ⟨hd.package, hd.name, hd.version, fun change hc => ?_⟩
    rcases List.mem_append.1 hc with hc | hc
    · exact hd.changes change hc
    · rw [List.mem_singleton.1 hc]
      exact hv

theorem Draft.Takes.sized {d d' : Draft} {value : String} (h : d.Takes value d')
    (hd : d.Sized) : d'.Sized := by
  cases h with
  | nothing | package | name | version | change | state => exact ⟨hd.themes, hd.time⟩
  | theme small =>
    refine ⟨fun id hid => ?_, hd.time⟩
    rcases List.mem_append.1 hid with hid | hid
    · exact hd.themes id hid
    · rw [List.mem_singleton.1 hid]
      exact small
  | time small => exact ⟨hd.themes, by simpa using small⟩

theorem mem_of_mem_trim {c : Char} {s : List Char} (h : c ∈ trim s) : c ∈ s := by
  unfold trim trimEnd trimStart at h
  have hinner := (List.dropWhile_sublist _).subset (List.mem_reverse.1 h)
  exact (List.dropWhile_sublist _).subset (List.mem_reverse.1 hinner)

theorem takes_of_takeLine {d d' : Draft} {s : List Char} (hs : '\n' ∉ s)
    (h : d.takeLine s = .ok d') : ∃ value, Text.Plain value ∧ d.Takes value d' := by
  unfold Draft.takeLine at h
  split at h
  · cases h
    exact ⟨"", by decide, .nothing⟩
  · rename_i key value hsplit
    have heq := eq_append_of_splitOnce? hsplit
    refine ⟨String.ofList value, ⟨?_, ?_⟩, takes_of_take h⟩
    · intro hc
      rw [String.toList_ofList] at hc
      exact hs (mem_of_mem_trim (by rw [heq]; simp [hc]))
    · rw [String.toList_ofList]
      have hbare : EndsBare (key ++ ['='] ++ value) := by
        have htrim := endsBare_trimEnd (trimStart s)
        rwa [← trim, heq, List.append_cons] at htrim
      exact endsBare_of_append hbare

theorem keeps_foldlM {ls : List (List Char)} (hl : ∀ l ∈ ls, '\n' ∉ l) {d d' : Draft}
    (hd : d.Plain ∧ d.Sized) (h : ls.foldlM Draft.takeLine d = .ok d') : d'.Plain ∧ d'.Sized := by
  induction ls generalizing d with
  | nil =>
    cases h
    exact hd
  | cons l ls ih =>
    rw [List.foldlM_cons] at h
    cases hfirst : d.takeLine l with
    | error f => rw [hfirst] at h; cases h
    | ok next =>
      rw [hfirst] at h
      obtain ⟨value, hv, ht⟩ := takes_of_takeLine (hl l (List.mem_cons_self ..)) hfirst
      exact ih (fun l' hl' => hl l' (List.mem_cons_of_mem _ hl'))
        ⟨ht.plain hd.1 hv, ht.sized hd.2⟩ h

theorem keeps_finish {d : Draft} {r : Receipt} (hd : d.Plain ∧ d.Sized) (h : d.finish = .ok r) :
    r.Plain ∧ r.Sized := by
  obtain ⟨hplain, hsized⟩ := hd
  unfold Draft.finish required at h
  cases hp : d.package with
  | none => rw [hp] at h; cases h
  | some package =>
    cases hv : d.version with
    | none => rw [hp, hv] at h; cases h
    | some version =>
      cases ht : d.installedAt with
      | none => rw [hp, hv, ht] at h; cases h
      | some time =>
        rw [hp, hv, ht] at h
        cases h
        refine ⟨⟨hplain.package _ hp, ?_, hplain.version _ hv, hplain.changes⟩,
          hsized.themes, hsized.time _ ht⟩
        cases hn : d.name with
        | none => exact hplain.package _ hp
        | some name => exact hplain.name _ hn

theorem keeps_parse {raw : String} {r : Receipt} (h : parse raw = .ok r) : r.Plain ∧ r.Sized := by
  unfold parse at h
  cases hfold : (Text.lines raw.toList).foldlM Draft.takeLine Draft.empty with
  | error f => rw [hfold] at h; cases h
  | ok d =>
    rw [hfold] at h
    have hplain : Draft.empty.Plain := ⟨by simp [Draft.empty], by simp [Draft.empty],
      by simp [Draft.empty], by simp [Draft.empty]⟩
    have hsized : Draft.empty.Sized := ⟨by simp [Draft.empty], by simp [Draft.empty]⟩
    exact keeps_finish (keeps_foldlM (fun l hl => not_mem_of_mem_lines hl) ⟨hplain, hsized⟩ hfold) h

theorem plain_of_parse {raw : String} {r : Receipt} (h : parse raw = .ok r) : r.Plain :=
  (keeps_parse h).1

/-- A receipt is read back as it was exactly when each of its texts stands on one line and ends in
no blank; and these are all the receipts that are ever read, from whatever text. -/
theorem read_back_iff :
    (∀ r : Receipt, r.Sized → (parse r.render = .ok r ↔ r.Plain)) ∧
      ∀ raw r, parse raw = .ok r → r.Plain ∧ r.Sized :=
  ⟨fun _ hs => ⟨plain_of_parse, fun hp => parse_of_plain hp hs⟩, fun _ _ => keeps_parse⟩

/-- Texts that are empty, look like other lines or begin with blanks, and the largest numbers. -/
theorem read_back_lookalike : ∃ r : Receipt, r = ⟨"", "=version=2", "  1", [7, 4294967295, 7],
      ["install_state=installed", "", "theme_installed=x", "\ta=b", ""], .uninstalled,
      18446744073709551615⟩ ∧ r.Sized ∧ parse r.render = .ok r := by
  refine ⟨_, rfl, by decide, (read_back_iff.1 _ (by decide)).2 (by decide)⟩

end Receipt

end Patchboard
