import Patchboard.Cli.Session
import Patchboard.Proofs.Cursor.Twins
import Patchboard.Proofs.Run.Ongoing

set_option autoImplicit false

/-!
The life of a run that applies a package: it claims the marker, writes its metadata, keeps a journal
of every step, settles its status, records a receipt and clears the marker. Meanwhile the plan is
carried out as if there were no run at all.
-/

namespace Patchboard.Cli
open Path Tree StateLayout Run

attribute [local irreducible] fileStem

variable {s : Session} {p : Planned} {m : RunMetadata} {base t u : Tree} {run : String}
  {entries : List JournalEntry}

/-- The results of some steps in order, each with the kind of its action. -/
def results (steps : List ActionStep) : List (ActionKind × StepResult) :=
  steps.flatMap fun step => step.results.map fun r => (step.kind, r)

def entryOf (n : (ActionKind × StepResult) × Nat) : JournalEntry :=
  ⟨n.2, n.1.1.name, n.1.2.target, n.1.2.status.name⟩

def journalFrom (seq : Nat) (steps : List ActionStep) : List JournalEntry :=
  ((results steps).zipIdx seq).map entryOf

theorem journalFrom_cons (seq : Nat) (step : ActionStep) (steps : List ActionStep) :
    journalFrom seq (step :: steps) =
      journalFrom seq [step] ++ journalFrom (seq + step.results.length) steps := by
  simp [journalFrom, results, List.zipIdx_append]

theorem seq_of_mem_journalFrom {seq : Nat} {steps : List ActionStep} {e : JournalEntry}
    (h : e ∈ journalFrom seq steps) : seq ≤ e.seq ∧ e.seq < seq + (results steps).length := by
  obtain ⟨n, hn, rfl⟩ := List.mem_map.1 h
  exact ⟨List.le_snd_of_mem_zipIdx hn, List.snd_lt_add_of_mem_zipIdx hn⟩

theorem run_journalStep (hr : Ready s.layout m.run base) (kind : ActionKind)
    (rs : List StepResult) (seq : Nat) {entries : List JournalEntry} {u : Tree}
    (h : UnderWay s.layout base m entries t u) : ∃ u',
    (journalStep s.layout m.run kind seq rs).run.run u = (.ok (seq + rs.length), u') ∧
      UnderWay s.layout base m
        (entries ++ ((rs.map fun r => (kind, r)).zipIdx seq).map entryOf) t u' := by
  induction rs generalizing seq entries u with
  | nil => exact ⟨u, rfl, by simpa using h⟩
  | cons r rs ih =>
    obtain ⟨v, hfirst, hv⟩ := h.append hr ⟨seq, kind.name, r.target, r.status.name⟩
    obtain ⟨u', hrest, hu⟩ := ih (seq + 1) hv
    refine ⟨u', ?_, ?_⟩
    · unfold journalStep
      rw [run_bind, hfirst]
      dsimp only
      rw [hrest, List.length_cons, Nat.add_right_comm, Nat.add_assoc]
    · rw [List.append_assoc] at hu
      exact hu

/-- What comes of a plan when it is carried out on a tree without a run. -/
def alone (s : Session) (p : Planned) (t : Tree) : RunReport × Cursor :=
  Cursor.runAllActions (context s p false) p.actions ⟨t, .byMode⟩

/-- Every action keeps off what the state directory keeps for itself. -/
def Spared (s : Session) (p : Planned) (t : Tree) : Prop :=
  Cursor.AllSpare (s.layout.reserve t) t (context s p false) p.actions p.actions.length
    (Cursor.start ⟨t, .byMode⟩)

theorem run_onSite {α : Type} (f : Site → α × Cursor) (t : Tree) : (onSite f).run.run t =
    (.ok (f ⟨t, .byMode⟩), (f ⟨t, .byMode⟩).2.site.tree) := rfl

abbrev Aligned (c c' : Cursor) : Prop := c.Twin (fun _ _ => True) c'

theorem blind_ready (hr : Ready s.layout run base) (v : Tree) :
    Blind (s.layout.reserve base) base
      (Parted (s.layout.reserve base) base v (runFiles s.layout run base)) :=
  blind_parted (fun _ => not_off_of_mem_runFiles) hr.working

/-- The next step of a plan gives in a run what it gives without one. It starts from the tree that
the journal was written to, not from that of the cursor. -/
theorem underWay_next (hr : Ready s.layout m.run base) {c c' : Cursor} (hc : Aligned c c')
    (hs : ∀ a ∈ p.actions[c.position]?,
      Cursor.Spares (s.layout.reserve base) base (context s p false) a c.site.tree)
    (h : UnderWay s.layout base m entries c.site.tree u) :
    let next := Cursor.next (context s p false) p.actions c
    ∃ last, Cursor.next (context s p false) p.actions
        { c' with site := { c'.site with tree := u } } = (next.1, last) ∧
      Aligned next.2 last ∧ UnderWay s.layout base m entries next.2.site.tree last.site.tree := by
  obtain ⟨site, hsite, rfl⟩ := hc
  have htwin : c.Twin (Parted (s.layout.reserve base) base u (runFiles s.layout m.run base))
      { c.on site with site := { site with tree := u } } :=
    ⟨{ site with tree := u }, ⟨h.parted, hsite.permissions⟩, rfl⟩
  obtain ⟨hstep, hleft⟩ := Cursor.twin_next (c := context s p false) (blind_ready hr u)
    (history_of_parted hr.based hr.fresh) hs htwin
  rcases hnext : Cursor.next (context s p false) p.actions
    { c.on site with site := { site with tree := u } } with ⟨step?, last⟩
  rw [hnext] at hstep hleft
  refine ⟨last, ?_, ?_, h.carry hleft.site.tree⟩
  · rw [← show step? = _ from hstep]
    exact hnext
  · obtain ⟨other, hother, he⟩ := hleft
    exact ⟨other, ⟨trivial, hother.permissions⟩, he⟩

/-- The rest of a plan is carried out in a run as it is without one, and every result is entered in
the journal. -/
theorem run_executeFrom (hr : Ready s.layout m.run base) (fuel seq : Nat)
    {entries : List JournalEntry} {u : Tree} {c c' : Cursor} (hc : Aligned c c')
    (hs : Cursor.AllSpare (s.layout.reserve base) base (context s p false) p.actions fuel c)
    (h : UnderWay s.layout base m entries c.site.tree u) :
    let ran := Cursor.walk (context s p false) p.actions fuel c
    ∃ last u', (executeFrom s p m.run fuel seq c').run.run u = (.ok (ran.1, last), u') ∧
      Aligned ran.2 last ∧
        UnderWay s.layout base m (entries ++ journalFrom seq ran.1) ran.2.site.tree u' := by
  -- by induction on the actions left: the trees stay the same but for the files of the run, and the
  -- journal holds what was done so far
  induction fuel generalizing seq entries u c c' with
  | zero => exact ⟨c', u, rfl, hc, by simpa [journalFrom, results, Cursor.walk] using h⟩
  | succ fuel ih =>
    obtain ⟨c₁, hnext', haligned, hcarried⟩ := underWay_next hr hc (fun a ha => (hs a ha).1) h
    unfold executeFrom
    rw [run_bind, run_get]
    dsimp only
    rw [run_bind, run_onSite, hnext']
    dsimp only
    cases ha : p.actions[c.position]? with
    | none =>
      rw [Cursor.walk_of_done _ ha]
      rw [Cursor.next_none ha] at haligned hcarried ⊢
      exact ⟨c₁, c₁.site.tree, rfl, haligned, by simpa [journalFrom, results] using hcarried⟩
    | some a =>
      rcases hnext : Cursor.next (context s p false) p.actions c with ⟨_ | step, c₂⟩
      · rw [Cursor.next_some _ ha] at hnext
        cases hnext
      have hspares := (hs a ha).2
      rw [hnext] at haligned hcarried hspares
      obtain ⟨v, hjournal, hv⟩ := run_journalStep hr step.kind step.results seq hcarried
      obtain ⟨last, u', hrest, hlast, hu⟩ := ih (seq + step.results.length) haligned hspares hv
      rw [Cursor.walk_succ hnext]
      refine ⟨last, u', ?_, hlast, ?_⟩
      · dsimp only
        rw [run_bind, hjournal]
        dsimp only
        rw [run_bind, hrest]
        rfl
      · dsimp only
        rw [journalFrom_cons, ← List.append_assoc]
        simpa [journalFrom, results] using hu

theorem run_execute (hr : Ready s.layout m.run base) (hs : Spared s p base)
    (h : UnderWay s.layout base m [] base u) : ∃ u',
    (execute s p m.run).run.run u = (.ok (alone s p base).1, u') ∧
      UnderWay s.layout base m (journalFrom 1 (alone s p base).1.steps)
        (alone s p base).2.site.tree u' := by
  have hstart : Aligned (Cursor.start ⟨base, .byMode⟩) (Cursor.start ⟨u, .byMode⟩) :=
    ⟨⟨u, .byMode⟩, ⟨trivial, rfl⟩, rfl⟩
  obtain ⟨last, u', hrun, ⟨site, -, rfl⟩, hu⟩ :=
    run_executeFrom (p := p) hr p.actions.length 1 hstart hs h
  refine ⟨u', ?_, hu⟩
  unfold execute
  rw [run_bind, run_get]
  dsimp only
  rw [run_bind, hrun]
  rfl

/-- The receipt of a package can be written. -/
structure Recordable (l : StateLayout) (package : String) (t : Tree) : Prop where
  fits : Fits l.receipts (receiptFile package)
  free : t.isDirectory (l.receipt package) = false

/-- Of all receipts only that of one package may have changed, which was written unless something
failed. -/
structure Settles (l : StateLayout) (r : Receipt) (failed : Bool) (t t' : Tree) : Prop where
  others : ∀ place, Below (t.lexicalPlace l.receipts) place →
    place ≠ t.lexicalPlace (l.receipt r.package) → t'.at? place = t.at? place
  kept : failed = true →
    t'.at? (t.lexicalPlace (l.receipt r.package)) = t.at? (t.lexicalPlace (l.receipt r.package))
  written : failed = false → ∃ mode,
    t'.at? (t.lexicalPlace (l.receipt r.package)) = some (.file (.text r.render) mode)

section
variable {l : StateLayout} {r : Receipt}

theorem receipt_below (l : StateLayout) (package : String) (t : Tree) :
    Below (t.lexicalPlace l.receipts) (t.lexicalPlace (l.receipt package)) :=
  ⟨receiptFile package, [], lexicalPlace_receipt l t package⟩

theorem at?_of_below_receipts (h : UnderWay l base m entries t u) {place : Place}
    (hb : Below (base.lexicalPlace l.receipts) place) : u.at? place = base.at? place := by
  have hoff : ¬Off (l.reserve base) place := fun ho =>
    ho _ (List.mem_cons_of_mem _ (List.mem_singleton_self _)) hb
  have hfile : place ∉ runFiles l m.run base := by
    intro hm
    obtain ⟨name, -, rfl⟩ := List.mem_map.1 hm
    obtain ⟨first, rel, he⟩ := hb
    rw [fileAt, lexicalPlace_receipts, lexicalPlace_runs] at he
    simp at he
  rw [h.parted.at? hfile, h.parted.first.below place hoff]

theorem run_record (hr : Ready l m.run base) (h : Records l base m entries u)
    (hf : Fits l.receipts (receiptFile r.package))
    (hx : ∀ mode, u.at? (base.lexicalPlace (l.receipt r.package)) ≠ some (.directory mode)) :
    ∃ mode, (History.record l r).run.run u = (.ok (),
        u.put (base.lexicalPlace (l.receipt r.package)) (.file (.text r.render) mode)) ∧
      Records l base m entries
        (u.put (base.lexicalPlace (l.receipt r.package)) (.file (.text r.render) mode)) := by
  have hn := isName_receiptFile r.package
  have hd := isDirectory_receipts hr.based h.stands h.working
  have hplace : base.lexicalPlace (l.receipt r.package) =
      u.lexicalPlace l.receipts ++ [receiptFile r.package] := by
    rw [lexicalPlace_receipt, lexicalPlace_congr h.working]
  rw [hplace] at hx ⊢
  have hsolid : l.receipts.EndsSolid := endsSolid_join isName_installed l.root
  obtain ⟨mode, hwrite⟩ :=
    run_writeText_file hn hf (enters_of_isDirectory hd) r.render hx
  refine ⟨mode, ?_, h.change rfl (fun place hp => ?_) fun name _ => ?_⟩
  · unfold History.record
    dsimp only
    rw [receipt_eq, run_bind, run_ensureParent hn hsolid hd]
    dsimp only
    rw [run_on_eq_ok.2 hwrite]
  · obtain ⟨old, hold⟩ := h.stands place hp
    rw [at?_put, if_neg]
    · exact ⟨old, hold⟩
    · rintro ⟨rfl, -⟩
      exact hx old hold
  · refine (at?_put ..).trans (if_neg ?_)
    rintro ⟨he, -⟩
    exact receipt_ne_fileAt l u _ name he.symm

theorem run_settle (hr : Ready l m.run base) (h : UnderWay l base m entries t u)
    (report : RunReport) (hrec : report.failed = false → Recordable l r.package base) : ∃ u',
    (show Job RunReport from do
      if !report.failed then History.record l r
      return report).run.run u = (.ok report, u') ∧
      Records l base m entries u' ∧ u'.at? (fileAt l u' "active") = u.at? (fileAt l u "active") ∧
        Settles l r report.failed base u' := by
  have hsame {place : Place} (hb : Below (base.lexicalPlace l.receipts) place) :
      u.at? place = base.at? place := at?_of_below_receipts h hb
  cases hfailed : report.failed with
  | true =>
    refine ⟨u, rfl, h.toRecords, rfl, fun place hb _ => hsame hb, fun _ => ?_, fun hf => ?_⟩
    · exact hsame (receipt_below l r.package base)
    · cases hf
  | false =>
    obtain ⟨hfits, hfree⟩ := hrec hfailed
    have hx (mode : Nat) :
        u.at? (base.lexicalPlace (l.receipt r.package)) ≠ some (.directory mode) := by
      rw [hsame (receipt_below l r.package base), lexicalPlace_receipt]
      intro hd
      rw [receipt_eq, Bool.eq_false_iff, ne_eq,
        isDirectory_join_iff (isName_receiptFile r.package)] at hfree
      exact hfree ⟨hfits, enters_of_isDirectory hr.based.receipts, mode, hd⟩
    obtain ⟨mode, hrun, hrecords⟩ := run_record hr h.toRecords hfits hx
    refine ⟨_, ?_, hrecords, ?_, fun place hb hne => ?_, fun hf => ?_, fun _ => ⟨mode, ?_⟩⟩
    · rw [Bool.not_false, if_pos rfl, run_bind, hrun]
      rfl
    · refine (at?_put ..).trans (if_neg ?_)
      rintro ⟨he, -⟩
      have hsame : fileAt l u "active" = base.lexicalPlace (l.receipt r.package) := he
      rw [lexicalPlace_receipt, ← lexicalPlace_congr h.working] at hsame
      exact receipt_ne_fileAt l u _ _ hsame.symm
    · rw [at?_put, if_neg fun hc => hne hc.1, hsame hb]
    · cases hf
    · rw [at?_put, if_pos ⟨rfl, by simp [lexicalPlace_receipt]⟩]

end

theorem run_outcomeOf {α : Type} (job : Job α) (t : Tree) : (outcomeOf job).run.run t =
    (.ok (job.run.run t).1, (job.run.run t).2) := rfl

/-- The metadata of a run that came to an end. -/
def metadataAfter (p : Planned) (run : String) (now : Nat) (r : RunReport) : RunMetadata :=
  { metadataOf p run now with status := if r.failed then "failed" else "done" }

theorem sized_metadataOf (p : Planned) (run : String) {now : Nat} (h : now < 2 ^ 64) :
    (metadataOf p run now).Sized :=
  ⟨show 1 < UInt32.size by decide, h⟩

theorem run_runClaimed (hr : Ready s.layout run t) {now : Nat} (hnow : now < 2 ^ 64)
    (hs : Spared s p t)
    (hrec : (alone s p t).1.failed = false → Recordable s.layout p.manifest.id t) {v : Tree}
    (hwrite : (writeMetadata s.layout (metadataOf p run now)).run.run v =
      (.ok (s.layout.metadata run), u))
    (hu : UnderWay s.layout t (metadataOf p run now) [] t u) : ∃ u',
    (runClaimed s p run now).run.run v = (.ok (alone s p t).1, u') ∧
      Records s.layout t (metadataAfter p run now (alone s p t).1)
        (journalFrom 1 (alone s p t).1.steps) u' ∧
      (∃ mode, u'.at? (fileAt s.layout u' "active") = some (.file (.text (run ++ "\n")) mode)) ∧
        Settles s.layout (receiptOf p (alone s p t).1 now) (alone s p t).1.failed t u' := by
  obtain ⟨u₁, hexecute, hu₁⟩ := run_execute (m := metadataOf p run now) hr hs hu
  obtain ⟨u₂, hupdate, hu₂⟩ := hu₁.update hr (sized_metadataOf p run hnow)
    (if (alone s p t).1.failed then "failed" else "done")
  have hr₂ : Ready s.layout (metadataAfter p run now (alone s p t).1).run t := hr
  obtain ⟨u₃, hrecord, hrecords, hmarker, hsettles⟩ :=
    run_settle (r := receiptOf p (alone s p t).1 now) hr₂ hu₂ _ hrec
  refine ⟨u₃, ?_, hrecords, hmarker ▸ hu₂.marker, hsettles⟩
  have hrun : (metadataOf p run now).run = run := rfl
  rw [hrun] at hexecute hupdate
  unfold runClaimed
  rw [run_bind, hwrite]
  dsimp only
  rw [run_bind, run_outcomeOf, hexecute]
  dsimp only
  rw [run_bind, hupdate]
  exact hrecord

/-- What is left behind when a package was applied. -/
structure Applied (l : StateLayout) (p : Planned) (run : String) (now : Nat) (r : RunReport)
    (t t' : Tree) : Prop where
  marker : t'.pathExists l.activeMarker = false
  metadata : (readMetadata l run).run.run t' = (.ok (some (metadataAfter p run now r)), t')
  journal : (readJournal l run).run.run t' = (.ok (journalFrom 1 r.steps), t')
  receipts : Settles l (receiptOf p r now) r.failed t t'

theorem Settles.change {l : StateLayout} {r : Receipt} {failed : Bool} {t' : Tree}
    (h : Settles l r failed t u)
    (ha : ∀ place, Below (t.lexicalPlace l.receipts) place → t'.at? place = u.at? place) :
    Settles l r failed t t' := by
  have hown := ha _ (receipt_below l r.package t)
  refine ⟨fun place hb hne => (ha place hb).trans (h.others place hb hne), fun hf => ?_,
    fun hf => ?_⟩
  · rw [hown, h.kept hf]
  · rw [hown]
    exact h.written hf

theorem marker_not_above {l : StateLayout} {place : Place}
    (hb : Below (t.lexicalPlace l.receipts) place) : ¬fileAt l t "active" <+: place := by
  obtain ⟨name, rel, rfl⟩ := hb
  rw [fileAt, lexicalPlace_receipts, lexicalPlace_runs, List.append_assoc, List.append_assoc,
    List.prefix_append_right_inj]
  simp

theorem slash_not_mem_runId (surroundings : Surroundings) :
    '/' ∉ (runId surroundings).toList := by
  have hdigits (n : Nat) : '/' ∉ (Text.decimal n).toList := by
    rw [Text.decimal, String.toList_ofList]
    exact fun h => absurd (Nat.isDigit_of_mem_toDigits (by decide) (by decide) h) (by decide)
  simp [runId, hdigits]

theorem run_checkFingerprint {expected : Option String} (h : ∀ given ∈ expected,
      Text.lowered (Text.trimmed given) = Text.lowered p.fingerprint) :
    (checkFingerprint p expected).run.run t = (.ok (), t) := by
  cases expected with
  | none => rfl
  | some given =>
    unfold checkFingerprint
    dsimp only
    rw [if_pos (h given rfl)]
    rfl

/-- Applying a package leaves no marker behind, settles the status of the run, enters every result
in its journal and records the receipt unless something failed; and the report is the one that the
plan gives without a run. -/
theorem applyPlanned_lifecycle {surroundings : Surroundings} {expected : Option String}
    (hvacant : Vacant s.layout (runId surroundings) t)
    (hexpected : ∀ given ∈ expected,
      Text.lowered (Text.trimmed given) = Text.lowered p.fingerprint)
    (hspared : Spared s p t) (hnow : surroundings.now < 2 ^ 64)
    (hcount : (results (alone s p t).1.steps).length < 2 ^ 64)
    (hrecordable : (alone s p t).1.failed = false → Recordable s.layout p.manifest.id t) :
    ∃ t', (applyPlanned surroundings s p expected).run.run t = (.ok (alone s p t).1, t') ∧
      Applied s.layout p (runId surroundings) surroundings.now (alone s p t).1 t t' := by
  have hr : Ready s.layout (runId surroundings) t := ⟨hvacant, slash_not_mem_runId surroundings⟩
  have hsized : (metadataAfter p (runId surroundings) surroundings.now (alone s p t).1).Sized :=
    ⟨(sized_metadataOf p (runId surroundings) hnow).version, hnow⟩
  have hseq : ∀ e ∈ journalFrom 1 (alone s p t).1.steps, e.seq < 2 ^ 64 := by
    intro e hm
    have hbound := (seq_of_mem_journalFrom hm).2
    omega
  obtain ⟨v, u, hclaim, hwrite, hu⟩ :=
    Ready.begins (m := metadataOf p (runId surroundings) surroundings.now) hr
  obtain ⟨u₁, hrun, hrecords, ⟨mode, hmarker⟩, hsettles⟩ :=
    run_runClaimed hr hnow hspared hrecordable hwrite hu
  obtain ⟨t', hclear, hgone, hleft, hsame⟩ := hrecords.ends hr hmarker
  obtain ⟨hmetadata, hjournal⟩ := hleft.read hr hsized hseq
  refine ⟨t', ?_, hgone, hmetadata, hjournal,
    hsettles.change fun place hb => hsame place (marker_not_above hb)⟩
  have hid : (metadataOf p (runId surroundings) surroundings.now).run = runId surroundings := rfl
  rw [hid] at hclaim
  unfold applyPlanned
  rw [run_bind, run_checkFingerprint hexpected]
  dsimp only
  rw [run_bind, hclaim]
  dsimp only
  rw [run_bind, run_outcomeOf, hrun]
  dsimp only
  rw [run_bind, run_outcomeOf, hclear]
  rfl

/-- A file is copied to the board, and its package is recorded. -/
theorem lifecycle_of_one_file : ∃ (s : Session) (p : Planned) (t t' : Tree),
    s.layout = ⟨⟨"/s"⟩⟩ ∧
    p.actions =
      [⟨.requireFile, "p", some ⟨"/b/x"⟩, some ⟨"/p"⟩, "", false, false, .tree .yes⟩] ∧
    (alone s p t).1.failed = false ∧ (alone s p t).1.steps.length = 1 ∧
    (applyPlanned ⟨none, none, 1, 2⟩ s p none).run.run t = (.ok (alone s p t).1, t') ∧
      Applied s.layout p (runId ⟨none, none, 1, 2⟩) 1 (alone s p t).1 t t' := by
  obtain ⟨t, ht⟩ : ∃ t : Tree, t = ⟨[
      (["b"], .directory 0o755), (["p"], .file (.text "new") 0o644),
      (["s"], .directory 0o755), (["s", "installed"], .directory 0o755),
      (["s", "staging"], .directory 0o755), (["s", "runs"], .directory 0o755)], []⟩ := ⟨_, rfl⟩
  obtain ⟨s, hs⟩ : ∃ s : Session, s = ⟨⟨"2.1", ⟨"/b"⟩, "english", false, ⟨"Sources"⟩, ⟨"Themes"⟩,
      "Settings.php", []⟩, ⟨⟨"/s"⟩⟩⟩ := ⟨_, rfl⟩
  obtain ⟨p, hp⟩ : ∃ p : Planned, p = ⟨⟨"p", "p", "1", none, ⟨.table []⟩⟩, .install, ⟨[]⟩,
      [⟨.requireFile, "p", some ⟨"/b/x"⟩, some ⟨"/p"⟩, "", false, false, .tree .yes⟩]⟩ := ⟨_, rfl⟩
  have hvacant : Vacant s.layout (runId ⟨none, none, 1, 2⟩) t := by
    subst ht hs
    exact ⟨closed_of_entries (by decide), named_of_entries (by decide), by decide,
      ⟨by decide +kernel, by decide +kernel, by decide +kernel⟩, by decide +kernel,
      by decide +kernel, by decide +kernel, by decide +kernel⟩
  have hspared : Spared s p t := by
    subst ht hs hp
    unfold Spared
    decide +kernel
  have hresults : (alone s p t).1.failed = false ∧ (alone s p t).1.steps.length = 1 ∧
      (results (alone s p t).1.steps).length = 1 := by
    subst ht hs hp
    decide +kernel
  have hrecordable : Recordable s.layout p.manifest.id t := by
    subst ht hs hp
    exact ⟨by decide +kernel, by decide +kernel⟩
  obtain ⟨t', hrun, happlied⟩ : ∃ t',
      (applyPlanned ⟨none, none, 1, 2⟩ s p none).run.run t = (.ok (alone s p t).1, t') ∧
        Applied s.layout p (runId ⟨none, none, 1, 2⟩) 1 (alone s p t).1 t t' :=
    applyPlanned_lifecycle hvacant (by simp) hspared (by decide) (by rw [hresults.2.2]; decide)
      fun _ => hrecordable
  exact ⟨s, p, t, t', by rw [hs], by rw [hp], hresults.1, hresults.2.1, hrun, happlied⟩

/-- A plan that keeps off the state directory is carried over to a custom theme that does not. -/
theorem carried_over_to_receipts : ∃ (s : Session) (p : Planned) (t : Tree),
    s.config.themes = [⟨1, "default", ⟨"/b"⟩⟩, ⟨2, "custom", ⟨"/s/installed"⟩⟩] ∧
    s.layout = ⟨⟨"/s"⟩⟩ ∧
    p.actions =
      [⟨.requireFile, "p", some ⟨"/b/x"⟩, some ⟨"/p"⟩, "", false, false, .tree .yes⟩] ∧
    Vacant s.layout (runId ⟨none, none, 1, 2⟩) t ∧
    (∀ a ∈ p.actions, a.kind ≠ .modification ∧
      ∀ path ∈ a.source.toList ++ a.destination.toList, Clear (s.layout.reserve t) t path) ∧
    Below (t.lexicalPlace s.layout.receipts) ["s", "installed", "x"] ∧
    t.lexicalPlace (s.layout.receipt p.manifest.id) ≠ ["s", "installed", "x"] ∧
    t.at? ["s", "installed", "x"] = none ∧
    (match (applyPlanned ⟨none, none, 1, 2⟩ s p none).run.run t with
      | (.ok _, t') => t'.at? ["s", "installed", "x"]
      | (.error _, _) => none) = some (.file (.text "new") 0o644) := by
  obtain ⟨s, hs⟩ : ∃ s : Session, s = ⟨⟨"2.1", ⟨"/b"⟩, "english", false, ⟨"Sources"⟩, ⟨"Themes"⟩,
      "Settings.php", [⟨1, "default", ⟨"/b"⟩⟩, ⟨2, "custom", ⟨"/s/installed"⟩⟩]⟩, ⟨⟨"/s"⟩⟩⟩ :=
    ⟨_, rfl⟩
  have hthemes : s.config.themes = [⟨1, "default", ⟨"/b"⟩⟩, ⟨2, "custom", ⟨"/s/installed"⟩⟩] := by
    rw [hs]
    have hboard : Path.isAbsolute ⟨"/b"⟩ = true := by decide
    have hcustom : Path.isAbsolute ⟨"/s/installed"⟩ = true := by decide
    simp [Config.themes, Config.resolveDirectory, List.mergeSort, hboard, hcustom]
  obtain ⟨p, hp⟩ : ∃ p : Planned, p = ⟨⟨"p", "p", "1", none, ⟨.table []⟩⟩, .install, ⟨[]⟩,
      [⟨.requireFile, "p", some ⟨"/b/x"⟩, some ⟨"/p"⟩, "", false, false, .tree .yes⟩]⟩ := ⟨_, rfl⟩
  obtain ⟨t, ht⟩ : ∃ t : Tree, t = ⟨[
      (["b"], .directory 0o755), (["p"], .file (.text "new") 0o644),
      (["s"], .directory 0o755), (["s", "installed"], .directory 0o755),
      (["s", "staging"], .directory 0o755), (["s", "runs"], .directory 0o755)], []⟩ := ⟨_, rfl⟩
  have hvacant : Vacant s.layout (runId ⟨none, none, 1, 2⟩) t := by
    subst ht hs
    exact ⟨closed_of_entries (by decide), named_of_entries (by decide), by decide,
      ⟨by decide +kernel, by decide +kernel, by decide +kernel⟩, by decide +kernel,
      by decide +kernel, by decide +kernel, by decide +kernel⟩
  have hclear : ∀ a ∈ p.actions, a.kind ≠ .modification ∧
      ∀ path ∈ a.source.toList ++ a.destination.toList, Clear (s.layout.reserve t) t path := by
    subst ht hs hp
    decide +kernel
  have hlayout : s.layout = ⟨⟨"/s"⟩⟩ := by rw [hs]
  have hactions : p.actions =
      [⟨.requireFile, "p", some ⟨"/b/x"⟩, some ⟨"/p"⟩, "", false, false, .tree .yes⟩] := by rw [hp]
  have hrun : (match (applyPlanned ⟨none, none, 1, 2⟩ s p none).run.run t with
      | (.ok _, t') => t'.at? ["s", "installed", "x"]
      | (.error _, _) => none) = some (.file (.text "new") 0o644) := by
    have hlength : p.actions.length = 1 := by rw [hp]; rfl
    have hconfig : s.config.settingsPath = ⟨"/b/Settings.php"⟩ ∧ s.config.makeBackups = false ∧
        s.config.language = "english" := by
      rw [hs]
      decide +kernel
    -- sorting the themes is not evaluated, so they are put in as they come out
    unfold applyPlanned runClaimed execute
    simp only [executeFrom, hlength, context, hthemes, hlayout, hconfig.1, hconfig.2.1,
      hconfig.2.2]
    clear hclear hvacant hthemes hlength hlayout hactions hconfig hs
    subst ht hp
    decide +kernel
  refine ⟨s, p, t, hthemes, hlayout, hactions, hvacant, hclear, ?_, ?_, ?_, hrun⟩
  · subst ht hs
    decide
  · subst ht hs hp
    decide +kernel
  · subst ht
    decide

end Patchboard.Cli
