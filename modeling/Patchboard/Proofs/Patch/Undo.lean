import Patchboard.Proofs.Patch.Undo.Carrying

set_option autoImplicit false

namespace Patchboard.Modification
open Tree Site Save

/-- A modification of literal replacements. -/
def IsReplacementDocument (d : Document) : Prop :=
  ∀ block ∈ d.children "" "file", IsReplacementBlock block

instance (d : Document) : Decidable (IsReplacementDocument d) :=
  inferInstanceAs (Decidable (∀ block ∈ d.children "" "file", IsReplacementBlock block))

/-- The files that a modification changes: those that it names, and the copies of them. -/
def files (b : Board) (d : Document) (t : Tree) : List Path := (jobs b d t).filterMap Job.path?

/-- The files of a modification lie apart from each other, and from where a copy of them could
appear. -/
structure LiesApart (b : Board) (d : Document) (t : Tree) : Prop where
  closed : t.Closed
  files : Apart b t (files b d t).dedup
  copies : ∀ copy ∈ looks b d, t.file? copy = none →
    t.Steady copy ∧ ∀ path ∈ Modification.files b d t, Clears b t path copy

def carriedBack? (b : Board) (jobs : List Job) (m : Files) : Option Files :=
  (carry? b false jobs m).bind (carry? b true jobs)

/-- The files hold again what they held. -/
def RoundTrips (b : Board) (jobs : List Job) (m : Files) : Prop :=
  ∃ undone ∈ carriedBack? b jobs m,
    ∀ path ∈ jobs.filterMap Job.path?, (m path).isSome → undone path = m path

instance (b : Board) (jobs : List Job) (m : Files) : Decidable (RoundTrips b jobs m) :=
  inferInstanceAs (Decidable (∃ undone ∈ carriedBack? b jobs m,
    ∀ path ∈ jobs.filterMap Job.path?, (m path).isSome → undone path = m path))

/-- The undoing of a modification, after it was carried out. -/
def undo (b : Board) (d : Document) (s : Site) : Progress :=
  applyTo b ⟨false, true⟩ d (applyTo b ⟨false, false⟩ d s).site

section
variable {b : Board} {d : Document} {s : Site}

theorem isReplacement_of_mem_jobs {t : Tree} (h : IsReplacementDocument d) {job : Job}
    (hj : job ∈ jobs b d t) : job.IsReplacement := by
  obtain ⟨numbered, hn, hj⟩ := List.mem_flatMap.1 hj
  have htarget : numbered.1 ∈ targets b d :=
    List.fst_mem_of_mem_zipIdx hn
  obtain ⟨block, hblock, htarget⟩ := List.mem_map.1 htarget
  unfold jobsOf at hj
  split at hj
  · rw [List.mem_singleton.1 hj]
    trivial
  · obtain ⟨copy, -, rfl⟩ := List.mem_map.1 hj
    rw [← htarget]
    exact h block hblock

theorem path_mem_files {t : Tree} {job : Job} (hj : job ∈ jobs b d t) :
    ∀ path ∈ job.path?, path ∈ files b d t :=
  fun _ hp => List.mem_filterMap.2 ⟨job, hj, hp⟩

theorem grown_foldl_runJob (b : Board) (o : PatchOptions) (jobs : List Job) (p : Progress) :
    Grown p.site.tree (jobs.foldl (runJob b o) p).site.tree
      (jobs.flatMap (Job.footprint b p.site.tree)) := by
  induction jobs generalizing p with
  | nil => exact Grown.refl ..
  | cons job jobs ih =>
    have hfirst := grown_runJob b o p job
    have hrest := ih (runJob b o p job)
    rw [funext (footprint_job_of_grown hfirst b)] at hrest
    exact hfirst.trans hrest

theorem jobs_foldl_runJob (h : LiesApart b d s.tree) (o : PatchOptions) :
    jobs b d ((jobs b d s.tree).foldl (runJob b o) ⟨s, .empty⟩).site.tree = jobs b d s.tree := by
  have hgrown := grown_foldl_runJob b o (jobs b d s.tree) ⟨s, .empty⟩
  refine jobs_congr fun copy hcopy => ?_
  rw [isFile_eq_file?, isFile_eq_file?]
  cases hf : s.tree.file? copy with
  | some contents => exact isSome_file?_of_grown hgrown (by rw [hf]; rfl)
  | none =>
    obtain ⟨hsteady, hclear⟩ := h.copies copy hcopy hf
    rw [file?_of_grown hgrown h.closed hsteady, hf]
    intro hmem
    obtain ⟨job, hj, hmem⟩ := List.mem_flatMap.1 hmem
    obtain ⟨path, hp, hmem⟩ := List.mem_flatMap.1 hmem
    exact hclear path (path_mem_files hj path (by simpa using hp)) hmem

theorem targets_ne_nil {o : PatchOptions}
    (h : (applyTo b o d s).report.everythingFound = true) : targets b d ≠ [] := by
  intro hnil
  rw [applyTo_nil hnil] at h
  simp [malformed, Progress.fail, Report.fail] at h

/-- A modification whose files are there and may be written does to them what it does to the
contents alone. -/
theorem tracks_applyTo (hr : IsReplacementDocument d) (h : LiesApart b d s.tree)
    (ht : targets b d ≠ []) (hfiles : ∀ path ∈ files b d s.tree, s.Savable path) :
    (applyTo b ⟨false, false⟩ d s).report.everythingFound =
        (carry? b false (jobs b d s.tree) s.tree.file?).isSome ∧
      ∀ done ∈ carry? b false (jobs b d s.tree) s.tree.file?,
        Tracks s.tree (files b d s.tree) (applyTo b ⟨false, false⟩ d s).site done := by
  rw [applyTo_eq ht]
  refine foldl_runJob_of_ready (o := ⟨false, false⟩) h.closed h.files rfl
    (fun job hj => isReplacement_of_mem_jobs hr hj) (fun job hj => path_mem_files hj)
    (tracks_self ..) (fun job hj => ?_) rfl
  cases job with
  | nameless number => trivial
  | block document copy =>
    have hfile := hfiles copy.path (path_mem_files hj copy.path rfl)
    exact .inr (.inl ⟨hfile.there, hfile.storable⟩)

/-- A modification of literal replacements and its undoing do to the files on the site what they do
to the contents alone. -/
theorem tracks_undo (hr : IsReplacementDocument d) (h : LiesApart b d s.tree)
    (hfound : (applyTo b ⟨false, false⟩ d s).report.everythingFound = true) :
    (undo b d s).report.everythingFound =
        (carriedBack? b (jobs b d s.tree) s.tree.file?).isSome ∧
      ∀ undone ∈ carriedBack? b (jobs b d s.tree) s.tree.file?,
        Tracks s.tree (files b d s.tree) (undo b d s).site undone := by
  have hjobs : ∀ job ∈ jobs b d s.tree, job.IsReplacement :=
    fun job hj => isReplacement_of_mem_jobs hr hj
  have hpaths : ∀ job ∈ jobs b d s.tree, ∀ path ∈ job.path?, path ∈ files b d s.tree :=
    fun job hj => path_mem_files hj
  have ht := targets_ne_nil hfound
  have hsame := jobs_foldl_runJob h ⟨false, false⟩
  unfold undo carriedBack?
  rw [applyTo_eq ht] at hfound ⊢
  rw [applyTo_eq ht, hsame]
  obtain ⟨done, hdone, htracks, -, hready⟩ := tracks_foldl_runJob (o := ⟨false, false⟩) h.closed
    h.files rfl hjobs hpaths (tracks_self ..) hfound
  rw [hdone, Option.bind_some]
  exact foldl_runJob_of_ready (o := ⟨false, true⟩) (p := ⟨_, .empty⟩) h.closed h.files rfl hjobs
    hpaths htracks hready rfl

/-- Undoing a modification of literal replacements that found everything finds everything again and
brings back every file exactly when the contents alone come back. -/
theorem undo_restores_iff (hr : IsReplacementDocument d) (h : LiesApart b d s.tree)
    (hfound : (applyTo b ⟨false, false⟩ d s).report.everythingFound = true) :
    ((undo b d s).report.everythingFound = true ∧
        ∀ path ∈ files b d s.tree, (s.tree.file? path).isSome →
          (undo b d s).site.tree.file? path = s.tree.file? path) ↔
      RoundTrips b (jobs b d s.tree) s.tree.file? := by
  obtain ⟨hundo, htracks⟩ := tracks_undo hr h hfound
  rw [hundo]
  constructor
  · rintro ⟨hsome, hback⟩
    obtain ⟨undone, hundone⟩ := Option.isSome_iff_exists.1 hsome
    refine ⟨undone, hundone, fun path hp hs => ?_⟩
    rw [← (htracks undone hundone).holds path hp]
    exact hback path hp hs
  · rintro ⟨undone, hundone, hback⟩
    refine ⟨Option.isSome_of_mem hundone, fun path hp hs => ?_⟩
    rw [(htracks undone hundone).holds path hp]
    exact hback path hp hs

end

def replaceWith (add search : String) : Toml :=
  .table [("add", .string add), ("search", .array [.string search])]

def fileWith (name : String) (operations : List Toml) : Document :=
  ⟨.table [("file", .array [.table [("name", .string name), ("operation", .array operations)]])]⟩

def twoThemes : Board :=
  ⟨.empty, [⟨1, "default", ⟨"/t/d"⟩⟩, ⟨2, "other", ⟨"/t/o"⟩⟩], none, true⟩

def twoCopies : Site :=
  ⟨⟨[(["t"], .directory 0o755), (["t", "d"], .directory 0o755), (["t", "o"], .directory 0o755),
    (["t", "d", "x"], .file (.text "a c") 0o644), (["t", "o", "x"], .file (.text "c a") 0o644)],
    []⟩, .byMode⟩

/-- Two replacements that have nothing to do with each other, in a file and in a copy of it. -/
def freshDocument : Document := fileWith "/t/d/x" [replaceWith "$b" "a", replaceWith "d\\" "c"]

theorem undo_restores_fresh :
    (undo twoThemes freshDocument twoCopies).report.everythingFound = true ∧
      files twoThemes freshDocument twoCopies.tree = [⟨"/t/d/x"⟩, ⟨"/t/o/x"⟩] ∧
      ∀ path ∈ files twoThemes freshDocument twoCopies.tree,
        (undo twoThemes freshDocument twoCopies).site.tree.file? path =
          twoCopies.tree.file? path := by
  have hr : IsReplacementDocument freshDocument := by decide
  have h : LiesApart twoThemes freshDocument twoCopies.tree :=
    ⟨closed_of_entries (by decide), ⟨by decide, by decide, by decide⟩, by decide⟩
  have hfiles : ∀ path ∈ files twoThemes freshDocument twoCopies.tree, twoCopies.Savable path := by
    decide
  obtain ⟨hfound, -⟩ := tracks_applyTo hr h (by decide) hfiles
  have hback := (undo_restores_iff hr h (hfound.trans (by decide +kernel))).2 (by decide +kernel)
  exact ⟨hback.1, by decide, fun path hp => hback.2 path hp (hfiles path hp).there⟩

def loneFile (text : String) : Site := ⟨⟨[(["f"], .file (.text text) 0o644)], []⟩, .byMode⟩

def repeatedDocument : Document := fileWith "/f" [replaceWith "b" "a"]

def chainedDocument : Document := fileWith "/f" [replaceWith "b" "a", replaceWith "c" "b"]

theorem undo_repeated_chained :
    (IsReplacementDocument repeatedDocument ∧
      (applyTo twoThemes ⟨false, false⟩ repeatedDocument (loneFile "ba")).report.everythingFound =
        true ∧
      (undo twoThemes repeatedDocument (loneFile "ba")).report.everythingFound = true ∧
      (undo twoThemes repeatedDocument (loneFile "ba")).site.tree.file? ⟨"/f"⟩ =
        some (.text "ab")) ∧
    IsReplacementDocument chainedDocument ∧
      (applyTo twoThemes ⟨false, false⟩ chainedDocument (loneFile "a")).report.everythingFound =
        true ∧
      (undo twoThemes chainedDocument (loneFile "a")).report.everythingFound = false := by
  have hr : IsReplacementDocument repeatedDocument := by decide
  have hr' : IsReplacementDocument chainedDocument := by decide
  have h : LiesApart twoThemes repeatedDocument (loneFile "ba").tree :=
    ⟨closed_of_entries (by decide), ⟨by decide, by decide, by decide⟩, by decide⟩
  have h' : LiesApart twoThemes chainedDocument (loneFile "a").tree :=
    ⟨closed_of_entries (by decide), ⟨by decide, by decide, by decide⟩, by decide⟩
  have hfound := (tracks_applyTo hr h (by decide) (by decide)).1.trans
    (by decide +kernel : _ = true)
  have hfound' := (tracks_applyTo hr' h' (by decide) (by decide)).1.trans
    (by decide +kernel : _ = true)
  obtain ⟨hundo, htracks⟩ := tracks_undo hr h hfound
  obtain ⟨hundo', -⟩ := tracks_undo hr' h' hfound'
  refine ⟨⟨hr, hfound, hundo.trans (by decide +kernel), ?_⟩, hr', hfound',
    hundo'.trans (by decide +kernel)⟩
  have hback : ((carriedBack? twoThemes (jobs twoThemes repeatedDocument (loneFile "ba").tree)
      (loneFile "ba").tree.file?).map fun m => m ⟨"/f"⟩) = some (some (.text "ab")) := by
    decide +kernel
  obtain ⟨undone, hundone, hholds⟩ := Option.map_eq_some_iff.1 hback
  exact ((htracks undone hundone).holds _ (by decide)).trans hholds

end Patchboard.Modification
