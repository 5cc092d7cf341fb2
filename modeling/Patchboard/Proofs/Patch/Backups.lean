import Patchboard.Proofs.Patch.Accounting
import Patchboard.Proofs.Patch.DryRun
import Patchboard.Proofs.Patch.Revision
import Patchboard.Proofs.Patch.Undo
import Patchboard.Proofs.Tree.Confinement

set_option autoImplicit false

/-!
What the backup of a file holds after some patches. Every save of the file copies it to its backup
first, so in the end the backup holds what the file held before its last save, which is what it held
at the start when it was saved once.
-/

namespace Patchboard
open Tree

namespace Tree

variable {base t : Tree} {p : Path} {place : Place}

theorem look_of_confines {action : Action Unit}
    (h : Confines base (· = base.lexicalPlace p) (base.way p) action)
    (ht : t.working = base.working) (hp : place ∉ base.way p) :
    (after action t).look place = t.look place := by
  have hself : place ≠ base.lexicalPlace p := fun he => hp (he ▸ lexicalPlace_mem_way base p)
  exact congrArg (Option.map _) ((h t ht).same hself hp)

end Tree

namespace Save

variable {base t : Tree} {b : Board} {path : Path} {existed : Bool} {s : Site} {place : Place}

theorem confines_write {inside : Place → Prop} (hp : inside (base.lexicalPlace path))
    (text : List Char) : Confines base inside (base.way path) (write path text) :=
  (confines_makeParents path).bind fun _ => confines_writeContents hp _

theorem confines_copyTo {inside : Place → Prop} {target : Path}
    (hp : inside (base.lexicalPlace target)) (source : Path) :
    Confines base inside (base.way target) (copyTo source target) :=
  (confines_makeParents target).bind fun _ => confines_copyFile hp source

theorem look_backUp (hs : s.tree.working = base.working)
    (hb : place ∉ base.way (Backup.ofFile path b.settings)) :
    (backUp b path existed s).tree.look place = s.tree.look place := by
  unfold backUp
  split
  · exact look_of_confines (confines_copyTo (by rfl) path) hs hb
  · rfl

theorem look_written (text : List Char) (hs : s.tree.working = base.working)
    (hp : place ∉ base.way path) :
    (written b path text existed s).2.tree.look place =
      (backUp b path existed s).tree.look place :=
  look_of_confines (confines_write (by rfl) text)
    ((grown_backUp b path existed s).working.trans hs) hp

theorem look_copyTo {target : Path} {contents : Contents} {mode : Option Nat}
    (hf : t.file? path = some contents) (hs : t.Sheltered target)
    (hw : t.writable? target = .ok (place, mode)) (hne : place ≠ t.lexicalPlace path) :
    (after (copyTo path target) t).look place = some (.file contents 0) := by
  obtain ⟨he, origin, old, hl, ha⟩ := file?_eq_some.1 hf
  have hfind : t.find path = .ok (origin, .file contents old) := by simp [find, hl, ha, he]
  have hroot : place ≠ [] := fun hr => (writable?_ok hw).2 (by rw [hr]; rfl)
  have horigin : place ≠ origin := by rwa [locate_ok hl]
  unfold after copyTo
  rw [run_bind, run_makeParents hs]
  dsimp only
  unfold copyFile
  rw [run_bind, run_ask, hfind]
  dsimp only
  rw [run_bind, run_ask, hw]
  dsimp only
  rw [if_neg horigin]
  exact (look_put ..).trans (if_pos ⟨rfl, hroot⟩)

theorem look_backUp_of_writable {contents : Contents} {mode : Option Nat}
    (hb : b.makeBackups = true) (hf : s.tree.file? path = some contents)
    (hs : s.tree.Sheltered (Backup.ofFile path b.settings))
    (hw : s.tree.writable? (Backup.ofFile path b.settings) = .ok (place, mode))
    (hne : place ≠ s.tree.lexicalPlace path) :
    (backUp b path true s).tree.look place = some (.file contents 0) := by
  unfold backUp
  rw [hb]
  exact look_copyTo hf hs hw hne

end Save

structure Saving where
  path : Path
  before : Tree

theorem Edits.existed_of_made {edits : Edits} {undo : Bool} {contents? : Option Contents}
    {existed : Bool} {kinds : List EventKind} {text : List Char}
    (h : edits.revise undo contents? = .made existed kinds text) :
    existed = contents?.isSome := by
  unfold revise at h
  split at h
  · cases h
    rfl
  · cases h
  · split at h
    · cases h
    · cases h
      rfl
    · cases h
  · cases h
    rfl
  · cases h

namespace Run

def stores (b : Board) (o : PatchOptions) (s : Site) (run : Run) : Bool :=
  match run.edits.revise o.undo (s.tree.file? run.file.path) with
  | .left _ => false
  | .made _ kinds _ => !kinds.any (·.isFailure) && !Save.isSettingsBackup b run.file.path &&
    (s.ensureWritable run.file.path).1

def saving? (b : Board) (o : PatchOptions) (s : Site) (run : Run) : Option Saving :=
  if run.stores b o s then some ⟨run.file.path, s.tree⟩ else none

variable {b : Board} {o : PatchOptions}

theorem carryOut_cases (ho : o.testing = false) (p : Progress) (run : Run) :
    (run.stores b o p.site = false ∧ Grown p.site.tree (run.carryOut b o p).site.tree [] ∧
      ∀ place, (run.carryOut b o p).site.tree.look place = p.site.tree.look place) ∨
    (run.stores b o p.site = true ∧ ∃ text, (run.carryOut b o p).site =
      (Save.written b run.file.path text (p.site.tree.file? run.file.path).isSome
        (p.site.ensureWritable run.file.path).2).2) := by
  have hkept : Grown p.site.tree p.site.tree [] ∧
      ∀ place, p.site.tree.look place = p.site.tree.look place := ⟨Grown.refl .., fun _ => rfl⟩
  unfold stores carryOut
  cases hr : run.edits.revise o.undo (p.site.tree.file? run.file.path) with
  | left kind => exact .inl ⟨rfl, hkept⟩
  | made existed kinds text =>
    dsimp only
    cases hk : kinds.any (·.isFailure) with
    | true => exact .inl ⟨rfl, hkept⟩
    | false =>
      rw [if_neg (by simp)]
      rcases Save.save_cases b run.file.path run.file.theme text existed o
          (p.extend ((.opened :: kinds).map run.event)) with
        ⟨hs, hsave⟩ | ⟨hs, ⟨ht, -⟩ | ⟨-, hw, hsave⟩ | ⟨-, hw, hsave⟩⟩
      · rw [hsave, hs]
        exact .inl ⟨rfl, hkept⟩
      · simp [ho] at ht
      · change (p.site.ensureWritable run.file.path).1 = false at hw
        rw [hsave, hs, hw]
        exact .inl ⟨rfl, p.site.grown_ensureWritable _, p.site.look_ensureWritable _⟩
      · change (p.site.ensureWritable run.file.path).1 = true at hw
        rw [hsave, hs, hw, ← Edits.existed_of_made hr]
        refine .inr ⟨rfl, text, ?_⟩
        rcases Save.store_cases b run.file.path run.file.theme text existed
            ((p.extend ((.opened :: kinds).map run.event)).on
              (p.site.ensureWritable run.file.path).2) with ⟨-, hstore⟩ | ⟨-, hstore⟩
        · exact congrArg Progress.site hstore
        · exact congrArg Progress.site hstore

end Run

namespace Backup

/-- Where the backup of a file stands. -/
def place (b : Board) (t : Tree) (p : Path) : Place := t.lexicalPlace (ofFile p b.settings)

/-- A file is there, and beside it a file can be written as its backup. -/
structure Possible (b : Board) (t : Tree) (p : Path) : Prop where
  there : (t.file? p).isSome
  sheltered : t.Sheltered (ofFile p b.settings)
  writable : (t.writable? (ofFile p b.settings)).isOk = true

/-- What is done to the file `q` spares the backup of `p`: the way to `q` does not lead over it, nor
the way to the backup of `q`; the file `p` itself is no backup of `q`; and if `q` is another name
of `p`, then it has the same backup. -/
structure Spares (b : Board) (t : Tree) (p q : Path) : Prop where
  way : place b t p ∉ t.way q
  backup : t.lexicalPlace q ≠ t.lexicalPlace p → place b t p ∉ t.way (ofFile q b.settings)
  original : t.lexicalPlace p ≠ place b t q
  renamed : t.lexicalPlace q = t.lexicalPlace p → Possible b t q ∧ place b t q = place b t p

/-- The backup can still be written. -/
structure Open (b : Board) (t : Tree) (p : Path) (t' : Tree) : Prop where
  grown : ∃ written, Grown t t' written
  free : t'.look (place b t p) ≠ some (.directory 0)

section
variable {b : Board} {t t' : Tree} {p q : Path}

instance (b : Board) (t : Tree) (p : Path) : Decidable (Possible b t p) :=
  decidable_of_iff ((t.file? p).isSome ∧ t.Sheltered (ofFile p b.settings) ∧
      (t.writable? (ofFile p b.settings)).isOk = true)
    ⟨fun h => ⟨h.1, h.2.1, h.2.2⟩, fun h => ⟨h.there, h.sheltered, h.writable⟩⟩

instance (b : Board) (t : Tree) (p q : Path) : Decidable (Spares b t p q) :=
  decidable_of_iff ((∀ above ∈ t.way q, above ≠ place b t p) ∧
      (t.lexicalPlace q ≠ t.lexicalPlace p →
        ∀ above ∈ t.way (ofFile q b.settings), above ≠ place b t p) ∧
      t.lexicalPlace p ≠ place b t q ∧
      (t.lexicalPlace q = t.lexicalPlace p → Possible b t q ∧ place b t q = place b t p))
    ⟨fun h => ⟨fun hm => h.1 _ hm rfl, fun hq hm => h.2.1 hq _ hm rfl, h.2.2.1, h.2.2.2⟩,
      fun h => ⟨fun _ hm he => h.way (he ▸ hm), fun hq _ hm he => h.backup hq (he ▸ hm),
        h.original, h.renamed⟩⟩

theorem Possible.writable_at (h : Possible b t p) :
    ∃ mode, t.writable? (ofFile p b.settings) = .ok (place b t p, mode) := by
  have hw := h.writable
  cases ho : t.writable? (ofFile p b.settings) with
  | error e => simp [ho, Except.isOk, Except.toBool] at hw
  | ok found =>
    obtain ⟨goal, mode⟩ := found
    exact ⟨mode, by rw [(writable?_ok ho).1, place]⟩

theorem Possible.isOpen (h : Possible b t p) : Open b t p t := by
  obtain ⟨mode, hw⟩ := h.writable_at
  exact ⟨⟨[], Grown.refl ..⟩, (writable?_ok hw).2⟩

theorem Open.file? (h : Open b t p t') (hp : Possible b t p) :
    t'.file? p = t'.contentsAt? (t.lexicalPlace p) ∧
      t'.file? (ofFile p b.settings) = t'.contentsAt? (place b t p) := by
  obtain ⟨written, hg⟩ := h.grown
  obtain ⟨contents, hf⟩ := Option.isSome_iff_exists.1 hp.there
  obtain ⟨he, origin, mode, hl, -⟩ := file?_eq_some.1 hf
  obtain ⟨mode', hw⟩ := hp.writable_at
  have hbackup := locate_of_grown hg (locate_of_writable? hw)
  rw [locate_ok hl] at hl
  exact ⟨file?_of_locate (locate_of_grown hg hl) he,
    file?_of_locate hbackup (ends_of_writable? hw).1⟩

theorem Open.of_look {written : List Place} (h : Open b t p t') {t'' : Tree}
    (hg : Grown t' t'' written) (hl : t''.look (place b t p) = t'.look (place b t p)) :
    Open b t p t'' := by
  obtain ⟨before, hgrown⟩ := h.grown
  exact ⟨⟨_, hgrown.trans hg⟩, hl ▸ h.free⟩

theorem Open.of_place (h : Open b t p t') (hq : place b t q = place b t p) : Open b t q t' :=
  ⟨h.grown, hq ▸ h.free⟩

theorem Open.writable_at (h : Open b t p t') (hp : Possible b t p) :
    ∃ mode, t'.writable? (ofFile p b.settings) = .ok (place b t p, mode) := by
  obtain ⟨written, hg⟩ := h.grown
  obtain ⟨mode, hw⟩ := hp.writable_at
  exact writable?_of_grown hg hw h.free

end

end Backup

namespace Save
open Backup

variable {b : Board} {t : Tree} {p q : Path} {s : Site} (text : List Char)

theorem written_elsewhere (existed : Bool) (hs : Spares b t p q)
    (hq : t.lexicalPlace q ≠ t.lexicalPlace p) (h : Open b t p s.tree) :
    Open b t p (written b q text existed s).2.tree ∧
      ∀ kept ∈ [t.lexicalPlace p, Backup.place b t p],
        (written b q text existed s).2.tree.contentsAt? kept = s.tree.contentsAt? kept := by
  obtain ⟨before, hgrown⟩ := h.grown
  have hg := grown_written b q text existed s
  have hlook : (written b q text existed s).2.tree.look (Backup.place b t p) =
      s.tree.look (Backup.place b t p) :=
    (look_written text hgrown.working hs.way).trans (look_backUp hgrown.working (hs.backup hq))
  refine ⟨h.of_look hg hlook, ?_⟩
  rw [List.forall_mem_cons, List.forall_mem_singleton]
  refine ⟨contentsAt?_of_grown hg ?_, by rw [contentsAt?, contentsAt?, hlook]⟩
  have horiginal : t.lexicalPlace p ≠ t.lexicalPlace (ofFile q b.settings) := hs.original
  unfold footprint
  rw [lexicalPlace_of_grown hgrown, lexicalPlace_of_grown hgrown]
  simp [Ne.symm hq, horiginal]

theorem written_here (hb : b.makeBackups = true) (hs : Spares b t p q)
    (hq : t.lexicalPlace q = t.lexicalPlace p) (h : Open b t p s.tree) :
    Open b t p (written b q text true s).2.tree ∧
      (written b q text true s).2.tree.contentsAt? (Backup.place b t p) =
        s.tree.contentsAt? (t.lexicalPlace p) := by
  obtain ⟨hpossible, hplace⟩ := hs.renamed hq
  obtain ⟨before, hgrown⟩ := h.grown
  have hopen := h.of_place hplace
  -- What could be written at the start still can be, since no directory was made there.
  obtain ⟨mode, hw⟩ := hopen.writable_at hpossible
  obtain ⟨contents, hf⟩ := Option.isSome_iff_exists.1 (isSome_file?_of_grown hgrown hpossible.there)
  have hne : Backup.place b t q ≠ s.tree.lexicalPlace q := by
    rw [hplace, lexicalPlace_of_grown hgrown]
    exact fun he => hs.way (he ▸ lexicalPlace_mem_way t q)
  have hlook : (written b q text true s).2.tree.look (Backup.place b t p) =
      some (.file contents 0) := by
    rw [look_written text hgrown.working hs.way, ← hplace]
    exact look_backUp_of_writable hb hf (hpossible.sheltered.of_grown hgrown) hw hne
  obtain ⟨hfile, -⟩ := hopen.file? hpossible
  refine ⟨⟨⟨_, hgrown.trans (grown_written b q text true s)⟩, by simp [hlook]⟩, ?_⟩
  rw [← hq, ← hfile, hf, contentsAt?, hlook]

end Save

namespace Run
open Backup

variable {b : Board} {o : PatchOptions} {t : Tree} {p : Path} {run : Run} {now : Progress}

theorem carryOut_spares (ho : o.testing = false) (h : Open b t p now.site.tree)
    (hs : run.stores b o now.site = true →
      Spares b t p run.file.path ∧ t.lexicalPlace run.file.path ≠ t.lexicalPlace p) :
    Open b t p (run.carryOut b o now).site.tree ∧
      ∀ kept ∈ [t.lexicalPlace p, place b t p],
        (run.carryOut b o now).site.tree.contentsAt? kept =
          now.site.tree.contentsAt? kept := by
  rcases carryOut_cases (b := b) ho now run with ⟨-, hg, hlook⟩ | ⟨hstores, text, hsite⟩
  · exact ⟨h.of_look hg (hlook _), fun kept _ => contentsAt?_of_grown hg (by simp)⟩
  · have hg := now.site.grown_ensureWritable run.file.path
    have hwritable := h.of_look hg (now.site.look_ensureWritable _ _)
    obtain ⟨hspares, hq⟩ := hs hstores
    obtain ⟨hopen, hkept⟩ := Save.written_elsewhere text (now.site.tree.file? run.file.path).isSome
      hspares hq hwritable
    rw [hsite]
    exact ⟨hopen, fun kept hk => (hkept kept hk).trans (contentsAt?_of_grown hg (by simp))⟩

theorem carryOut_backs (hb : b.makeBackups = true) (ho : o.testing = false)
    (hs : Spares b t p run.file.path) (h : Open b t p now.site.tree)
    (hstores : run.stores b o now.site = true)
    (hq : t.lexicalPlace run.file.path = t.lexicalPlace p) :
    Open b t p (run.carryOut b o now).site.tree ∧
      (run.carryOut b o now).site.tree.contentsAt? (place b t p) =
        now.site.tree.contentsAt? (t.lexicalPlace p) := by
  rcases carryOut_cases (b := b) ho now run with ⟨hn, -⟩ | ⟨-, text, hsite⟩
  · simp [hstores] at hn
  · have hg := now.site.grown_ensureWritable run.file.path
    have hwritable := h.of_look hg (now.site.look_ensureWritable _ _)
    obtain ⟨before, hgrown⟩ := h.grown
    have hthere := isSome_file?_of_grown hgrown (hs.renamed hq).1.there
    rw [hsite, hthere, ← contentsAt?_of_grown hg (by simp)]
    exact Save.written_here text hb hs hq hwritable

end Run

namespace Patch
open Backup

def Task.saving? (b : Board) (o : PatchOptions) (s : Site) (task : Task) : Option Saving :=
  task.run?.bind (·.saving? b o s)

def savingsOf (b : Board) (o : PatchOptions) : List Task → Progress → List Saving
  | [], _ => []
  | task :: tasks, p =>
    (task.saving? b o p.site).toList ++ savingsOf b o tasks (perform b o p task)

/-- A patch that is to be carried out or undone. -/
structure Turn where
  patch : Patch
  undo : Bool

namespace Turn

def apply (b : Board) (turn : Turn) (s : Site) : Site :=
  (turn.patch.applyTo b ⟨false, turn.undo⟩ s).site

def savings (b : Board) (turn : Turn) (s : Site) : List Saving :=
  savingsOf b ⟨false, turn.undo⟩ (turn.patch.tasks b s.tree) (turn.patch.opening b s)

end Turn

/-- The site after some patches. -/
def applyAll (b : Board) (turns : List Turn) (s : Site) : Site :=
  turns.foldl (fun s turn => turn.apply b s) s

/-- What some patches store. -/
def savings (b : Board) : List Turn → Site → List Saving
  | [], _ => []
  | turn :: turns, s => turn.savings b s ++ savings b turns (turn.apply b s)

/-- Those of the file that a path leads to. -/
def savingsAt (t : Tree) (p : Path) (savings : List Saving) : List Saving :=
  savings.filter fun saving => t.lexicalPlace saving.path = t.lexicalPlace p

/-- After some saves of a file: its backup holds what the file held before the last one, and until
the first one the file held what it held at the start. -/
structure Backed (b : Board) (t : Tree) (p : Path) (saves : List Saving) (now : Tree) : Prop where
  still : Open b t p now
  kept : saves = [] → now.file? p = t.file? p
  first : ∀ save ∈ saves.head?, save.before.file? p = t.file? p
  last : ∀ save ∈ saves.getLast?, now.file? (ofFile p b.settings) = save.before.file? p

section
variable {b : Board} {t : Tree} {p : Path} {done : List Saving}

theorem savingsAt_append (savings savings' : List Saving) :
    savingsAt t p (savings ++ savings') = savingsAt t p savings ++ savingsAt t p savings' :=
  List.filter_append ..

theorem Backed.start (hp : Possible b t p) : Backed b t p [] t :=
  ⟨hp.isOpen, fun _ => rfl, by simp, by simp⟩

theorem Backed.store {saves : List Saving} {now now' : Tree} (h : Backed b t p saves now)
    (hp : Possible b t p) (ho : Open b t p now')
    (hc : now'.contentsAt? (place b t p) = now.contentsAt? (t.lexicalPlace p)) (q : Path) :
    Backed b t p (saves ++ [⟨q, now⟩]) now' := by
  refine ⟨ho, by simp, ?_, ?_⟩
  · cases saves with
    | nil => simpa using h.kept rfl
    | cons save saves => simpa using h.first
  · simpa [(ho.file? hp).2, (h.still.file? hp).1] using hc

theorem Backed.spare {saves : List Saving} {now now' : Tree} (h : Backed b t p saves now)
    (hp : Possible b t p) (ho : Open b t p now')
    (hc : ∀ kept ∈ [t.lexicalPlace p, place b t p],
      now'.contentsAt? kept = now.contentsAt? kept) :
    Backed b t p saves now' := by
  rw [List.forall_mem_cons, List.forall_mem_singleton] at hc
  have hfile : now'.file? p = now.file? p := by
    rw [(ho.file? hp).1, (h.still.file? hp).1, hc.1]
  have hbackup : now'.file? (ofFile p b.settings) = now.file? (ofFile p b.settings) := by
    rw [(ho.file? hp).2, (h.still.file? hp).2, hc.2]
  exact ⟨ho, hfile ▸ h.kept, h.first, hbackup ▸ h.last⟩

theorem Backed.of_changed {saves : List Saving} {now : Tree} (h : Backed b t p saves now)
    (hc : now.file? p ≠ t.file? p) :
    ∃ save ∈ saves.getLast?, now.file? (ofFile p b.settings) = save.before.file? p ∧
      (saves = [save] → save.before.file? p = t.file? p) := by
  cases hlast : saves.getLast? with
  | none => exact absurd (h.kept (List.getLast?_eq_none_iff.1 hlast)) hc
  | some save =>
    refine ⟨save, rfl, h.last save hlast, fun hone => ?_⟩
    exact h.first save (by rw [hone]; rfl)

section
variable (hb : b.makeBackups = true) (hp : Possible b t p)
include hb hp

theorem Backed.carryOut {o : PatchOptions} (ho : o.testing = false) {now : Progress}
    (h : Backed b t p (savingsAt t p done) now.site.tree) {run : Run}
    (hs : ∀ saving ∈ run.saving? b o now.site, Spares b t p saving.path) :
    Backed b t p (savingsAt t p (done ++ (run.saving? b o now.site).toList))
      (run.carryOut b o now).site.tree := by
  rw [savingsAt_append]
  unfold Run.saving? at hs ⊢
  cases hstores : run.stores b o now.site with
  | false =>
    obtain ⟨hopen, hsame⟩ := Run.carryOut_spares (b := b) (o := o) ho h.still
      fun hs : run.stores b o now.site = true => by simp [hstores] at hs
    simpa [savingsAt] using h.spare hp hopen hsame
  | true =>
    have hspares : Spares b t p run.file.path := hs ⟨_, _⟩ (by rw [hstores]; rfl)
    by_cases hq : t.lexicalPlace run.file.path = t.lexicalPlace p
    · obtain ⟨hopen, hcopied⟩ := Run.carryOut_backs hb ho hspares h.still hstores hq
      simpa [savingsAt, hq] using h.store hp hopen hcopied run.file.path
    · obtain ⟨hopen, hsame⟩ := Run.carryOut_spares (b := b) (o := o) ho h.still
        fun _ => ⟨hspares, hq⟩
      simpa [savingsAt, hq] using h.spare hp hopen hsame

theorem Backed.perform {o : PatchOptions} (ho : o.testing = false) {patch : Patch} {start : Tree}
    {task : Task}
    (ht : task ∈ patch.tasks b start) {now : Progress}
    (h : Backed b t p (savingsAt t p done) now.site.tree)
    (hs : ∀ saving ∈ task.saving? b o now.site, Spares b t p saving.path) :
    Backed b t p (savingsAt t p (done ++ (task.saving? b o now.site).toList))
      (Patch.perform b o now task).site.tree := by
  unfold Task.saving? at hs ⊢
  cases hr : task.run? with
  | none =>
    obtain ⟨new, hnew, -⟩ := perform_of_no_run (o := o) ht hr now
    rw [hnew, Option.bind_none, Option.toList_none, List.append_nil]
    exact h
  | some run =>
    rw [hr] at hs
    rw [perform_eq_carryOut ht hr]
    exact h.carryOut hb hp ho hs

theorem Backed.foldl_perform {o : PatchOptions} (ho : o.testing = false) {patch : Patch}
    {start : Tree} {tasks : List Task}
    (ht : ∀ task ∈ tasks, task ∈ patch.tasks b start) {now : Progress}
    (h : Backed b t p (savingsAt t p done) now.site.tree)
    (hs : ∀ saving ∈ savingsOf b o tasks now, Spares b t p saving.path) :
    Backed b t p (savingsAt t p (done ++ savingsOf b o tasks now))
      (tasks.foldl (Patch.perform b o) now).site.tree := by
  induction tasks generalizing done now with
  | nil => simpa [savingsOf] using h
  | cons task tasks ih =>
    -- The saves so far are carried along, and those of the first task are added to them.
    unfold savingsOf at hs ⊢
    rw [List.forall_mem_append] at hs
    have hfirst := h.perform hb hp ho (ht task (List.mem_cons_self ..)) (by simpa using hs.1)
    have hrest := ih (fun other hm => ht other (List.mem_cons_of_mem _ hm)) hfirst hs.2
    rwa [List.append_assoc] at hrest

theorem Backed.apply {s : Site} (h : Backed b t p (savingsAt t p done) s.tree) {turn : Turn}
    (hs : ∀ saving ∈ turn.savings b s, Spares b t p saving.path) :
    Backed b t p (savingsAt t p (done ++ turn.savings b s)) (turn.apply b s).tree := by
  have hopening : Backed b t p (savingsAt t p done) (turn.patch.opening b s).site.tree := by
    rwa [site_opening]
  unfold Turn.apply
  rw [applyTo_eq_foldl]
  exact hopening.foldl_perform hb hp rfl (fun _ => id) hs

theorem Backed.applyAll {turns : List Turn} {s : Site}
    (h : Backed b t p (savingsAt t p done) s.tree)
    (hs : ∀ saving ∈ savings b turns s, Spares b t p saving.path) :
    Backed b t p (savingsAt t p (done ++ savings b turns s)) (Patch.applyAll b turns s).tree := by
  induction turns generalizing done s with
  | nil =>
    rw [savings, List.append_nil]
    exact h
  | cons turn turns ih =>
    unfold savings at hs ⊢
    rw [List.forall_mem_append] at hs
    rw [← List.append_assoc]
    exact ih (h.apply hb hp hs.1) hs.2

end

end

/-- When some patches have changed a file, its backup holds what the file held before they stored it
for the last time. That is what it held at the start if they stored it only once. -/
theorem backup_of_changed {b : Board} (hb : b.makeBackups = true) {turns : List Turn} {s : Site}
    {p : Path} (hp : Possible b s.tree p)
    (hs : ∀ saving ∈ savings b turns s, Spares b s.tree p saving.path)
    (hc : (applyAll b turns s).tree.file? p ≠ s.tree.file? p) :
    ∃ save ∈ (savingsAt s.tree p (savings b turns s)).getLast?,
      (applyAll b turns s).tree.file? (ofFile p b.settings) = save.before.file? p ∧
        (savingsAt s.tree p (savings b turns s) = [save] →
          save.before.file? p = s.tree.file? p) := by
  have hstart : Backed b s.tree p (savingsAt s.tree p []) s.tree := .start hp
  exact (hstart.applyAll hb hp hs).of_changed hc

def editOf (name add search : String) : Toml :=
  .table [("name", .string name),
    ("operation", .array [Modification.replaceWith add search])]

def twoFileSite : Site :=
  ⟨⟨[(["f"], .file (.text "a") 0o644), (["g"], .file (.text "x") 0o644)], []⟩, .byMode⟩

def interleavedPatch : Patch :=
  patchOf [editOf "/f" "b" "a", editOf "/g" "y" "x", editOf "/f" "c" "b"]

def interleavedTurns : List Turn := [⟨interleavedPatch, false⟩]

theorem backup_of_changed_once :
    Possible plainBoard twoFileSite.tree ⟨"/g"⟩ ∧
      (applyAll plainBoard interleavedTurns twoFileSite).tree.file? ⟨"/g"⟩ = some (.text "y") ∧
      (applyAll plainBoard interleavedTurns twoFileSite).tree.file?
        (ofFile ⟨"/g"⟩ plainBoard.settings) = some (.text "x") := by
  have hp : Possible plainBoard twoFileSite.tree ⟨"/g"⟩ := by decide
  have hs : ∀ saving ∈ savings plainBoard interleavedTurns twoFileSite,
      Spares plainBoard twoFileSite.tree ⟨"/g"⟩ saving.path := by decide +kernel
  have hbefore : twoFileSite.tree.file? ⟨"/g"⟩ = some (.text "x") := by decide
  have hafter : (applyAll plainBoard interleavedTurns twoFileSite).tree.file? ⟨"/g"⟩ =
      some (.text "y") := by decide +kernel
  have hc : (applyAll plainBoard interleavedTurns twoFileSite).tree.file? ⟨"/g"⟩ ≠
      twoFileSite.tree.file? ⟨"/g"⟩ := by
    rw [hbefore, hafter]
    decide
  obtain ⟨save, hsave, hbackup, honce⟩ := backup_of_changed rfl hp hs hc
  have hlength : (savingsAt twoFileSite.tree ⟨"/g"⟩
      (savings plainBoard interleavedTurns twoFileSite)).length = 1 := by decide +kernel
  obtain ⟨only, honly⟩ := List.length_eq_one_iff.1 hlength
  rw [honly] at hsave honce
  have hsame : [only] = [save] := by simpa using hsave
  exact ⟨hp, hafter, hbackup.trans ((honce hsame).trans hbefore)⟩

/-- The backup of the file that is saved twice holds what only stood there in between. -/
theorem backup_of_changed_twice :
    plainBoard.makeBackups = true ∧ Possible plainBoard twoFileSite.tree ⟨"/f"⟩ ∧
      (∀ saving ∈ savings plainBoard interleavedTurns twoFileSite,
        Spares plainBoard twoFileSite.tree ⟨"/f"⟩ saving.path) ∧
      (interleavedPatch.applyTo plainBoard ⟨false, false⟩ twoFileSite).report.everythingFound =
        true ∧
      twoFileSite.tree.file? ⟨"/f"⟩ = some (.text "a") ∧
      (applyAll plainBoard interleavedTurns twoFileSite).tree.file? ⟨"/f"⟩ = some (.text "c") ∧
      (applyAll plainBoard interleavedTurns twoFileSite).tree.file?
        (ofFile ⟨"/f"⟩ plainBoard.settings) = some (.text "b") := by
  exact ⟨rfl, by decide, by decide +kernel, by decide +kernel, by decide, by decide +kernel,
    by decide +kernel⟩

end Patch

end Patchboard
