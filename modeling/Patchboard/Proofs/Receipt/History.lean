import Mathlib.Data.Finset.Card
import Mathlib.Data.String.Basic
import Patchboard.Proofs.Receipt.Recording

set_option autoImplicit false

namespace Patchboard.History
open Path Tree StateLayout

variable {l : StateLayout} {base t t' : Tree} {rs : List Receipt}

theorem Kept.lexicalPlace (h : Kept l base rs t) :
    t.lexicalPlace l.receipts = base.lexicalPlace l.receipts :=
  lexicalPlace_congr h.working l.receipts

theorem Kept.find (h : Kept l base rs t) {file : String} (hn : IsName file)
    (hf : Fits l.receipts file) : t.find (l.receipts.join ⟨file⟩) =
      match lastIn? rs file with
      | none => .error .notFound
      | some r => .ok (base.lexicalPlace l.receipts ++ [file],
          .file (.text r.render) modeOfNewFile) := by
  rcases h.reach with hd | ⟨rfl, ha⟩
  · obtain ⟨place, mode, hl, hplace⟩ := isDirectory_iff.1 hd
    have hjoined := locate_join hn hf hl hplace
    rw [locate_ok hl, h.lexicalPlace] at hjoined
    unfold Tree.find
    rw [hjoined]
    dsimp only
    rw [h.files, endsInSeparator_join hn]
    cases lastIn? rs file <;> rfl
  · exact find_eq_notFound.2 (.inl (locate_join_of_absent hn hf (text_receipts l) ha))

theorem Kept.text? (h : Kept l base rs t) {file : String} (hn : IsName file)
    (hf : Fits l.receipts file) : t.text? (l.receipts.join ⟨file⟩) =
      match lastIn? rs file with
      | none => .error .notFound
      | some r => .ok r.render := by
  unfold Tree.text? contents?
  rw [h.find hn hf]
  cases lastIn? rs file <;> rfl

def lookupResult (l : StateLayout) (package : String) : Option Receipt →
    Except Failure (Option Receipt)
  | none => .ok none
  | some r => ((Receipt.parse r.render).mapError
      (Failure.within ("failed to parse receipt: " ++ (l.receipt package).text))).map
        fun r => (some r).filter fun r => r.state = .installed

theorem run_parseAt (p : Path) (raw : String) (t : Tree) :
    (parseAt p raw).run.run t = ((Receipt.parse raw).mapError
      (Failure.within ("failed to parse receipt: " ++ p.text)), t) := by
  unfold parseAt Job.doing Job.ofExcept
  rw [run_adapt]
  cases Receipt.parse raw <;> rfl

theorem Kept.run_lookup (h : Kept l base rs t) {package : String}
    (hf : Fits l.receipts (receiptFile package)) : (lookup l package).run.run t =
      (lookupResult l package (lastIn? rs (receiptFile package)), t) := by
  have htext := h.text? (isName_receiptFile package) hf
  rw [← receipt_eq] at htext
  unfold lookup read?
  rw [run_bind, run_bind, run_get]
  dsimp only
  rw [htext]
  cases lastIn? rs (receiptFile package) with
  | none => rfl
  | some r =>
    dsimp only
    rw [run_bind, run_parseAt]
    dsimp only [lookupResult]
    cases Receipt.parse r.render <;> rfl

section
variable {α β : Type} {g : α → Except Failure β} {as : List α}

theorem run_mapM {f : α → Job β} (h : ∀ a ∈ as, (f a).run.run t = (g a, t)) :
    (as.mapM f).run.run t = (as.mapM g, t) := by
  induction as with
  | nil => rfl
  | cons a as ih =>
    rw [List.mapM_cons, List.mapM_cons, run_bind, h a (List.mem_cons_self ..)]
    cases g a with
    | error e => rfl
    | ok b =>
      dsimp only
      rw [run_bind, ih fun other ho => h other (List.mem_cons_of_mem _ ho)]
      cases as.mapM g <;> rfl

theorem mapM_eq_ok {bs : List β} :
    as.mapM g = .ok bs ↔ List.Forall₂ (fun a b => g a = .ok b) as bs := by
  induction as generalizing bs with
  | nil => cases bs <;> simp [pure, Except.pure]
  | cons a as ih =>
    rw [List.mapM_cons]
    cases bs with
    | nil =>
      cases g a with
      | error e => simp [bind, Except.bind]
      | ok b => cases as.mapM g <;> simp [bind, Except.bind, pure, Except.pure]
    | cons b' bs =>
      rw [List.forall₂_cons, ← ih]
      cases g a with
      | error e => simp [bind, Except.bind]
      | ok b => cases as.mapM g <;> simp [bind, Except.bind, pure, Except.pure]

end

theorem Kept.isReceipt (h : Kept l base rs t) {r : Receipt} (hr : r ∈ rs) :
    isReceipt t (l.receipts.join ⟨receiptFile r.package⟩) = decide (r.package ≠ "") := by
  obtain ⟨last, hlast⟩ := Option.isSome_iff_exists.1 (isSome_lastIn? hr)
  have hn := isName_receiptFile r.package
  have hfile : t.isFile (l.receipts.join ⟨receiptFile r.package⟩) = true := by
    unfold Tree.isFile find?
    rw [h.find hn (h.fits r hr), hlast]
    rfl
  unfold History.isReceipt Path.extension?
  rw [hfile, fileName?_join hn, Option.bind_some, Bool.true_and]
  by_cases he : r.package = ""
  · rw [he, splitName_receiptFile_empty]
    simp
  · rw [splitName_receiptFile he]
    simp [he]

/-- The files that receipts are read from: those of the packages whose id is not empty, since a
file without a stem has no extension. -/
structure Files (rs : List Receipt) (files : List String) : Prop where
  once : files.Nodup
  mem : ∀ file, file ∈ files ↔ ∃ r ∈ rs, receiptFile r.package = file ∧ r.package ≠ ""

def Reads (rs : List Receipt) (file : String) (read : Receipt) : Prop :=
  ∃ r, lastIn? rs file = some r ∧ Receipt.parse r.render = .ok read

theorem run_readAt (p : Path) (t : Tree) :
    (readAt p).run.run t = (((readAt p).run.run t).1, t) := by
  unfold readAt
  rw [run_bind, run_on, readText, run_ask]
  cases t.text? p with
  | error e => rfl
  | ok raw =>
    dsimp only [Except.mapError]
    rw [run_parseAt]

theorem Kept.readAt_eq_ok (h : Kept l base rs t) {file : String} (hn : IsName file)
    (hf : Fits l.receipts file) (read : Receipt) :
    ((readAt (l.receipts.join ⟨file⟩)).run.run t).1 = .ok read ↔ Reads rs file read := by
  unfold readAt Reads
  rw [run_bind, run_on, readText, run_ask, h.text? hn hf]
  cases lastIn? rs file with
  | none => simp [Except.mapError]
  | some r =>
    dsimp only [Except.mapError]
    rw [run_parseAt]
    cases hp : Receipt.parse r.render <;> simp [Except.mapError, hp]

def byPackage (receipts : List Receipt) : List Receipt :=
  receipts.mergeSort fun a b => compare a.package b.package != .gt

def listedFiles (l : StateLayout) (t : Tree) : List String :=
  (t.names (t.lexicalPlace l.receipts)).filter fun file =>
    isReceipt t (l.receipts.join ⟨file⟩)

theorem Kept.listedFiles (h : Kept l base rs t) : Files rs (listedFiles l t) := by
  unfold History.listedFiles
  rw [h.lexicalPlace]
  refine ⟨(nodup_names h.keyed _).filter _, fun file => ?_⟩
  rw [List.mem_filter, mem_names, h.files, Option.isSome_map]
  constructor
  · rintro ⟨hs, hr⟩
    obtain ⟨r, hr'⟩ := Option.isSome_iff_exists.1 hs
    obtain ⟨hmem, rfl⟩ := mem_of_lastIn? hr'
    rw [h.isReceipt hmem] at hr
    exact ⟨r, hmem, rfl, of_decide_eq_true hr⟩
  · rintro ⟨r, hmem, rfl, hne⟩
    exact ⟨isSome_lastIn? hmem, by rw [h.isReceipt hmem]; exact decide_eq_true hne⟩

theorem Kept.mapM_readAt (h : Kept l base rs t) (receipts : List Receipt) :
    (((History.listedFiles l t).map fun file => l.receipts.join ⟨file⟩).mapM fun p =>
        ((readAt p).run.run t).1) = .ok receipts ↔
      List.Forall₂ (Reads rs) (History.listedFiles l t) receipts := by
  have hread : ∀ file ∈ History.listedFiles l t, ∀ read,
      ((readAt (l.receipts.join ⟨file⟩)).run.run t).1 = .ok read ↔ Reads rs file read := by
    intro file hfile read
    obtain ⟨r, hr, rfl, -⟩ := (h.listedFiles.mem file).1 hfile
    exact h.readAt_eq_ok (isName_receiptFile r.package) (h.fits r hr) read
  rw [mapM_eq_ok, List.forall₂_map_left_iff]
  constructor <;> intro hall
  · exact ((List.forall₂_and_left ..).2 ⟨fun _ => id, hall⟩).imp fun file read hc =>
      (hread file hc.1 read).1 hc.2
  · exact ((List.forall₂_and_left ..).2 ⟨fun _ => id, hall⟩).imp fun file read hc =>
      (hread file hc.1 read).2 hc.2

theorem Kept.entries_eq_ok (h : Kept l base rs t) (listed : List Receipt) :
    ((entries l).run.run t).1 = .ok listed ↔ ∃ receipts,
      List.Forall₂ (Reads rs) (History.listedFiles l t) receipts ∧ byPackage receipts = listed := by
  rcases h.reach with hd | ⟨rfl, ha⟩
  · obtain ⟨mode, hfind⟩ := find_of_isDirectory hd
    have hexists : t.pathExists l.receipts = true := by
      simp [pathExists, find?, hfind, Except.toOption]
    have hlist : (Job.on "failed to read history directory: " l.receipts
        (listDirectory l.receipts)).run.run t =
          (.ok (t.names (t.lexicalPlace l.receipts)), t) :=
      run_on_eq_ok.2 (by rw [listDirectory, run_ask, hfind])
    have hfiles : ((t.names (t.lexicalPlace l.receipts)).map fun name =>
        l.receipts.join ⟨name⟩).filter (History.isReceipt t) =
          (History.listedFiles l t).map fun file => l.receipts.join ⟨file⟩ := List.filter_map
    unfold entries
    rw [run_bind, run_get]
    dsimp only
    rw [if_pos hexists, run_bind, hlist]
    dsimp only
    rw [run_bind, run_get]
    dsimp only
    rw [run_bind, run_mapM fun p _ => run_readAt p t, hfiles]
    simp only [← h.mapM_readAt]
    cases ((History.listedFiles l t).map fun file => l.receipts.join ⟨file⟩).mapM fun p =>
        ((readAt p).run.run t).1 with
    | error e => simp
    | ok receipts =>
      dsimp only
      rw [run_pure]
      simp [byPackage]
  · have hexists : t.pathExists l.receipts = false := by
      simp [pathExists, find?, ha, Except.toOption]
    have hnone : History.listedFiles l t = [] := by
      refine List.eq_nil_iff_forall_not_mem.2 fun file hfile => ?_
      obtain ⟨r, hr, -⟩ := (h.listedFiles.mem file).1 hfile
      cases hr
    unfold entries
    rw [run_bind, run_get]
    dsimp only
    rw [if_neg (by simp [hexists]), hnone, run_pure]
    simp [byPackage, eq_comm]

theorem byPackage_perm (receipts : List Receipt) : (byPackage receipts).Perm receipts :=
  List.mergeSort_perm ..

theorem pairwise_byPackage {receipts : List Receipt}
    (h : receipts.Pairwise fun a b => a.package ≠ b.package) :
    (byPackage receipts).Pairwise fun a b => a.package < b.package := by
  have hsorted : (byPackage receipts).Pairwise fun a b =>
      (compare a.package b.package != .gt) = true := by
    refine List.pairwise_mergeSort (fun a b c => ?_) (fun a b => ?_) receipts
    · simp only [bne_iff_ne, ← Ordering.isLE_iff_ne_gt]
      exact Std.TransCmp.isLE_trans
    · have hswap : compare b.package a.package = (compare a.package b.package).swap :=
        Std.OrientedCmp.eq_swap
      rw [hswap]
      cases compare a.package b.package <;> rfl
  have hdistinct := ((byPackage_perm receipts).pairwise_iff fun hne => Ne.symm hne).2 h
  refine (hsorted.and hdistinct).imp fun {a b} hc => compare_lt_iff_lt.1 ?_
  cases ho : compare a.package b.package with
  | lt => rfl
  | eq => exact absurd (Std.compare_eq_iff_eq.1 ho) hc.2
  | gt => rw [ho] at hc; exact absurd hc.1 (by decide)

/-- The listing holds the last receipt of each package, once, in the order of the ids. -/
def ListsLast (l : StateLayout) (rs : List Receipt) (t : Tree) : Prop :=
  ∃ listed, ((entries l).run.run t).1 = .ok listed ∧
    listed.Pairwise (fun a b => a.package < b.package) ∧
    ∀ r, r ∈ listed ↔ last? rs r.package = some r

/-- The lookup of a package gives its last receipt if that says that it is installed. -/
def FindsLast (l : StateLayout) (rs : List Receipt) (t : Tree) (package : String) : Prop :=
  ((lookup l package).run.run t).1 =
    .ok ((last? rs package).filter fun r => r.state = .installed)

/-- Receipts that can be told apart on disk and read back: different ids have different file names,
no id is empty, and the last receipt of each package has only fields that survive as lines. -/
structure Legible (rs : List Receipt) : Prop where
  separate : ∀ a ∈ rs, ∀ b ∈ rs, fileStem a.package = fileStem b.package → a.package = b.package
  named : ∀ r ∈ rs, r.package ≠ ""
  plain : ∀ r ∈ rs, last? rs r.package = some r → r.Plain

/-- No other package that is installed goes by the file name of this one. -/
def Unmasked (rs : List Receipt) (package : String) : Prop :=
  ∀ r ∈ rs, last? rs r.package = some r → fileStem r.package = fileStem package →
    r.state = .installed → r.package = package

instance (rs : List Receipt) : Decidable (Legible rs) :=
  decidable_of_iff ((∀ a ∈ rs, ∀ b ∈ rs,
        fileStem a.package = fileStem b.package → a.package = b.package) ∧
      (∀ r ∈ rs, r.package ≠ "") ∧ ∀ r ∈ rs, last? rs r.package = some r → r.Plain)
    ⟨fun h => ⟨h.1, h.2.1, h.2.2⟩, fun h => ⟨h.separate, h.named, h.plain⟩⟩

instance (rs : List Receipt) (package : String) : Decidable (Unmasked rs package) :=
  inferInstanceAs (Decidable (∀ r ∈ rs, _ → _ → _ → _))

theorem find?_of_imp {α : Type} {as : List α} {p q : α → Bool} {a : α} (h : as.find? p = some a)
    (hq : q a = true) (hi : ∀ b ∈ as, q b = true → p b = true) : as.find? q = some a := by
  obtain ⟨-, before, rest, rfl, hbefore⟩ := List.find?_eq_some_iff_append.1 h
  refine List.find?_eq_some_iff_append.2 ⟨hq, before, rest, rfl, fun b hb => ?_⟩
  have hpb := hbefore b hb
  cases hqb : q b with
  | false => rfl
  | true => simp [hi b (List.mem_append_left _ hb) hqb] at hpb

theorem last?_of_lastIn? {file : String} {r : Receipt} (h : lastIn? rs file = some r) :
    last? rs r.package = some r := by
  obtain ⟨-, hfile⟩ := mem_of_lastIn? h
  refine find?_of_imp h (by simp) fun other _ ho => ?_
  rw [of_decide_eq_true ho, hfile]
  exact decide_eq_true rfl

theorem stem_ne_of_lastIn? {package : String} (h : lastIn? rs (receiptFile package) = none)
    {r : Receipt} (hr : r ∈ rs) : fileStem r.package ≠ fileStem package := by
  intro he
  have hsome := isSome_lastIn? hr
  rw [receiptFile_inj.2 he, h] at hsome
  cases hsome

theorem last?_eq_none_of_lastIn? {package : String} (h : lastIn? rs (receiptFile package) = none) :
    last? rs package = none := by
  cases hlast : last? rs package with
  | none => rfl
  | some r =>
    obtain ⟨hr, rfl⟩ := mem_of_last? hlast
    exact absurd rfl (stem_ne_of_lastIn? h hr)

section
variable (hl : Legible rs)
include hl

theorem lastIn?_of_last? {r : Receipt} (h : last? rs r.package = some r) :
    lastIn? rs (receiptFile r.package) = some r := by
  obtain ⟨hr, -⟩ := mem_of_last? h
  refine find?_of_imp h (by simp) fun other ho hfile => decide_eq_true ?_
  exact hl.separate other (List.mem_reverse.1 ho) r hr
    (receiptFile_inj.1 (of_decide_eq_true hfile))

theorem last?_eq_none_of_masked {package : String} {r : Receipt}
    (h : lastIn? rs (receiptFile package) = some r) (hne : r.package ≠ package) :
    last? rs package = none := by
  obtain ⟨hr, hfile⟩ := mem_of_lastIn? h
  cases hlast : last? rs package with
  | none => rfl
  | some other =>
    obtain ⟨hother, rfl⟩ := mem_of_last? hlast
    exact absurd (hl.separate r hr other hother (receiptFile_inj.1 hfile)) hne

theorem parse_of_lastIn? (hs : ∀ r ∈ rs, r.Sized) {file : String} {r : Receipt}
    (h : lastIn? rs file = some r) : Receipt.parse r.render = .ok r := by
  obtain ⟨hr, -⟩ := mem_of_lastIn? h
  exact Receipt.parse_of_plain (hl.plain r hr (last?_of_lastIn? h)) (hs r hr)

theorem Kept.listsLast (hs : ∀ r ∈ rs, r.Sized) (h : Kept l base rs t) : ListsLast l rs t := by
  let receipts := (History.listedFiles l t).map fun file => (lastIn? rs file).getD default
  have hstored : ∀ file ∈ History.listedFiles l t, ∃ r, lastIn? rs file = some r ∧
      receiptFile r.package = file := by
    intro file hfile
    obtain ⟨r, hr, rfl, -⟩ := (h.listedFiles.mem file).1 hfile
    obtain ⟨last, hlast⟩ := Option.isSome_iff_exists.1 (isSome_lastIn? hr)
    exact ⟨last, hlast, (mem_of_lastIn? hlast).2⟩
  have hreads : List.Forall₂ (Reads rs) (History.listedFiles l t) receipts := by
    refine List.forall₂_map_right_iff.2 (List.forall₂_same.2 fun file hfile => ?_)
    obtain ⟨r, hr, -⟩ := hstored file hfile
    rw [hr, Option.getD_some]
    exact ⟨r, hr, parse_of_lastIn? hl hs hr⟩
  have hdistinct : receipts.Pairwise fun a b => a.package ≠ b.package := by
    refine List.pairwise_map.2 (h.listedFiles.once.imp_of_mem fun {a b} ha hb hne hp => hne ?_)
    obtain ⟨r, hr, rfl⟩ := hstored a ha
    obtain ⟨r', hr', rfl⟩ := hstored b hb
    rw [hr, hr', Option.getD_some, Option.getD_some] at hp
    rw [hp]
  refine ⟨byPackage receipts, (h.entries_eq_ok _).2 ⟨receipts, hreads, rfl⟩,
    pairwise_byPackage hdistinct, fun r => ?_⟩
  rw [(byPackage_perm receipts).mem_iff, List.mem_map]
  constructor
  · rintro ⟨file, hfile, rfl⟩
    obtain ⟨r, hr, -⟩ := hstored file hfile
    rw [hr, Option.getD_some]
    exact last?_of_lastIn? hr
  · intro hlast
    obtain ⟨hr, -⟩ := mem_of_last? hlast
    refine ⟨receiptFile r.package, (h.listedFiles.mem _).2 ⟨r, hr, rfl, hl.named r hr⟩, ?_⟩
    rw [lastIn?_of_last? hl hlast, Option.getD_some]

theorem Kept.findsLast_iff (hs : ∀ r ∈ rs, r.Sized) (h : Kept l base rs t) {package : String}
    (hf : Fits l.receipts (receiptFile package)) :
    FindsLast l rs t package ↔ Unmasked rs package := by
  unfold FindsLast
  rw [h.run_lookup hf]
  cases hin : lastIn? rs (receiptFile package) with
  | none =>
    rw [last?_eq_none_of_lastIn? hin]
    exact iff_of_true rfl fun r hr _ he => absurd he (stem_ne_of_lastIn? hin hr)
  | some r =>
    obtain ⟨hr, hfile⟩ := mem_of_lastIn? hin
    have hlast := last?_of_lastIn? hin
    have hstem := receiptFile_inj.1 hfile
    have hresult : lookupResult l package (some r) =
        .ok ((some r).filter fun r => r.state = .installed) := by
      dsimp only [lookupResult]
      rw [parse_of_lastIn? hl hs hin]
      rfl
    dsimp only
    rw [hresult]
    by_cases hp : r.package = package
    · rw [← hp, hlast]
      refine iff_of_true rfl fun other ho _ he _ => ?_
      exact hl.separate other ho r hr he
    · rw [last?_eq_none_of_masked hl hin hp]
      constructor
      · intro heq other ho hother he hi
        obtain rfl : other = r := by
          have hsame := hl.separate other ho r hr (he.trans hstem.symm)
          rw [hsame, hlast] at hother
          exact (Option.some.inj hother).symm
        simp [Option.filter, hi] at heq
      · intro hu
        have hstate : r.state ≠ .installed := fun hi => hp (hu r hr hlast hstem hi)
        simp [Option.filter, hstate]

end

def recordedIds (rs : List Receipt) : Finset String := (rs.map (·.package)).toFinset

theorem mem_recordedIds {r : Receipt} (h : r ∈ rs) : r.package ∈ recordedIds rs :=
  List.mem_toFinset.2 (List.mem_map_of_mem h)

theorem Kept.toFinset_listedFiles (h : Kept l base rs t) :
    (History.listedFiles l t).toFinset =
      ((recordedIds rs).filter fun id => id ≠ "").image receiptFile := by
  ext file
  simp only [recordedIds, List.mem_toFinset, h.listedFiles.mem, Finset.mem_image, Finset.mem_filter,
    List.mem_map]
  constructor
  · rintro ⟨r, hr, hf, hne⟩
    exact ⟨r.package, ⟨⟨r, hr, rfl⟩, hne⟩, hf⟩
  · rintro ⟨id, ⟨⟨r, hr, rfl⟩, hne⟩, hf⟩
    exact ⟨r, hr, hf, hne⟩

theorem length_of_last {listed : List Receipt}
    (hsorted : listed.Pairwise fun a b => a.package < b.package)
    (hmem : ∀ r, r ∈ listed ↔ last? rs r.package = some r) :
    listed.length = (recordedIds rs).card := by
  have hids : (listed.map (·.package)).toFinset = recordedIds rs := by
    ext id
    simp only [recordedIds, List.mem_toFinset, List.mem_map]
    constructor
    · rintro ⟨r, hr, rfl⟩
      exact ⟨r, (mem_of_last? ((hmem r).1 hr)).1, rfl⟩
    · rintro ⟨r, hr, rfl⟩
      obtain ⟨last, hlast⟩ := Option.isSome_iff_exists.1 (isSome_last? hr)
      have hp := (mem_of_last? hlast).2
      exact ⟨last, (hmem last).2 (hp ▸ hlast), hp⟩
  rw [← hids, List.toFinset_card_of_nodup, List.length_map]
  exact List.pairwise_map.2 (hsorted.imp fun hlt => ne_of_lt hlt)

/-- What the listing shows in full can be told apart and read back. There are no more files than
file names, and no more file names than ids; so when every id is listed, both are as many. -/
theorem Kept.legible (h : Kept l base rs t) (hl : ListsLast l rs t) : Legible rs := by
  obtain ⟨listed, hentries, hsorted, hmem⟩ := hl
  obtain ⟨receipts, hreads, rfl⟩ := (h.entries_eq_ok listed).1 hentries
  have hcount : (History.listedFiles l t).toFinset.card = (recordedIds rs).card := by
    rw [List.toFinset_card_of_nodup h.listedFiles.once, hreads.length_eq,
      ← (byPackage_perm receipts).length_eq, length_of_last hsorted hmem]
  rw [h.toFinset_listedFiles] at hcount
  have himage := Finset.card_image_le (s := (recordedIds rs).filter fun id => id ≠ "")
    (f := receiptFile)
  have hfilter := Finset.card_filter_le (recordedIds rs) fun id => id ≠ ""
  have hnamed := Finset.card_filter_eq_iff.1
    (by omega : ((recordedIds rs).filter fun id => id ≠ "").card = _)
  have hinj := Finset.card_image_iff.1
    (by omega : (((recordedIds rs).filter fun id => id ≠ "").image receiptFile).card = _)
  have hin {r : Receipt} (hr : r ∈ rs) : r.package ∈ (recordedIds rs).filter fun id => id ≠ "" :=
    Finset.mem_filter.2 ⟨mem_recordedIds hr, hnamed _ (mem_recordedIds hr)⟩
  refine ⟨fun a ha b hb hs => ?_, fun r hr => (Finset.mem_filter.1 (hin hr)).2,
    fun r hr hlast => ?_⟩
  · exact hinj (Finset.mem_coe.2 (hin ha)) (Finset.mem_coe.2 (hin hb)) (receiptFile_inj.2 hs)
  · have hr' := (byPackage_perm receipts).mem_iff.1 ((hmem r).2 hlast)
    obtain ⟨i, hi, rfl⟩ := List.mem_iff_getElem.1 hr'
    obtain ⟨stored, -, hparse⟩ := (List.forall₂_iff_get.1 hreads).2 i (hreads.length_eq ▸ hi) hi
    exact Receipt.plain_of_parse hparse

/-- The receipts form a map from ids to what was last recorded exactly when they are legible, and
then a lookup is misled exactly by a package that is installed under the same file name. -/
theorem lists_and_finds_last (hb : Blank l t) (hs : ∀ r ∈ rs, r.Sized)
    (h : (recordAll l rs).run.run t = (.ok (), t')) :
    (ListsLast l rs t' ↔ Legible rs) ∧
      (Legible rs → ∀ package, Fits l.receipts (receiptFile package) →
        (FindsLast l rs t' package ↔ Unmasked rs package)) := by
  have hkept := kept_of_recordAll hb h
  exact ⟨⟨hkept.legible, fun hl => hkept.listsLast hl hs⟩,
    fun hl package hf => hkept.findsLast_iff hl hs hf⟩

/-- Two packages, one of them recorded twice, and the lookup of a third one. -/
theorem lists_and_finds_last_pair : ∃ rs t',
    rs = [⟨"a:b", "A b", "1", [1], ["x=1.php"], .installed, 5⟩,
      ⟨"c", "C", "2", [], [], .installed, 6⟩, ⟨"a:b", "A b", "1", [1], [], .uninstalled, 7⟩] ∧
    (recordAll ⟨⟨"/s"⟩⟩ rs).run.run ⟨[], []⟩ = (.ok (), t') ∧ ListsLast ⟨⟨"/s"⟩⟩ rs t' ∧
    FindsLast ⟨⟨"/s"⟩⟩ rs t' "c" ∧ FindsLast ⟨⟨"/s"⟩⟩ rs t' "a_b" := by
  obtain ⟨rs, hrs⟩ : ∃ rs : List Receipt, rs =
      [⟨"a:b", "A b", "1", [1], ["x=1.php"], .installed, 5⟩,
        ⟨"c", "C", "2", [], [], .installed, 6⟩,
        ⟨"a:b", "A b", "1", [1], [], .uninstalled, 7⟩] := ⟨_, rfl⟩
  have hblank : Blank ⟨⟨"/s"⟩⟩ ⟨[], []⟩ := by decide +kernel
  have hsized : ∀ r ∈ rs, r.Sized := by subst hrs; decide
  have hlegible : Legible rs := by subst hrs; decide +kernel
  obtain ⟨t', hrun⟩ : ∃ t', (recordAll ⟨⟨"/s"⟩⟩ rs).run.run ⟨[], []⟩ = (.ok (), t') :=
    ⟨_, Prod.fst_eq_iff.1 (by subst hrs; decide +kernel)⟩
  obtain ⟨hlists, hfinds⟩ := lists_and_finds_last hblank hsized hrun
  refine ⟨rs, t', hrs, hrun, hlists.2 hlegible,
    (hfinds hlegible "c" (by decide +kernel)).2 ?_,
    (hfinds hlegible "a_b" (by decide +kernel)).2 ?_⟩ <;> subst hrs <;> decide +kernel

/-- A package that was never recorded is found in the file of another one. -/
theorem lookup_masked :
    let l : StateLayout := ⟨⟨"/s"⟩⟩
    let rs : List Receipt := [⟨"a:b", "A b", "1", [], [], .installed, 5⟩]
    let ran := (recordAll l rs).run.run ⟨[], []⟩
    Blank l ⟨[], []⟩ ∧ (∀ r ∈ rs, r.Sized) ∧ ran.1 = .ok () ∧ last? rs "a_b" = none ∧
      ((lookup l "a_b").run.run ran.2).1 = .ok rs.head? := by
  decide +kernel

end Patchboard.History
