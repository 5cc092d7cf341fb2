import Patchboard.Proofs.Tree.Copying

set_option autoImplicit false

namespace Patchboard.Tree
open Path

variable {t t' made : Tree} {source target p : Path} {place : Place}

/-- Whatever stands in a tree stands in a directory, under a name. -/
structure Regular (t : Tree) : Prop where
  closed : t.Closed
  named : t.Named

theorem above_of_walk (h : t.Regular) {segments : List (List Char)} {start : Place}
    (hs : ∀ s ∈ segments, '/' ∉ s) (hstart : segments = [] → (t.at? start).isSome)
    (hw : t.walk start segments = .ok place) (hn : t.at? place = none) :
    ∃ above name mode, place = above ++ [name] ∧ IsName name ∧
      t.at? above = some (.directory mode) := by
  induction segments generalizing start with
  | nil =>
    cases hw
    simp [hn] at hstart
  | cons s rest ih =>
    rw [walk] at hw
    cases ha : t.at? start with
    | none => simp [ha] at hw
    | some entry =>
      cases entry with
      | file contents mode => simp [ha] at hw
      | directory mode =>
        rw [ha] at hw
        dsimp only at hw
        split at hw
        · cases hw
        · by_cases hnext : rest = [] ∧ t.at? (stepInto start s) = none
          · obtain ⟨rfl, hnone⟩ := hnext
            cases hw
            unfold stepInto at hnone ⊢
            split at hnone
            · rcases List.eq_nil_or_concat start with rfl | ⟨above, last, rfl⟩
              · simp [at?_root] at hnone
              · rw [List.concat_eq_append] at ha hnone
                obtain ⟨mode', hd⟩ := h.closed.parent above last (by simp [ha])
                simp [hd] at hnone
            · rename_i hforth
              split at hnone
              · simp [ha] at hnone
              · rename_i hidle
                rw [if_neg hforth, if_neg hidle]
                refine ⟨start, String.ofList s, mode, rfl, ⟨?_, ?_, ?_⟩, ha⟩
                · simpa using hidle
                · simpa using hs s (List.mem_cons_self ..)
                · simpa using hforth
          · refine ih (fun other ho => hs other (List.mem_cons_of_mem _ ho)) (fun he => ?_) hw
            rw [not_and] at hnext
            exact Option.isSome_iff_ne_none.2 (hnext he)

theorem isSome_origin_of_route (he : p.text.isEmpty = false) (hr : route p = []) :
    (t.at? (t.origin p)).isSome := by
  unfold origin
  cases ha : p.isAbsolute with
  | true => rfl
  | false =>
    obtain ⟨n, hn⟩ := segments_eq_route p
    have hbody : p.chars = joinSegments (List.replicate n []) := by
      have hchars := chars_eq p
      rw [ha] at hchars
      rw [← joinSegments_splitOn p.body, ← segments_eq, hn, hr] at hchars
      simpa using hchars
    have hfilled : p.chars ≠ [] := by
      intro hnil
      rw [chars, String.toList_eq_nil_iff] at hnil
      simp [hnil] at he
    rcases n with _ | _ | n
    · exact absurd hbody hfilled
    · exact absurd hbody hfilled
    · have habsolute := (isAbsolute_iff p).2 ⟨_, hbody⟩
      simp [ha] at habsolute

theorem above_of_locate (h : t.Regular) (hl : t.locate p = .ok place) (hn : t.at? place = none) :
    ∃ above name mode, place = above ++ [name] ∧ IsName name ∧
      t.at? above = some (.directory mode) := by
  obtain ⟨-, he, -, hw⟩ := locate_eq_ok.1 hl
  refine above_of_walk h (fun s hs => ?_) (isSome_origin_of_route he) hw hn
  obtain ⟨n, hsegments⟩ := segments_eq_route p
  exact not_mem_of_mem_segments (hsegments ▸ List.mem_append_left _ hs)

theorem Regular.put_directory (h : t.Regular) {above : Place} {name : String} {mode : Nat}
    (hn : IsName name) (hd : t.at? above = some (.directory mode)) (mode' : Nat) :
    (t.put (above ++ [name]) (.directory mode')).Regular := by
  have hat (other : Place) : (t.put (above ++ [name]) (.directory mode')).at? other =
      if other = above ++ [name] then some (.directory mode') else t.at? other := by
    rw [at?_put]
    simp
  refine ⟨⟨fun other last hs => ?_⟩, fun other last hs => ?_⟩
  · rw [hat] at hs ⊢
    split
    · exact ⟨mode', rfl⟩
    · split at hs
      · rename_i he
        obtain ⟨rfl, -⟩ := List.append_inj' he rfl
        exact ⟨mode, hd⟩
      · exact h.closed.parent other last hs
  · rw [hat] at hs
    split at hs
    · rename_i he
      rwa [List.cons.inj (List.append_inj' he rfl).2 |>.1]
    · exact h.named other last hs

theorem regular_ensureDirectory (p : Path) :
    Follows (fun t t' => t.Regular → t'.Regular) (FileTree.ensureDirectory p) := by
  have hmake (p : Path) : Follows (fun t t' => t.Regular → t'.Regular) (makeDirectory p) := by
    intro t h
    rw [run_makeDirectory]
    split
    · exact h
    · rename_i place hl
      split
      · exact h
      · rename_i hn
        obtain ⟨above, name, mode, rfl, hname, hd⟩ := above_of_locate h hl (by simpa using hn)
        exact h.put_directory hname hd _
  have hfrom := follows_makeDirectoriesFrom ⟨fun _ h => h, fun h h' ht => h' (h ht)⟩ hmake
  exact follows_on (hfrom _ p) _ _

/-- A directory that was made where nothing stood, on the way to a path. -/
def NewOnWay (t : Tree) (target : Path) (place : Place) : Prop :=
  place ∈ t.way target ∧ t.at? place = none

/-- What a directory leaves that was copied from `source` to `target`, with `t` before. Something
new without a counterpart is a directory on the way to the target, or the copy of one. -/
structure Overlaid (source target : Path) (t t' : Tree) : Prop where
  files : ∀ rel contents mode,
    t.at? (t.lexicalPlace source ++ rel) = some (.file contents mode) →
      t'.at? (t.lexicalPlace target ++ rel) = some (.file contents mode)
  directories : ∀ rel mode, t.at? (t.lexicalPlace source ++ rel) = some (.directory mode) →
    (∃ mode', t'.at? (t.lexicalPlace target ++ rel) = some (.directory mode')) ∧
      ∀ entry, t.at? (t.lexicalPlace target ++ rel) = some entry →
        t'.at? (t.lexicalPlace target ++ rel) = some entry
  unmatched : ∀ rel, t.at? (t.lexicalPlace source ++ rel) = none →
    t'.at? (t.lexicalPlace target ++ rel) = t.at? (t.lexicalPlace target ++ rel) ∨
      (t.NewOnWay target (t.lexicalPlace target ++ rel) ∨
        t.NewOnWay target (t.lexicalPlace source ++ rel)) ∧
      t.at? (t.lexicalPlace target ++ rel) = none ∧
        t'.at? (t.lexicalPlace target ++ rel) = some (.directory modeOfNewDirectory)
  source : ∀ rel, t'.at? (t.lexicalPlace source ++ rel) = t.at? (t.lexicalPlace source ++ rel) ∨
    t.NewOnWay target (t.lexicalPlace source ++ rel) ∧
      t'.at? (t.lexicalPlace source ++ rel) = some (.directory modeOfNewDirectory)
  elsewhere : ∀ place, ¬ t.lexicalPlace target <+: place → t'.at? place = t.at? place ∨
    t.NewOnWay target place ∧ t'.at? place = some (.directory modeOfNewDirectory)

/-- The target and the directories above it are made first, and then it is filled. -/
structure CopiedBy (source target : Path) (t made t' : Tree) : Prop where
  makes : (FileTree.ensureDirectory target).run.run t = (.ok (), made)
  confined : Confined (fun _ => False) (t.way target) t made
  enters : made.Enters target
  filled : Filled (t.lexicalPlace source) (t.lexicalPlace target) made (.ok (), t')

theorem copiedBy_of_run {order : Order} {fuel : Nat} (h : t.Regular)
    (ha : Asunder (t.lexicalPlace source) (t.lexicalPlace target))
    (he : target.text.isEmpty = true → t.Enters target)
    (hrun : (copyFrom order fuel source target).run.run t = (.ok (), t')) :
    ∃ made, CopiedBy source target t made t' := by
  cases fuel with
  | zero => cases hrun
  | succ fuel =>
    have hregular := regular_ensureDirectory target t h
    rcases hmakes : (FileTree.ensureDirectory target).run.run t with ⟨_ | u, made⟩
    · rw [copyFrom_succ, run_bind, hmakes] at hrun
      cases hrun
    · rw [hmakes] at hregular
      obtain ⟨henters, hconfined, -⟩ := enters_of_ensureDirectory he hmakes
      have hfilled := filled_copyFrom order fuel hmakes
        ⟨lexicalPlace_congr hconfined.working source, henters,
          lexicalPlace_congr hconfined.working target, ha,
          rooted_of_closed hregular.closed hregular.named _⟩
      rw [hrun] at hfilled
      exact ⟨made, hmakes, hconfined, henters, hfilled⟩

namespace CopiedBy

variable (h : CopiedBy source target t made t')
include h

theorem at?_made (place : Place) : made.at? place = t.at? place ∨
    t.NewOnWay target place ∧ made.at? place = some (.directory modeOfNewDirectory) :=
  (h.confined.outside place id).imp_right fun ⟨hway, hnone, hnew⟩ => ⟨⟨hway, hnone⟩, hnew⟩

theorem at?_elsewhere (hp : ¬ t.lexicalPlace target <+: place) :
    t'.at? place = made.at? place := by
  refine at?_of_confined h.filled.confined ?_
  rintro ⟨name, rel, rfl⟩
  exact hp (List.prefix_append ..)

theorem at?_target (rel : Place) : t'.at? (t.lexicalPlace target ++ rel) =
    overlay (made.at? (t.lexicalPlace source ++ rel))
      (made.at? (t.lexicalPlace target ++ rel)) := by
  by_cases hrel : rel = []
  · obtain ⟨mode, hsource⟩ := h.filled.directory rfl
    obtain ⟨mode', htarget⟩ := h.enters.directory
    rw [lexicalPlace_congr h.confined.working] at htarget
    rw [hrel, List.append_nil, List.append_nil, hsource, htarget,
      at?_of_confined h.filled.confined (not_below_self _), htarget]
    rfl
  · exact h.filled.overlaid rfl rel hrel

theorem at?_of_directory {rel : Place} {mode : Nat}
    (hs : made.at? (t.lexicalPlace source ++ rel) = some (.directory mode)) :
    (made.at? (t.lexicalPlace target ++ rel) = none ∧
      t'.at? (t.lexicalPlace target ++ rel) = some (.directory modeOfNewDirectory)) ∨
    ∃ mode', made.at? (t.lexicalPlace target ++ rel) = some (.directory mode') ∧
      t'.at? (t.lexicalPlace target ++ rel) = some (.directory mode') := by
  have htarget := h.at?_target rel
  rw [hs] at htarget
  cases hold : made.at? (t.lexicalPlace target ++ rel) with
  | none => exact .inl ⟨rfl, by rw [htarget, hold]; rfl⟩
  | some entry =>
    rw [hold] at htarget
    cases entry with
    | directory mode' => exact .inr ⟨mode', rfl, htarget⟩
    | file contents mode' =>
      obtain ⟨written, hg⟩ := h.filled.grown
      obtain ⟨contents', hlook⟩ := hg.file _ contents (look_file hold)
      rw [look_directory htarget] at hlook
      cases hlook

theorem at?_target_cases (rel : Place) :
    t'.at? (t.lexicalPlace target ++ rel) = made.at? (t.lexicalPlace target ++ rel) ∨
      (∃ contents mode, made.at? (t.lexicalPlace source ++ rel) = some (.file contents mode)) ∨
      (made.at? (t.lexicalPlace source ++ rel)).isSome ∧
        made.at? (t.lexicalPlace target ++ rel) = none ∧
        t'.at? (t.lexicalPlace target ++ rel) = some (.directory modeOfNewDirectory) := by
  cases hs : made.at? (t.lexicalPlace source ++ rel) with
  | none =>
    rw [h.at?_target, hs]
    exact .inl rfl
  | some entry =>
    cases entry with
    | file contents mode => exact .inr (.inl ⟨contents, mode, rfl⟩)
    | directory mode =>
      rcases h.at?_of_directory hs with hnew | ⟨mode', hold, hkept⟩
      · exact .inr (.inr ⟨rfl, hnew⟩)
      · exact .inl (hkept.trans hold.symm)

theorem overlaid (ha : Asunder (t.lexicalPlace source) (t.lexicalPlace target)) :
    Overlaid source target t t' := by
  have helsewhere (place : Place) (hp : ¬ t.lexicalPlace target <+: place) :
      t'.at? place = t.at? place ∨
        t.NewOnWay target place ∧ t'.at? place = some (.directory modeOfNewDirectory) := by
    rw [h.at?_elsewhere hp]
    exact h.at?_made place
  refine ⟨fun rel contents mode hs => ?_, fun rel mode hs => ?_, fun rel hs => ?_,
    fun rel => helsewhere _ (ha.not_mem rel), helsewhere⟩
  · rw [h.at?_target, h.confined.kept id hs]
    rfl
  · have hcases := h.at?_of_directory (h.confined.kept id hs)
    refine ⟨?_, fun entry hentry => ?_⟩
    · rcases hcases with ⟨-, hnew⟩ | ⟨mode', -, hkept⟩
      · exact ⟨_, hnew⟩
      · exact ⟨mode', hkept⟩
    · have hmade := h.confined.kept id hentry
      rcases hcases with ⟨hnone, -⟩ | ⟨mode', hold, hkept⟩
      · rw [hmade] at hnone
        cases hnone
      · rw [hkept, ← hold, hmade]
  · rcases h.at?_made (t.lexicalPlace source ++ rel) with hsame | ⟨hway, hnew⟩
    · have htarget := h.at?_target rel
      rw [hsame, hs] at htarget
      rcases h.at?_made (t.lexicalPlace target ++ rel) with hold | ⟨hway, hnew⟩
      · exact .inl (htarget.trans hold)
      · exact .inr ⟨.inl hway, hway.2, htarget.trans hnew⟩
    · rcases h.at?_of_directory hnew with ⟨hnone, hcopy⟩ | ⟨mode', hold, hkept⟩
      · rcases h.at?_made (t.lexicalPlace target ++ rel) with hsame | ⟨-, hnew'⟩
        · exact .inr ⟨.inr hway, hsame.symm.trans hnone, hcopy⟩
        · rw [hnew'] at hnone
          cases hnone
      · rcases h.at?_made (t.lexicalPlace target ++ rel) with hsame | ⟨hway', hnew'⟩
        · exact .inl (hkept.trans (hold.symm.trans hsame))
        · exact .inr ⟨.inl hway', hway'.2, hkept.trans (hold.symm.trans hnew')⟩

end CopiedBy

/-- A directory that is copied over one that is neither itself nor inside it nor above it leaves, in
whatever order its entries are read, its files and directories below the target, and everything else
as it was, but for missing directories that were made on the way to the target. Two orders that
succeed leave the same tree. The order of the listing is one of them. -/
theorem overlaid_in_any_order (source target : Path) (h : t.Regular)
    (ha : Asunder (t.lexicalPlace source) (t.lexicalPlace target))
    (he : target.text.isEmpty = true → t.Enters target) :
    FileTree.copyDirectory source target = copyFrom .listed (pathLimit + 1) source target ∧
    ∀ order fuel t', (copyFrom order fuel source target).run.run t = (.ok (), t') →
      Overlaid source target t t' ∧
      ∀ order' fuel' t'', (copyFrom order' fuel' source target).run.run t = (.ok (), t'') →
        ∀ place, t''.at? place = t'.at? place := by
  refine ⟨(copyFrom_listed _ _ _).symm, fun order fuel t' hrun => ?_⟩
  obtain ⟨made, hcopied⟩ := copiedBy_of_run h ha he hrun
  refine ⟨hcopied.overlaid ha, fun order' fuel' t'' hrun' place => ?_⟩
  obtain ⟨made', hcopied'⟩ := copiedBy_of_run h ha he hrun'
  obtain rfl : made = made' := by
    have hsame := hcopied.makes.symm.trans hcopied'.makes
    exact (Prod.mk.inj hsame).2
  by_cases hp : t.lexicalPlace target <+: place
  · obtain ⟨rel, rfl⟩ := hp
    rw [hcopied'.at?_target, hcopied.at?_target]
  · rw [hcopied'.at?_elsewhere hp, hcopied.at?_elsewhere hp]

/-- The target holds a file and a directory that the source has as well, and a file of its own. -/
def overlayTree : Tree :=
  ⟨[(["s"], .directory 0o755), (["s", "a"], .file (.text "new") 0o640),
    (["s", "b"], .directory 0o755), (["s", "b", "c"], .file (.bytes [0xff]) 0o644),
    (["d"], .directory 0o755), (["d", "a"], .file (.text "old") 0o644),
    (["d", "b"], .directory 0o700), (["d", "z"], .file (.text "z") 0o644)], []⟩

def overlayRun : Except Failure Unit × Tree :=
  (copyFrom .backward 3 ⟨"/s"⟩ ⟨"/x/../d"⟩).run.run overlayTree

theorem eq_of_isOk {ran : Except Failure Unit × Tree} (h : ran.1.isOk = true) :
    ran = (.ok (), ran.2) := by
  obtain ⟨_ | u, t⟩ := ran
  · cases h
  · rfl

theorem overlaid_in_any_order_backward :
    overlayRun = (.ok (), overlayRun.2) ∧
      Overlaid ⟨"/s"⟩ ⟨"/x/../d"⟩ overlayTree overlayRun.2 ∧
      overlayRun.2.at? ["d", "a"] = some (.file (.text "new") 0o640) ∧
      overlayRun.2.at? ["d", "b"] = some (.directory 0o700) ∧
      overlayRun.2.at? ["d", "b", "c"] = some (.file (.bytes [0xff]) 0o644) ∧
      overlayRun.2.at? ["d", "z"] = some (.file (.text "z") 0o644) ∧
      overlayRun.2.at? ["x"] = some (.directory modeOfNewDirectory) := by
  have hregular : overlayTree.Regular :=
    ⟨closed_of_entries (by decide), named_of_entries (by decide)⟩
  have hrun : overlayRun = (.ok (), overlayRun.2) := eq_of_isOk (by decide +kernel)
  obtain ⟨-, hcopies⟩ := overlaid_in_any_order ⟨"/s"⟩ ⟨"/x/../d"⟩ hregular (by decide)
    (fun he => absurd he (by decide))
  exact ⟨hrun, (hcopies .backward 3 overlayRun.2 hrun).1, by decide +kernel⟩

end Patchboard.Tree
