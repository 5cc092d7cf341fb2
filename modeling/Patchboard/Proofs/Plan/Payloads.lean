import Patchboard.Proofs.Plan.Effects
import Patchboard.Proofs.Plan.Shape
import Patchboard.Proofs.Tree.Filing

set_option autoImplicit false

namespace Patchboard

namespace Tree

/-- What stood somewhere still stands there: a file or a directory as before, and with its mode. -/
def KeepsModes (t t' : Tree) : Prop :=
  ∀ place entry, t.at? place = some entry → ∃ entry', t'.at? place = some entry' ∧
    entry'.isFile = entry.isFile ∧ entry'.mode = entry.mode

variable {t t' : Tree} {p : Path} {way : List Place}

theorem KeepsModes.refl (t : Tree) : KeepsModes t t := fun _ entry h => ⟨entry, h, rfl, rfl⟩

theorem lasting_keepsModes : Lasting KeepsModes where
  refl := .refl
  trans h h' place entry ha := by
    obtain ⟨entry', ha', hfile, hmode⟩ := h place entry ha
    obtain ⟨entry'', ha'', hfile', hmode'⟩ := h' place entry' ha'
    exact ⟨entry'', ha'', hfile'.trans hfile, hmode'.trans hmode⟩

theorem Confined.keepsModes (h : Confined (fun _ => False) way t t') : KeepsModes t t' :=
  fun _ entry ha => ⟨entry, h.kept id ha, rfl, rfl⟩

theorem keepsModes_ensureDirectory (p : Path) :
    Follows KeepsModes (FileTree.ensureDirectory p) := by
  intro t
  have hmakes : Confines t (fun _ => False) (t.way p) (FileTree.ensureDirectory p) :=
    confines_fileTree_ensureDirectory p
  exact (hmakes t rfl).keepsModes

theorem keepsModes_writeText (p : Path) (s : String) : Follows KeepsModes (writeText p s) := by
  intro t
  rw [writeText, run_writeContents]
  split
  · exact .refl t
  · rename_i place mode hw
    intro other entry ha
    dsimp only
    rw [at?_put]
    split
    · rename_i hplace
      rw [hplace.1] at ha
      refine ⟨_, rfl, ?_⟩
      cases mode with
      | none =>
        rw [absent_of_writable? hw] at ha
        cases ha
      | some mode =>
        obtain ⟨contents, hold⟩ := mode_of_writable? hw
        rw [hold] at ha
        cases ha
        exact ⟨rfl, rfl⟩
    · exact ⟨entry, ha, rfl, rfl⟩

theorem grown_of_ensureDirectory (h : (FileTree.ensureDirectory p).run.run t = (.ok (), t')) :
    Grown t t' [] := by
  have hmade := (prepared_makeDirectoriesFrom (p.chars.length + 1) p t).grown
  unfold after at hmade
  have hrun : (makeDirectoriesFrom (p.chars.length + 1) p).run.run t = (.ok (), t') :=
    run_on_eq_ok.1 h
  rw [hrun] at hmade
  exact hmade

end Tree

namespace Plan
open Path Tree

theorem toList_inlineName (number : Nat) (extension : String) :
    (inlineName number extension).toList =
      "$auto_".toList ++ (Nat.toDigits 10 number ++ '.' :: extension.toList) := by
  simp [inlineName, Text.decimal]

theorem inlineName_injective {number number' : Nat} {extension extension' : String}
    (h : inlineName number extension = inlineName number' extension') : number = number' := by
  have hchars := congrArg String.toList h
  rw [toList_inlineName, toList_inlineName] at hchars
  have hrest := congrArg (List.takeWhile Char.isDigit) (List.append_cancel_left hchars)
  have hdigits (n : Nat) (rest : List Char) :
      (Nat.toDigits 10 n ++ '.' :: rest).takeWhile Char.isDigit = Nat.toDigits 10 n := by
    rw [List.takeWhile_append_of_pos fun c hc =>
      Nat.isDigit_of_mem_toDigits (by decide) (by decide) hc]
    simp
  rw [hdigits, hdigits] at hrest
  have hnumeral := congrArg Text.numeral hrest
  rwa [Text.numeral_toDigits, Text.numeral_toDigits] at hnumeral

def extensionOf (kind : ActionKind) (node : Document) : Option String :=
  match kind with
  | .readme | .license | .redirect => some "txt"
  | .code | .database => some "php"
  | .modification => some (if (node.fetch? "@format").any isBoardmodFormat then "mod" else "toml")
  | _ => none

def extension? (node : Document) : Option String :=
  (ActionKind.parse? (node.fetch "@kind")).bind fun kind => extensionOf kind node

def isInline (node : Document) : Bool := node.flag "@inline" && (extension? node).isSome

theorem slash_not_mem_extension {kind : ActionKind} {node : Document} {extension : String}
    (h : extensionOf kind node = some extension) : '/' ∉ extension.toList := by
  unfold extensionOf at h
  cases kind with
  | readme | license | redirect | code | database =>
    cases h
    decide
  | modification =>
    dsimp only at h
    split at h <;>
      · cases h
        decide
  | _ => cases h

theorem isFileTree_of_extension {kind : ActionKind} {node : Document} {extension : String}
    (h : extensionOf kind node = some extension) : kind.isFileTree = false := by
  cases kind <;> first | rfl | cases h

variable {c : Context} {node : Document} {count count' : Nat} {t t' last : Tree} {a : Action}

/-- The text of a node is stored under a number: its directory is made, and it is written there. -/
structure Stored (c : Context) (node : Document) (extension : String) (number : Nat)
    (t : Tree) (a : Action) (t' : Tree) : Prop where
  named : a.filename = inlineName number extension
  source : a.source = some (c.staging.join ⟨inlineName number extension⟩)
  written : ∃ u, (FileTree.ensureDirectory c.staging).run.run t = (.ok (), u) ∧
    (writeText (c.staging.join ⟨inlineName number extension⟩) (node.fetch ".")).run.run u =
      (.ok (), t')

/-- What planning a node does besides making its action: nothing, unless the node is an inline one;
then its text is stored and counted. -/
inductive Storing (c : Context) (node : Document) (extension : Option String) (count : Nat)
    (t : Tree) (a : Action) : Nat → Tree → Prop where
  | nothing (h : (node.flag "@inline" && extension.isSome) = false) :
    Storing c node extension count t a count t
  | stored {name : String} {t' : Tree} (hname : extension = some name)
      (hinline : node.flag "@inline" = true) (h : Stored c node name count t a t') :
    Storing c node extension count t a (count + 1) t'

theorem storing_attach {start : Action} {extension : String}
    (h : (attach c start node extension count).run.run t = (.ok (a, count'), t')) :
    Storing c node (some extension) count t a count' t' := by
  unfold attach at h
  dsimp only at h
  split at h
  · rename_i hinline
    obtain ⟨_, u, hmade, h⟩ := run_bind_eq_ok.1 h
    obtain ⟨_, u', hwritten, h⟩ := run_bind_eq_ok.1 h
    cases h
    exact .stored rfl hinline ⟨rfl, rfl, u, hmade, run_on_eq_ok.1 hwritten⟩
  · rename_i hinline
    cases h
    exact .nothing (by simp [hinline])

theorem Storing.detail {extension : Option String}
    (h : Storing c node extension count t a count' t') (detail : ActionDetail) :
    Storing c node extension count t { a with detail } count' t' := by
  cases h with
  | nothing h => exact .nothing h
  | stored hname hinline h => exact .stored hname hinline ⟨h.named, h.source, h.written⟩

theorem storing_actionOf {kind : ActionKind}
    (h : (actionOf c kind node count).run.run t = (.ok (a, count'), t')) :
    Storing c node (extensionOf kind node) count t a count' t' := by
  unfold actionOf at h
  cases kind with
  | readme | license | redirect =>
    obtain ⟨⟨attached, n⟩, u, hattach, h⟩ := run_bind_eq_ok.1 h
    have hstoring := storing_attach hattach
    cases h
    exact hstoring.detail _
  | code | database | modification => exact storing_attach h
  | _ =>
    cases h
    exact .nothing (by simp [extensionOf])

theorem storing_planNode (h : (planNode c node count).run.run t = (.ok (a, count'), t')) :
    Storing c node (extension? node) count t a count' t' := by
  unfold planNode at h
  dsimp only at h
  split at h
  · rename_i hnone
    cases h
    exact .nothing (by simp [extension?, hnone])
  · rename_i herror
    cases h
    exact .nothing (by simp [extension?, herror, extensionOf])
  · rename_i kind hne hkind
    obtain ⟨⟨planned, n⟩, u, hplanned, h⟩ := run_bind_eq_ok.1 h
    have hstoring := storing_actionOf hplanned
    have hextension : extension? node = extensionOf kind node := by
      rw [extension?, hkind, Option.bind_some]
    rw [hextension]
    dsimp only at h
    split at h
    · rename_i hblank
      cases h
      cases hstoring with
      | nothing hnothing => exact .nothing hnothing
      | stored hname _ _ =>
        rw [isFileTree_of_extension hname] at hblank
        cases hblank
    · cases h
      exact hstoring

theorem lexicalPlace_inline {extension : String} (hname : '/' ∉ extension.toList) (base : Tree)
    (staging : Path) (number : Nat) :
    base.lexicalPlace (staging.join ⟨inlineName number extension⟩) =
      base.lexicalPlace staging ++ [inlineName number extension] :=
  lexicalPlace_join (isName_inlineName number hname) base staging

section
variable {extension : String} {number : Nat} (h : Stored c node extension number t a t')
include h

theorem Stored.grown :
    Grown t t' [t.lexicalPlace (c.staging.join ⟨inlineName number extension⟩)] := by
  obtain ⟨u, hmade, hwritten⟩ := h.written
  have hdirectory := grown_of_ensureDirectory hmade
  have hfile := grown_writeContents (c.staging.join ⟨inlineName number extension⟩)
    (.text (node.fetch ".")) u
  unfold after at hfile
  rw [show writeContents _ _ = writeText _ _ from rfl, hwritten,
    lexicalPlace_of_grown hdirectory] at hfile
  exact hdirectory.trans hfile

theorem Stored.file : t'.file? (c.staging.join ⟨inlineName number extension⟩) =
    some (.text (node.fetch ".")) := by
  obtain ⟨u, -, hwritten⟩ := h.written
  rw [writeText, run_writeContents] at hwritten
  split at hwritten
  · cases hwritten
  · rename_i place mode hw
    cases hwritten
    exact file?_put hw _ _

theorem Stored.confined {base : Tree} (ht : t.working = base.working) {inside : Place → Prop}
    (hi : inside (base.lexicalPlace (c.staging.join ⟨inlineName number extension⟩))) :
    Confined inside (base.way c.staging) t t' := by
  obtain ⟨u, hmade, hwritten⟩ := h.written
  have hdirectory : Confined inside (base.way c.staging) t
      ((FileTree.ensureDirectory c.staging).run.run t).2 :=
    confines_fileTree_ensureDirectory c.staging t ht
  rw [hmade] at hdirectory
  have hfile : Confined inside (base.way c.staging) u
      ((writeText (c.staging.join ⟨inlineName number extension⟩) (node.fetch ".")).run.run u).2 :=
    confines_writeContents hi _ u (hdirectory.working.trans ht)
  rw [hwritten] at hfile
  exact hdirectory.trans hfile

end

/-- The inline nodes among those that were planned. -/
def inlines (trail : List Planned) : List Planned := trail.filter fun x => isInline x.node

/-- An inline node has become an action on a numbered file, which holds the text of the node. -/
structure Payload (staging : Path) (t : Tree) (number : Nat) (x : Planned) : Prop where
  named : ∃ extension, extension? x.node = some extension ∧
    x.action.filename = inlineName number extension
  source : x.action.source = some (staging.join ⟨x.action.filename⟩)
  text : t.text? (staging.join ⟨x.action.filename⟩) = .ok (x.node.fetch ".")

theorem slash_not_mem_of_extension? {extension : String} (h : extension? node = some extension) :
    '/' ∉ extension.toList := by
  obtain ⟨kind, -, hkind⟩ := Option.bind_eq_some_iff.1 h
  exact slash_not_mem_extension hkind

theorem Trail.grown {trail : List Planned} (h : Trail c count t trail last) :
    ∃ written, Grown t last written ∧ ∀ place ∈ written, ∃ number ≥ count, ∃ extension,
      place = t.lexicalPlace c.staging ++ [inlineName number extension] := by
  induction h with
  | nil => exact ⟨[], .refl _ _, by simp⟩
  | @cons node a count count' t t' last trail planned rest ih =>
    obtain ⟨written, hgrown, hwritten⟩ := ih
    cases storing_planNode planned with
    | nothing _ => exact ⟨written, hgrown, hwritten⟩
    | @stored extension _ hname _ hstored =>
      refine ⟨_, hstored.grown.trans hgrown, fun place hp => ?_⟩
      rcases List.mem_append.1 hp with hp | hp
      · refine ⟨count, Nat.le_refl _, extension, (List.mem_singleton.1 hp).trans ?_⟩
        exact lexicalPlace_inline (slash_not_mem_of_extension? hname) _ _ _
      · obtain ⟨number, hnumber, extension, hplace⟩ := hwritten place hp
        rw [lexicalPlace_of_grown hstored.grown] at hplace
        exact ⟨number, by omega, extension, hplace⟩

/-- The inline nodes are numbered in order, and each text is still there in the end: what is written
after it has another number. -/
theorem Trail.payloads {trail : List Planned} (h : Trail c count t trail last) (k : Nat)
    (x : Planned) (hx : (inlines trail)[k]? = some x) : Payload c.staging last (count + k) x := by
  induction h generalizing k with
  | nil => simp [inlines] at hx
  | @cons node a count count' t t' last trail planned rest ih =>
    cases storing_planNode planned with
    | nothing hnothing =>
      rw [inlines, List.filter_cons_of_neg (by simpa [isInline] using hnothing)] at hx
      exact ih k hx
    | @stored extension _ hname hinline hstored =>
      rw [inlines, List.filter_cons_of_pos (by simp [isInline, hinline, hname])] at hx
      cases k with
      | succ k =>
        have hlater := ih k hx
        rwa [Nat.add_assoc, Nat.add_comm 1] at hlater
      | zero =>
        obtain rfl := Option.some.inj hx
        refine ⟨⟨extension, hname, hstored.named⟩, ?_, ?_⟩
        · dsimp only
          rw [hstored.named, hstored.source]
        · obtain ⟨written, hgrown, hwritten⟩ := rest.grown
          dsimp only
          rw [hstored.named, text?_eq_ok_iff]
          refine file?_of_grown_of_some hgrown hstored.file fun hmem => ?_
          obtain ⟨number, hnumber, extension', hplace⟩ := hwritten _ hmem
          rw [lexicalPlace_inline (slash_not_mem_of_extension? hname),
            List.append_cancel_left_eq] at hplace
          have hnumbers := inlineName_injective (List.cons.inj hplace).1
          omega

theorem Trail.confined {trail : List Planned} (h : Trail c count t trail last) {base : Tree}
    (ht : t.working = base.working) :
    Confined (fun place => ∃ x ∈ inlines trail, ∃ p ∈ x.action.source, base.lexicalPlace p = place)
      (base.way c.staging) t last := by
  induction h with
  | nil => exact .refl _
  | @cons node a count count' t t' last trail planned rest ih =>
    cases storing_planNode planned with
    | nothing hnothing =>
      rw [inlines, List.filter_cons_of_neg (by simpa [isInline] using hnothing)]
      exact ih ht
    | stored hname hinline hstored =>
      rw [inlines, List.filter_cons_of_pos (by simp [isInline, hinline, hname])]
      have hfirst : Confined (fun place => ∃ x ∈ ⟨node, a, t'⟩ :: inlines trail,
          ∃ p ∈ x.action.source, base.lexicalPlace p = place) (base.way c.staging) t t' :=
        hstored.confined ht ⟨_, List.mem_cons_self .., _, hstored.source, rfl⟩
      refine hfirst.trans ((ih (hfirst.working.trans ht)).mono (fun place hp => ?_) fun _ => .inr)
      obtain ⟨x, hx, p, hp⟩ := hp
      exact ⟨x, List.mem_cons_of_mem _ hx, p, hp⟩

theorem Payload.apart {staging : Path} {number number' : Nat} {x y : Planned}
    (h : Payload staging last number x) (h' : Payload staging last number' y)
    (hne : number ≠ number') (base : Tree) : ∀ p ∈ x.action.source, ∀ q ∈ y.action.source,
      base.lexicalPlace p ≠ base.lexicalPlace q := by
  intro p hp q hq hsame
  obtain ⟨extension, hextension, hnamed⟩ := h.named
  obtain ⟨extension', hextension', hnamed'⟩ := h'.named
  rw [h.source, hnamed] at hp
  rw [h'.source, hnamed'] at hq
  rw [← Option.some.inj hp, ← Option.some.inj hq,
    lexicalPlace_inline (slash_not_mem_of_extension? hextension),
    lexicalPlace_inline (slash_not_mem_of_extension? hextension'),
    List.append_cancel_left_eq] at hsame
  exact hne (inlineName_injective (List.cons.inj hsame).1)

/-- Planning a block writes its inline texts under the numbers from zero on, in order, each to a file
of its own at a place of its own, and there it stands in the end. Everywhere else the tree stays as
it was, but for directories that were missing on the way to the staging directory; and whatever
stood somewhere is still a file or a directory with the same mode. -/
theorem payloads_actions {m : Manifest} {r : PlanRequest} {vars : PathVariables}
    {permissions : Permissions} {t t' : Tree} {plan : List Action}
    (h : (actions m r vars permissions).run.run t = (.ok plan, t')) :
    ∃ block ∈ selectBlock? m r, ∃ (paths : List Path) (trail : List Planned),
      plan = paths.map Action.chmod ++ trail.map (·.action) ∧
      trail.map (·.node) = block.children "." "action" ∧
      (∀ (number : Nat) (x : Planned), (inlines trail)[number]? = some x →
        Payload r.staging t' number x) ∧
      (inlines trail).Pairwise (fun x y => ∀ p ∈ x.action.source, ∀ q ∈ y.action.source,
        t.lexicalPlace p ≠ t.lexicalPlace q) ∧
      Confined (fun place => ∃ x ∈ inlines trail, ∃ p ∈ x.action.source, t.lexicalPlace p = place)
        (t.way r.staging) t t' ∧
      KeepsModes t t' := by
  have hmodes : KeepsModes t ((actions m r vars permissions).run.run t).2 :=
    follows_actions lasting_keepsModes (keepsModes_ensureDirectory _)
      (fun _ _ _ _ => keepsModes_writeText _ _) m vars permissions t
  rw [h] at hmodes
  unfold actions at h
  split at h
  · cases h
  · rename_i block hselect
    dsimp only at h
    obtain ⟨⟨planned, paths⟩, u, hnodes, h⟩ := run_bind_eq_ok.1 h
    cases h
    obtain ⟨trail, htrail, hnode, hplanned, -⟩ := planNodes_eq_ok hnodes
    have hpayloads (number : Nat) (x : Planned) (hx : (inlines trail)[number]? = some x) :
        Payload r.staging t' number x := by
      have hnumbered := htrail.payloads number x hx
      rwa [Nat.zero_add] at hnumbered
    refine ⟨block, hselect, paths, trail, ?_, hnode, hpayloads, ?_, htrail.confined rfl, hmodes⟩
    · rw [hplanned]
    · rw [List.pairwise_iff_getElem]
      intro i j hi hj hij
      exact (hpayloads i _ (List.getElem?_eq_getElem hi)).apart
        (hpayloads j _ (List.getElem?_eq_getElem hj)) (Nat.ne_of_lt hij) t

def inlineNode (kind : String) (fields : List (String × Toml)) (text : String) : Toml :=
  .table ([("kind", .string kind), ("inline", .boolean true)] ++ fields ++
    [("text", .string text)])

/-- Two inline texts with a node between them that has none; the directory for them is missing. -/
def inlineManifest : Manifest :=
  ⟨"p", "p", "1", none, ⟨.table [("install", .array [.table [("action", .array [
    inlineNode "readme" [] "a", treeNode "create-file" "x",
    inlineNode "modification" [("format", .string "boardmod")] "b"])]])]⟩⟩

def inlineActions : List Action :=
  [{ Action.make .readme "$auto_0.txt" with
      source := some ⟨"/s/p/$auto_0.txt"⟩, detail := .document none false },
    { Action.make .createFile "x" with destination := some ⟨"/b/x"⟩ },
    { Action.make .modification "$auto_1.mod" with
      source := some ⟨"/s/p/$auto_1.mod"⟩, isBoardmod := true }]

def boardTree : Tree := ⟨[(["b"], .directory 0o755)], []⟩

def inlineTree : Tree :=
  ⟨[(["b"], .directory 0o755), (["s"], .directory 0o755), (["s", "p"], .directory 0o755),
    (["s", "p", "$auto_0.txt"], .file (.text "a") 0o644),
    (["s", "p", "$auto_1.mod"], .file (.text "b") 0o644)], []⟩

theorem payloads_actions_two :
    (actions inlineManifest ⟨.install, "2.1", none, ⟨"/s/p"⟩⟩ .empty .byMode).run.run boardTree =
      (.ok inlineActions, inlineTree) ∧
    (∃ (paths : List Path) (trail : List Planned),
      inlineActions = paths.map Action.chmod ++ trail.map (·.action) ∧
      ∀ (number : Nat) (x : Planned), (inlines trail)[number]? = some x →
        Payload ⟨"/s/p"⟩ inlineTree number x) ∧
    KeepsModes boardTree inlineTree := by
  have hrun : (actions inlineManifest ⟨.install, "2.1", none, ⟨"/s/p"⟩⟩ .empty .byMode).run.run
      boardTree = (.ok inlineActions, inlineTree) :=
    Prod.ext (by decide +kernel) (by decide +kernel)
  obtain ⟨-, -, paths, trail, hplan, -, hpayloads, -, -, hmodes⟩ := payloads_actions hrun
  exact ⟨hrun, ⟨paths, trail, hplan, hpayloads⟩, hmodes⟩

end Plan

end Patchboard
