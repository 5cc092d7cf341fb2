import Patchboard.Manifest
import Patchboard.Proofs.Document.Paths

set_option autoImplicit false

namespace Patchboard

namespace Toml

/-- What a field stands for: the items of its array, or its one value. -/
def entries (key : String) (fields : List (String × Toml)) : List Toml :=
  match lookup key fields with
  | none => []
  | some (.array items) => items
  | some t => [t]

theorem isTable_iff (t : Toml) : t.isTable = true ↔ ∃ fields, t = .table fields := by
  cases t <;> simp [isTable, fields?]

theorem isTable_array (items : List Toml) : (array items).isTable = false := rfl

end Toml

namespace Document
open Toml

theorem map_value_children {d : Document} {path : String} {fields : List (String × Toml)}
    (h : (d.resolve? path).bind fields? = some fields) (tag : String) :
    (d.children path tag).map value = entries tag fields := by
  unfold children entries
  rw [h]
  dsimp only
  cases lookup tag fields with
  | none => rfl
  | some t =>
    cases t with
    | array nodes => simp [items, Function.comp_def]
    | _ => rfl

theorem resolve?_self (d : Document) : d.resolve? "" = some d.value ∧ d.resolve? "." = some d.value :=
  ⟨rfl, rfl⟩

theorem resolve?_key {tag : String} (h : IsPlainKey tag) (d : Document) :
    d.resolve? tag = (d.children "" tag).head?.map value := by
  rw [head?_children, (resolve?_self d).1, resolve?, keys_of_plain h, descend?, Option.bind_some]
  cases child? d.value tag <;> rfl

theorem has_key {tag : String} (h : IsPlainKey tag) (d : Document) :
    d.has tag = true ↔ d.children "" tag ≠ [] := by
  unfold has
  rw [resolve?_key h]
  cases d.children "" tag <;> simp

theorem first?_bind_text? (t : Toml) : (first? t).bind Toml.text? = t.text? := by
  cases t with
  | array nodes => cases nodes <;> simp [first?, Toml.text?, Toml.firstText?]
  | _ => rfl

theorem fetch?_key {tag : String} (h : IsPlainKey tag) (fields : List (String × Toml)) :
    fetch? ⟨.table fields⟩ tag = (lookup tag fields).bind Toml.text? := by
  unfold fetch? resolve?
  rw [keys_of_plain h, descend?, Option.bind_assoc]
  unfold child?
  cases hl : lookup tag fields with
  | none => simp [fields?, hl]
  | some t => simpa [fields?, hl, descend?] using first?_bind_text? t

end Document

namespace Manifest
open Toml Document

def IsBlock (block : Toml) : Prop :=
  ∃ fields, block = .table fields ∧ ∀ t, lookup "action" fields = some t →
    t.isTable = true ∨ ∃ actions, t = .array actions ∧ ∀ a ∈ actions, a.isTable = true

/-- The fields of a manifest that names its package and has only blocks for its modes. -/
structure IsSound (fields : List (String × Toml)) : Prop where
  named : ∃ id, (lookup "id" fields).bind Toml.text? = some id ∧ Text.allBlank id = false
  blocks : ∀ mode : Mode, ∀ block ∈ entries mode.name fields, IsBlock block

theorem IsBlock.isTable {block : Toml} (h : IsBlock block) : block.isTable = true := by
  obtain ⟨fields, rfl, -⟩ := h
  rfl

theorem IsBlock.entries {fields : List (String × Toml)} (h : IsBlock (.table fields)) :
    ∀ a ∈ entries "action" fields, a.isTable = true := by
  obtain ⟨fields', heq, hactions⟩ := h
  obtain rfl := Toml.table.inj heq
  intro a ha
  unfold Toml.entries at ha
  cases hl : lookup "action" fields with
  | none => simp [hl] at ha
  | some t =>
    rw [hl] at ha
    rcases hactions t hl with htable | ⟨actions, rfl, hall⟩
    · obtain ⟨inner, rfl⟩ := (isTable_iff t).1 htable
      rw [List.mem_singleton.1 ha]
      exact htable
    · exact hall a ha

theorem firstNoTable?_eq_none_iff (n : Nat) (items : List Toml) :
    firstNoTable? n items = none ↔ ∀ t ∈ items, t.isTable = true := by
  induction items generalizing n with
  | nil => simp [firstNoTable?]
  | cons t items ih =>
    rw [firstNoTable?, List.forall_mem_cons]
    cases t.isTable with
    | true => simpa using ih (n + 1)
    | false => simp

theorem blockError?_eq_none_iff (n : Nat) (block : Toml) :
    blockError? n block = none ↔ IsBlock block := by
  unfold blockError? IsBlock
  cases block with
  | table fields =>
    dsimp only [fields?]
    cases hl : lookup "action" fields with
    | none => simp [hl]
    | some t =>
      cases t with
      | array actions => simp [hl, isTable_array, firstNoTable?_eq_none_iff]
      | table inner => simp [hl, isTable_iff]
      | _ => simp [hl, isTable_iff]
  | _ => simp [fields?]

theorem firstBlockError?_eq_none_iff (n : Nat) (blocks : List Toml) :
    firstBlockError? n blocks = none ↔ ∀ block ∈ blocks, IsBlock block := by
  induction blocks generalizing n with
  | nil => simp [firstBlockError?]
  | cons block blocks ih =>
    rw [firstBlockError?, Option.or_eq_none_iff, blockError?_eq_none_iff, ih, List.forall_mem_cons]

theorem blocksOf_eq (fields : List (String × Toml)) (mode : Mode) :
    blocksOf fields mode = entries mode.name fields := rfl

theorem checkMode_eq_ok_iff {fields : List (String × Toml)} (id : String) (mode : Mode) :
    checkMode ⟨.table fields⟩ id mode = .ok () ↔
      ∀ block ∈ entries mode.name fields, IsBlock block := by
  rw [← firstBlockError?_eq_none_iff 1, ← blocksOf_eq]
  unfold checkMode
  dsimp only [fields?, Option.getD_some]
  cases firstBlockError? 1 (blocksOf fields mode) <;> simp

theorem id?_eq_some_iff {fields : List (String × Toml)} {id : String} :
    id? ⟨.table fields⟩ = some id ↔ ∃ s, (lookup "id" fields).bind Toml.text? = some s ∧
      Text.trimmed s = id ∧ Text.allBlank s = false := by
  have hblank (s : String) : (!(Text.trimmed s).isEmpty) = true ↔ Text.allBlank s = false := by
    rw [Bool.not_eq_true', ← Bool.not_eq_true, ← Bool.not_eq_true, not_iff_not,
      String.isEmpty_iff, Text.trimmed, String.ofList_eq_empty_iff, Text.trim_eq_nil, Text.allBlank]
  unfold id?
  rw [fetch?_key (by decide), Option.filter_eq_some_iff]
  simp only [Option.map_eq_some_iff]
  constructor
  · rintro ⟨⟨s, hs, rfl⟩, hfilled⟩
    exact ⟨s, hs, rfl, (hblank s).1 hfilled⟩
  · rintro ⟨s, hs, rfl, hs'⟩
    exact ⟨⟨s, hs, rfl⟩, (hblank s).2 hs'⟩

def ofFields (fields : List (String × Toml)) (id : String) : Manifest :=
  let d : Document := ⟨.table fields⟩
  ⟨id, (d.fetch? "name").getD id, d.fetch "version", d.fetch? "type", d⟩

theorem check_bind_eq_ok {α : Type} {check : Except Failure Unit}
    {next : Unit → Except Failure α} {a : α} :
    (check >>= next) = .ok a ↔ check = .ok () ∧ next () = .ok a := by
  cases check with
  | error f => simp [bind, Except.bind]
  | ok done => simp [bind, Except.bind]

theorem parse_eq_ok_iff {text : String} {m : Manifest} : parse text = .ok m ↔
    ∃ fields id, Toml.parse? text = some fields ∧ id? ⟨.table fields⟩ = some id ∧
      (∀ mode : Mode, ∀ block ∈ entries mode.name fields, IsBlock block) ∧
      m = ofFields fields id := by
  unfold parse Document.parse
  cases Toml.parse? text with
  | none => simp [Except.mapError, bind, Except.bind]
  | some fields =>
    have hread : ∀ next : Document → Except Failure Manifest,
        ((Except.ok ⟨.table fields⟩ : Except Failure Document).mapError
          (Failure.within "failed to parse package manifest") >>= next) = next ⟨.table fields⟩ :=
      fun _ => rfl
    dsimp only
    rw [hread]
    cases hid : id? ⟨.table fields⟩ with
    | none => simp [hid]
    | some id =>
      dsimp only
      simp only [check_bind_eq_ok, checkMode_eq_ok_iff]
      constructor
      · rintro ⟨hinstall, hupgrade, huninstall, hm⟩
        refine ⟨fields, id, rfl, hid, fun mode => ?_, (Except.ok.inj hm).symm⟩
        cases mode with
        | install => exact hinstall
        | upgrade => exact hupgrade
        | uninstall => exact huninstall
      · rintro ⟨fields', id', hfields, hid', hblocks, rfl⟩
        obtain rfl := Option.some.inj hfields
        obtain rfl := Option.some.inj (hid.symm.trans hid')
        exact ⟨hblocks _, hblocks _, hblocks _, rfl⟩

/-- A text is accepted exactly when it is a document that names its package with a text that is not
blank, and whose blocks are tables, with only tables as their actions. Of what is accepted, the
blocks and the actions that a plan reads are those that were checked, and so they are tables; and a
mode is there exactly when it has a block. -/
theorem accepted_iff_sound (text : String) :
    ((∃ m, parse text = .ok m) ↔ ∃ fields, Toml.parse? text = some fields ∧ IsSound fields) ∧
      ∀ m, parse text = .ok m → ∀ mode : Mode,
        (∃ fields, m.document.value = .table fields ∧
          (m.methodBlocks mode).map (·.value) = entries mode.name fields) ∧
        (∀ block ∈ m.methodBlocks mode, block.value.isTable = true ∧
          ∀ action ∈ block.children "." "action", action.value.isTable = true) ∧
        (m.hasMethod mode = true ↔ m.methodBlocks mode ≠ []) := by
  constructor
  · constructor
    · rintro ⟨m, hm⟩
      obtain ⟨fields, id, hparse, hid, hblocks, -⟩ := parse_eq_ok_iff.1 hm
      obtain ⟨s, hs, -, hfilled⟩ := id?_eq_some_iff.1 hid
      exact ⟨fields, hparse, ⟨s, hs, hfilled⟩, hblocks⟩
    · rintro ⟨fields, hparse, ⟨s, hs, hfilled⟩, hblocks⟩
      have hid := id?_eq_some_iff.2 ⟨s, hs, rfl, hfilled⟩
      exact ⟨_, parse_eq_ok_iff.2 ⟨fields, _, hparse, hid, hblocks, rfl⟩⟩
  · intro m hm mode
    obtain ⟨fields, id, -, -, hblocks, rfl⟩ := parse_eq_ok_iff.1 hm
    have hvalues : ((ofFields fields id).methodBlocks mode).map (·.value) =
        entries mode.name fields := map_value_children rfl mode.name
    have hplain : IsPlainKey mode.name := by cases mode <;> decide
    refine ⟨⟨fields, rfl, hvalues⟩, fun block hb => ?_, has_key hplain _⟩
    have hblock : IsBlock block.value := by
      refine hblocks mode _ ?_
      rw [← hvalues]
      exact List.mem_map_of_mem hb
    refine ⟨hblock.isTable, fun action ha => ?_⟩
    obtain ⟨inner, hinner⟩ := (isTable_iff _).1 hblock.isTable
    have hactions : (block.children "." "action").map (·.value) = entries "action" inner := by
      refine map_value_children ?_ "action"
      rw [(resolve?_self block).2, hinner]
      rfl
    rw [hinner] at hblock
    refine hblock.entries _ ?_
    rw [← hactions]
    exact List.mem_map_of_mem ha

def twoBlocks : String := "id = 'a'\n[[install]]\naction = [{}, {}]\n[[install]]\n"

theorem accepted_iff_sound_two : ∃ m, parse twoBlocks = .ok m ∧
    (m.methodBlocks .install).length = 2 ∧
    (∀ block ∈ m.methodBlocks .install, block.value.isTable = true ∧
      ∀ action ∈ block.children "." "action", action.value.isTable = true) ∧
    m.hasMethod .install = true := by
  have hlength : (parse twoBlocks).toOption.any
      (fun m => (m.methodBlocks .install).length = 2) = true := by decide +kernel
  cases hm : parse twoBlocks with
  | error f =>
    rw [hm] at hlength
    cases hlength
  | ok m =>
    rw [hm] at hlength
    have htwo : (m.methodBlocks .install).length = 2 := of_decide_eq_true hlength
    obtain ⟨-, htables, hmode⟩ := (accepted_iff_sound twoBlocks).2 m hm .install
    refine ⟨m, rfl, htwo, htables, hmode.2 fun hnone => ?_⟩
    rw [hnone] at htwo
    cases htwo

end Manifest

end Patchboard
