import Patchboard.Cli.Session
import Patchboard.Proofs.Json.RoundTrip
import Patchboard.Proofs.Plan.Shape
import Patchboard.Proofs.Text.Case

set_option autoImplicit false

namespace Patchboard

namespace Text

theorem toList_loop_bytes (bytes : ByteArray) (i : Nat) (read : List UInt8) :
    ByteArray.toList.loop bytes i read = read.reverse ++ bytes.data.toList.drop i := by
  fun_induction ByteArray.toList.loop bytes i read with
  | case1 i read hi ih =>
    have hget : bytes.get! i = bytes.data.toList[i] := getElem!_pos bytes.data i hi
    rw [ih, List.drop_eq_getElem_cons hi, hget, List.reverse_cons, List.append_assoc]
    rfl
  | case2 i read hi =>
    have hdrop : bytes.data.toList.drop i = [] := List.drop_eq_nil_of_le (Nat.le_of_not_lt hi)
    rw [hdrop, List.append_nil]

theorem toList_bytes (bytes : ByteArray) : bytes.toList = bytes.data.toList :=
  toList_loop_bytes bytes 0 []

end Text

namespace Json

theorem wholeFields_append {fields fields' : List (String × Json)} :
    WholeFields (fields ++ fields') ↔ WholeFields fields ∧ WholeFields fields' := by
  induction fields with
  | nil => simp [WholeFields]
  | cons field fields ih => simp [WholeFields, ih, and_assoc]

theorem wholeFields_field? (key : String) {value : Option Json} (h : ∀ v ∈ value, v.Whole) :
    WholeFields (field? key value) := by
  cases value with
  | none => trivial
  | some v => exact ⟨h v rfl, trivial⟩

theorem wholeItems_map {α : Type} {f : α → Json} (h : ∀ a, (f a).Whole) (items : List α) :
    WholeItems (items.map f) := by
  induction items with
  | nil => trivial
  | cons a items ih => exact ⟨h a, ih⟩

theorem render_injective {j j' : Json} (h : j.Whole) (h' : j'.Whole) (heq : j.render = j'.render) :
    j = j' := by
  have hread := parse?_render h
  rw [heq, parse?_render h'] at hread
  exact (Option.some.inj hread).symm

theorem ofOption_injective {α : Type} {f : α → Json} (hf : Function.Injective f)
    (hnull : ∀ a, f a ≠ .null) : Function.Injective (ofOption f) := by
  intro a a' h
  cases a with
  | none =>
    cases a' with
    | none => rfl
    | some a' => exact absurd h.symm (hnull a')
  | some a =>
    cases a' with
    | none => exact absurd h (hnull a)
    | some a' => rw [hf h]

theorem text_injective : Function.Injective text := fun _ _ => Json.text.inj

theorem natural_injective : Function.Injective natural := fun _ _ h =>
  Int.ofNat.inj (Json.integer.inj h)

theorem field?_append_inj {key : String} {value value' : Option Json}
    {rest rest' : List (String × Json)} (h : ∀ f ∈ rest.head?, f.1 ≠ key)
    (h' : ∀ f ∈ rest'.head?, f.1 ≠ key)
    (heq : field? key value ++ rest = field? key value' ++ rest') :
    value = value' ∧ rest = rest' := by
  cases value with
  | none =>
    cases value' with
    | none => exact ⟨rfl, heq⟩
    | some v' =>
      have hrest : rest = (key, v') :: rest' := heq
      exact absurd rfl (h (key, v') (by rw [hrest]; rfl))
  | some v =>
    cases value' with
    | none =>
      have hrest : (key, v) :: rest = rest' := heq
      exact absurd rfl (h' (key, v) (by rw [← hrest]; rfl))
    | some v' =>
      obtain ⟨hfield, hrest⟩ := List.cons.inj heq
      exact ⟨congrArg some (Prod.mk.inj hfield).2, hrest⟩

end Json

namespace Digest

theorem toLower_hexDigit : ∀ n < 16, (Text.hexDigit n).toLower = Text.hexDigit n := by decide

theorem lowerAscii_hexWord (x : UInt32) : Text.lowerAscii (hexWord x) = hexWord x := by
  unfold Text.lowerAscii hexWord
  rw [List.map_map]
  exact List.map_congr_left fun i _ => toLower_hexDigit _ (Nat.mod_lt _ (by decide))

theorem lowered_sha256 (message : List UInt8) : Text.lowered (sha256 message) = sha256 message := by
  have hwords (xs : List UInt32) :
      Text.lowerAscii (xs.flatMap hexWord) = xs.flatMap hexWord := by
    induction xs with
    | nil => rfl
    | cons x xs ih => rw [List.flatMap_cons, Text.lowerAscii_append, lowerAscii_hexWord, ih]
  unfold Text.lowered sha256
  rw [String.toList_ofList, hwords]

/-- Two messages that the digest does not tell apart. -/
structure Collide (message message' : List UInt8) : Prop where
  differ : message ≠ message'
  same : sha256 message = sha256 message'

end Digest

theorem ThemeChoice.name_injective : Function.Injective ThemeChoice.name := by
  intro c c' h
  cases c <;> cases c' <;> first | rfl | exact absurd h (by decide)

theorem ActionDetail.wholeFields_fields (detail : ActionDetail) :
    Json.WholeFields detail.fields := by
  cases detail with
  | document language _ =>
    cases language <;> simp [fields, Json.WholeFields, Json.Whole, Json.ofOption]
  | redirect _ timeout =>
    cases timeout <;> simp [fields, Json.WholeFields, Json.Whole, Json.ofOption, Json.natural]
  | requires _ version =>
    cases version <;> simp [fields, Json.WholeFields, Json.Whole, Json.ofOption]
  | none | hook | credits | tree | unknown => simp [fields, Json.WholeFields, Json.Whole]

theorem ActionDetail.fields_injective : Function.Injective ActionDetail.fields := by
  have htext {a a' : Option String} (h : Json.ofOption .text a = Json.ofOption .text a') : a = a' :=
    Json.ofOption_injective Json.text_injective (by simp) h
  have hnatural {a a' : Option Nat}
      (h : Json.ofOption Json.natural a = Json.ofOption Json.natural a') : a = a' :=
    Json.ofOption_injective Json.natural_injective (by simp [Json.natural]) h
  intro detail detail' h
  -- Two shapes differ in their first field, and two details of one shape have the same fields.
  cases detail <;> cases detail' <;> simp [fields] at h ⊢
  case document.document => exact ⟨htext h.1, h.2⟩
  case redirect.redirect => exact ⟨h.1, hnatural h.2⟩
  case hook.hook => exact h
  case credits.credits => exact h
  case requires.requires => exact ⟨h.1, htext h.2⟩
  case tree.tree => exact ThemeChoice.name_injective h
  case unknown.unknown => exact h

namespace Action

theorem whole_json (a : Action) : a.json.Whole := by
  have hpath (p : Option Path) : ∀ v ∈ p.map pathJson, v.Whole := by
    intro v hv
    obtain ⟨q, -, rfl⟩ := Option.map_eq_some_iff.1 hv
    trivial
  unfold json
  rw [Json.Whole]
  simp only [Json.wholeFields_append]
  exact ⟨⟨⟨⟨⟨trivial, trivial, trivial⟩, Json.wholeFields_field? _ (hpath a.destination)⟩,
    Json.wholeFields_field? _ (hpath a.source)⟩, trivial, trivial, trivial, trivial⟩,
    a.detail.wholeFields_fields⟩

theorem pathJson_injective : Function.Injective pathJson := by
  rintro ⟨text⟩ ⟨text'⟩ h
  exact congrArg Path.mk (Json.text.inj h)

theorem json_injective : Function.Injective json := by
  rintro ⟨kind, filename, destination, source, description, reverse, isBoardmod, detail⟩
    ⟨kind', filename', destination', source', description', reverse', isBoardmod', detail'⟩ h
  have hfields := Json.object.inj h
  simp only [List.append_assoc] at hfields
  obtain ⟨hhead, hfields⟩ := List.append_inj hfields rfl
  have hkey (source : Option Path) {rest : List (String × Json)}
      (hrest : ∀ f ∈ rest.head?, f.1 ≠ "destination") :
      ∀ f ∈ (Json.field? "source" (source.map pathJson) ++ rest).head?, f.1 ≠ "destination" := by
    cases source with
    | none => exact hrest
    | some _ => simp [Json.field?]
  obtain ⟨hdestination, hfields⟩ := Json.field?_append_inj (hkey source (by simp))
    (hkey source' (by simp)) hfields
  obtain ⟨hsource, hfields⟩ := Json.field?_append_inj (by simp) (by simp) hfields
  obtain ⟨hflags, hdetail⟩ := List.append_inj hfields rfl
  have hdestination := Option.map_injective pathJson_injective hdestination
  have hsource := Option.map_injective pathJson_injective hsource
  have hdetail := ActionDetail.fields_injective hdetail
  simp only [List.cons.injEq, Prod.mk.injEq, Json.text.injEq, Json.bool.injEq, true_and,
    and_true] at hhead hflags
  obtain ⟨hkind, rfl⟩ := hhead
  obtain ⟨rfl, rfl, rfl⟩ := hflags
  rw [ActionKind.name_injective hkind, hdestination, hsource, hdetail]

end Action

namespace Plan

/-- The bytes whose digest is the fingerprint of a plan. -/
def message (actions : List Action) : List UInt8 := (canonical actions).toUTF8.toList

theorem canonical_injective : Function.Injective canonical := by
  intro as bs h
  have hwhole (actions : List Action) : (Json.ofList Action.json actions).Whole :=
    Json.wholeItems_map Action.whole_json actions
  have hlist := Json.list.inj (Json.render_injective (hwhole as) (hwhole bs) h)
  exact List.map_injective_iff.2 Action.json_injective hlist

theorem message_injective : Function.Injective message := by
  intro as bs h
  have hbytes : (canonical as).toByteArray = (canonical bs).toByteArray := by
    refine ByteArray.ext (Array.toList_inj.1 ?_)
    rw [← Text.toList_bytes, ← Text.toList_bytes]
    exact h
  exact canonical_injective (String.toByteArray_inj.1 hbytes)

theorem message_eq (actions : List Action) : message actions =
    (Json.compact (Json.ofList Action.json actions)).flatMap String.utf8EncodeChar := by
  unfold message
  rw [Text.toList_bytes]
  exact List.toList_data_toByteArray

/-- A run that expects the fingerprint of a plan is the run of that plan, or ends before it begins:
the digested text tells two plans apart by everything in them, and the digest tells two texts apart
unless they collide. -/
theorem fingerprint_pins {surroundings : Cli.Surroundings} {s : Cli.Session} {p : Cli.Planned}
    {reviewed : List Action} {expected : String}
    (hexpected : Text.lowered (Text.trimmed expected) = Text.lowered (fingerprint reviewed))
    (hdigest : ¬Digest.Collide (message p.actions) (message reviewed)) :
    Function.Injective message ∧
      Cli.applyPlanned surroundings s p (some expected) =
        if p.actions = reviewed then Cli.applyPlanned surroundings s p none
        else Job.fail (.fingerprintMismatch (Text.trimmed expected) p.fingerprint) := by
  refine ⟨message_injective, ?_⟩
  have hcheck : Cli.checkFingerprint p (some expected) =
      if p.actions = reviewed then Cli.checkFingerprint p none
      else Job.fail (.fingerprintMismatch (Text.trimmed expected) p.fingerprint) := by
    have hlowered (actions : List Action) :
        Text.lowered (fingerprint actions) = fingerprint actions :=
      Digest.lowered_sha256 _
    unfold Cli.checkFingerprint
    dsimp only
    rw [hexpected, Cli.Planned.fingerprint, hlowered, hlowered]
    by_cases h : p.actions = reviewed
    · rw [if_pos h, if_pos (by rw [h])]
    · rw [if_neg h, if_neg fun hsame => ?_]
      exact hdigest ⟨fun hmessage => h (message_injective hmessage), hsame.symm⟩
  unfold Cli.applyPlanned
  rw [hcheck]
  split <;> rfl

/-- The reviewed plan is empty and its fingerprint is given in capitals; the plan of the run has one
action. -/
theorem fingerprint_pins_empty : ∃ (s : Cli.Session) (p : Cli.Planned),
    p.actions = [Action.make .hook "h"] ∧
    Cli.applyPlanned ⟨none, none, 1, 2⟩ s p
        (some " 4F53CDA18C2BAA0C0354BB5F9A3ECBE5ED12AB4D8E11BA873C2F11161202B945\n") =
      Job.fail (.fingerprintMismatch
        "4F53CDA18C2BAA0C0354BB5F9A3ECBE5ED12AB4D8E11BA873C2F11161202B945" p.fingerprint) := by
  let s : Cli.Session := ⟨⟨"2.1", ⟨"/b"⟩, "english", false, ⟨"Sources"⟩, ⟨"Themes"⟩,
    "Settings.php", []⟩, ⟨⟨"/s"⟩⟩⟩
  let p : Cli.Planned := ⟨⟨"p", "p", "1", none, ⟨.table []⟩⟩, .install, ⟨[]⟩,
    [Action.make .hook "h"]⟩
  have hempty : Text.lowered (Text.trimmed
      " 4F53CDA18C2BAA0C0354BB5F9A3ECBE5ED12AB4D8E11BA873C2F11161202B945\n") =
      Text.lowered (fingerprint []) := by
    change _ = Text.lowered (Digest.sha256 (message []))
    rw [message_eq]
    decide +kernel
  have hdigest : ¬Digest.Collide (message p.actions) (message []) := by
    rintro ⟨-, hsame⟩
    rw [message_eq, message_eq] at hsame
    exact absurd hsame (by decide +kernel)
  obtain ⟨-, hrun⟩ := @fingerprint_pins ⟨none, none, 1, 2⟩ s p _ _ hempty hdigest
  refine ⟨s, p, rfl, hrun.trans ?_⟩
  rw [if_neg (by decide)]
  rfl

end Plan

end Patchboard
