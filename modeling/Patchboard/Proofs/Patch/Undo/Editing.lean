import Patchboard.Patch.Boardmod
import Patchboard.Proofs.Text.Cuts

set_option autoImplicit false

/-!
Taking back an edit of a tagged stream. An edit changes every place of the file where its text is
found, and so does undoing it. What was put behind the text is taken away from exactly those places;
of what was put before the text this holds where each addition is found again as it stands.
-/

namespace Patchboard.Boardmod
open Text

/-- An edit that is carried out gives the open file a text, and nothing but the exchange is
recorded. -/
def State.CarriesOut (s : State) (o : PatchOptions) (t : Token) (search : List Char)
    (f : OpenFile) (text : List Char) : Prop :=
  s.applyEdit o t search f =
    { s with
      file := some { f with text }
      progress := s.progress.note f.path f.theme
        (.replace (.succeeded (String.ofList search) (String.ofList t.text) t.kind.position)) }

theorem canEdit_of_contained {needle text : List Char} (hne : needle ≠ []) (hin : needle <:+: text) :
    canEdit needle text = true := by
  unfold canEdit contains
  simp [hne, infix_of_cut?.2 hin]

theorem carriesOut_of_contained {o : PatchOptions} {t : Token} (search : List Char) {f : OpenFile}
    (hne : (exchange o.undo t search).1 ≠ []) (hin : (exchange o.undo t search).1 <:+: f.text)
    (s : State) : s.CarriesOut o t search f
      (replaceAll (exchange o.undo t search).1 (exchange o.undo t search).2 f.text) := by
  unfold State.CarriesOut State.applyEdit
  dsimp only
  rw [if_pos (canEdit_of_contained hne hin)]

theorem infix_joined (r : List Char) {gaps : List (List Char)} (h : gaps ≠ [])
    (last : List Char) : r <:+: joined r gaps last := by
  cases gaps with
  | nil => exact absurd rfl h
  | cons gap gaps =>
    rw [joined_cons]
    exact ⟨gap, joined r gaps last, rfl⟩

variable {o : PatchOptions} {t : Token} {search : List Char} {f : OpenFile}
  {gaps : List (List Char)} {last : List Char}

theorem carriesOut_edited (ho : o.undo = false) (hs : search ≠ []) (hin : search <:+: f.text)
    (hcuts : Cuts search f.text gaps last) (s : State) :
    s.CarriesOut o t search f (joined (edited t.kind t.text search) gaps last) := by
  have he : exchange o.undo t search = (search, edited t.kind t.text search) := by
    simp [exchange, ho]
  have hout := carriesOut_of_contained (o := o) (t := t) search (by rw [he]; exact hs)
    (by rw [he]; exact hin) s
  rwa [he, hcuts.replaceAll_eq hs] at hout

theorem carriesOut_undone (ho : o.undo = true) (hne : edited t.kind t.text search ≠ [])
    (hgaps : gaps ≠ []) (last : List Char) (s : State) :
    s.CarriesOut o t search
      { f with text := joined (edited t.kind t.text search) gaps last }
      (replaceAll (edited t.kind t.text search) search
        (joined (edited t.kind t.text search) gaps last)) := by
  have he : exchange o.undo t search = (edited t.kind t.text search, search) := by
    simp [exchange, ho]
  have hout := carriesOut_of_contained (o := o) (t := t) search
    (f := { f with text := joined (edited t.kind t.text search) gaps last })
    (by rw [he]; exact hne) (by rw [he]; exact infix_joined _ hgaps last) s
  rwa [he] at hout

/-- An addition behind every occurrence of a text is taken away by undoing it, and the file is as it
was, however the text and the addition overlap. -/
theorem insertAfter_undone {o' : PatchOptions} (ho : o.undo = false) (ho' : o'.undo = true)
    (ht : t.kind = .insertAfter) (hs : search ≠ []) (hin : search <:+: f.text) (s s' : State) :
    ∃ gaps last, Cuts search f.text gaps last ∧
      s.CarriesOut o t search f (joined (search ++ '\n' :: t.text) gaps last) ∧
      s'.CarriesOut o' t search
        { f with text := joined (search ++ '\n' :: t.text) gaps last } f.text := by
  obtain ⟨gaps, last, hcuts⟩ := exists_cuts hs f.text
  have he : edited t.kind t.text search = search ++ '\n' :: t.text := by rw [ht, edited]
  have hne : edited t.kind t.text search ≠ [] := by simp [he]
  have hdone := carriesOut_edited (t := t) ho hs hin hcuts s
  have hback := carriesOut_undone (f := f) ho' hne (hcuts.ne_nil hin) last s'
  have hlong := hcuts.lengthened ('\n' :: t.text)
  rw [he, hlong.replaceAll_eq (by simp), hcuts.joined_eq] at hback
  rw [he] at hdone
  exact ⟨gaps, last, hcuts, hdone, hback⟩

/-- A file that is open, before anything is done to it. -/
def holding (f : OpenFile) : State := ⟨some f, none, ⟨⟨⟨[], []⟩, .byMode⟩, .empty⟩⟩

def overlapping : OpenFile := ⟨⟨"/f"⟩, 0, "a\na\na\na".toList, false⟩

def lineBehind : Token := ⟨.insertAfter, "a".toList, none, 0⟩

theorem insertAfter_undone_overlapping :
    "a\na".toList ≠ [] ∧ "a\na".toList <:+: overlapping.text ∧
    ∃ gaps last, Cuts "a\na".toList overlapping.text gaps last ∧
      (holding overlapping).CarriesOut ⟨false, false⟩ lineBehind "a\na".toList overlapping
        (joined ("a\na".toList ++ '\n' :: lineBehind.text) gaps last) ∧
      (holding overlapping).CarriesOut ⟨false, true⟩ lineBehind "a\na".toList
        { overlapping with text := joined ("a\na".toList ++ '\n' :: lineBehind.text) gaps last }
        overlapping.text := by
  have hs : "a\na".toList ≠ [] := by simp
  have hin : "a\na".toList <:+: overlapping.text := ⟨[], "\na\na".toList, by decide⟩
  exact ⟨hs, hin, insertAfter_undone (t := lineBehind) rfl rfl rfl hs hin _ _⟩

end Patchboard.Boardmod
