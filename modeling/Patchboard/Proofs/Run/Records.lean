import Patchboard.Proofs.Json.RoundTrip
import Patchboard.Run

set_option autoImplicit false

namespace Patchboard

namespace Record

theorem natural?_natural {bound n : Nat} (h : n < bound) :
    natural? bound (some (Json.natural n)) = some n := by
  have hn : (0 : Int) ≤ n ∧ (n : Int) < bound := by omega
  simp [natural?, Json.natural, hn]

end Record

namespace RunMetadata

/-- The numbers of the metadata are below the bounds that reading puts on them. -/
structure Sized (m : RunMetadata) : Prop where
  version : m.version < UInt32.size
  startedAt : m.startedAt < UInt64.size

theorem whole_json (m : RunMetadata) : m.json.Whole := by
  unfold json
  cases m.fingerprint <;> simp [Json.field?, Json.Whole, Json.WholeFields, Json.natural]

theorem ofJson?_of_values {j : Json} {version run package mode status startedAt fingerprint :
    Option Json} (h : Record.values? keys 6 j =
      some [version, run, package, mode, status, startedAt, fingerprint]) :
    ofJson? j = do
      let version ← Record.natural? UInt32.size version
      let run ← Record.text? run
      let package ← Record.text? package
      let mode ← Record.text? mode
      let status ← Record.text? status
      let startedAt ← Record.natural? UInt64.size startedAt
      let fingerprint ← Record.optionalText? fingerprint
      return ⟨version, run, package, mode, status, startedAt, fingerprint⟩ := by
  rw [ofJson?, h]
  rfl

theorem values?_json (m : RunMetadata) : Record.values? keys 6 m.json =
    some [some (Json.natural m.version), some (.text m.run), some (.text m.package),
      some (.text m.mode), some (.text m.status), some (Json.natural m.startedAt),
      m.fingerprint.map Json.text] := by
  unfold json
  cases m.fingerprint <;> simp [Record.values?, Record.hasDuplicate, keys, Json.field?]

theorem ofJson?_json {m : RunMetadata} (h : m.Sized) : ofJson? m.json = some m := by
  have hfingerprint : Record.optionalText? (m.fingerprint.map Json.text) = some m.fingerprint := by
    cases m.fingerprint <;> rfl
  rw [ofJson?_of_values m.values?_json, Record.natural?_natural h.version,
    Record.natural?_natural h.startedAt, hfingerprint]
  rfl

theorem read_renderIndented {m : RunMetadata} (h : m.Sized) :
    (Json.parse? m.json.renderIndented).bind ofJson? = some m := by
  rw [Json.parse?_renderIndented m.whole_json, Option.bind_some, ofJson?_json h]

end RunMetadata

namespace JournalEntry

theorem whole_json (e : JournalEntry) : e.json.Whole := by
  simp [json, Json.Whole, Json.WholeFields, Json.natural]

theorem ofJson?_of_values {j : Json} {seq action target status : Option Json}
    (h : Record.values? keys 4 j = some [seq, action, target, status]) :
    ofJson? j = do
      let seq ← Record.natural? UInt64.size seq
      let action ← Record.text? action
      let target ← Record.text? target
      let status ← Record.text? status
      return ⟨seq, action, target, status⟩ := by
  rw [ofJson?, h]
  rfl

theorem values?_json (e : JournalEntry) : Record.values? keys 4 e.json =
    some [some (Json.natural e.seq), some (.text e.action), some (.text e.target),
      some (.text e.status)] := by
  simp [Record.values?, Record.hasDuplicate, keys, json]

theorem ofJson?_json {e : JournalEntry} (h : e.seq < UInt64.size) : ofJson? e.json = some e := by
  rw [ofJson?_of_values e.values?_json, Record.natural?_natural h]
  rfl

def line (e : JournalEntry) : List Char := e.json.compact

theorem newline_not_mem_line (e : JournalEntry) : '\n' ∉ e.line :=
  Json.newline_not_mem_compact e.json e.whole_json

theorem getLast?_line (e : JournalEntry) : e.line.getLast? = some '}' := by
  unfold line json
  rw [Json.compact, List.getLast?_append]
  rfl

theorem isBlank_line (e : JournalEntry) : e.line.all Text.isBlank = false := by
  rw [List.all_eq_false]
  exact ⟨'}', List.mem_of_getLast? e.getLast?_line, by decide⟩

theorem readLine_line {e : JournalEntry} (h : e.seq < UInt64.size) (p : Path) :
    Run.readLine p e.line = .ok e := by
  have hparse : Json.parse? (String.ofList e.line) = some e.json := Json.parse?_render e.whole_json
  rw [Run.readLine, hparse, Option.bind_some, ofJson?_json h]

end JournalEntry

namespace Run

def journalText (entries : List JournalEntry) : String :=
  String.ofList (Text.unlines (entries.map JournalEntry.line))

theorem journalText_concat (entries : List JournalEntry) (e : JournalEntry) :
    journalText (entries ++ [e]) = journalText entries ++ (e.json.render ++ "\n") := by
  rw [← String.toList_inj]
  simp [journalText, Text.unlines, JournalEntry.line, Json.render]

theorem read_journalText {entries : List JournalEntry} (h : ∀ e ∈ entries, e.seq < UInt64.size)
    (p : Path) :
    ((Text.lines (journalText entries).toList).filter fun s => !s.all Text.isBlank).mapM
      (readLine p) = .ok entries := by
  have hlines : Text.lines (journalText entries).toList = entries.map JournalEntry.line := by
    rw [journalText, String.toList_ofList]
    refine Text.lines_unlines (fun l hl => ?_) fun l hl => ?_ <;>
      obtain ⟨e, -, rfl⟩ := List.mem_map.1 hl
    · exact e.newline_not_mem_line
    · simp [e.getLast?_line]
  have hfilter : (entries.map JournalEntry.line).filter (fun s => !s.all Text.isBlank) =
      entries.map JournalEntry.line := by
    refine List.filter_eq_self.2 fun l hl => ?_
    obtain ⟨e, -, rfl⟩ := List.mem_map.1 hl
    simp [e.isBlank_line]
  rw [hlines, hfilter]
  clear hlines hfilter
  induction entries with
  | nil => rfl
  | cons e entries ih =>
    have hfirst := JournalEntry.readLine_line (h e (List.mem_cons_self ..)) p
    have hrest := ih fun other ho => h other (List.mem_cons_of_mem _ ho)
    rw [List.map_cons, List.mapM_cons, hfirst, hrest]
    rfl

end Run

end Patchboard
