import Mathlib.Data.List.Basic
import Patchboard.Patch.Token
import Patchboard.Proofs.Search.Place
import Patchboard.Proofs.Text.Case
import Patchboard.Proofs.Text.Lines

set_option autoImplicit false

namespace Patchboard

/-- The tags that a kind of token is written with. -/
def TokenKind.aliases : TokenKind → List String
  | .file => ["file", "edit file"]
  | .search => ["search", "search for"]
  | .insertBefore => ["add", "add before", "before", "add above", "above"]
  | .insertAfter => ["add after", "after"]
  | .replace => ["replace"]

theorem TokenKind.mem_tags : (kind : TokenKind) → ∀ tag ∈ kind.aliases, (tag, kind) ∈ tags
  | .file | .search | .insertBefore | .insertAfter | .replace => by decide

namespace Token
open Text

/-- A block of a stream as it is written, with what stands behind it. -/
structure Block where
  kind : TokenKind
  tag : String
  opening : List Char
  body : List Char
  ending : List Char
  gap : List Char
  named : tag ∈ kind.aliases
  opens : lowerAscii opening = tag.toList
  ends : lowerAscii ending = tag.toList
  bare : '\r' ∉ body
  lasts : ¬ closing tag.toList <:+: lowerAscii body
  clear : '<' ∉ gap

namespace Block

/-- The block without the text behind it. -/
def written (b : Block) : List Char :=
  '<' :: b.opening ++ ['>', '\n'] ++ b.body ++ closing b.ending

def text (b : Block) : List Char := b.written ++ b.gap

def token (b : Block) : Token := ⟨b.kind, b.body, none, Theme.noCustom⟩

theorem mem_tags (b : Block) : (b.tag, b.kind) ∈ TokenKind.tags := b.kind.mem_tags b.tag b.named

end Block

def folded (s : List Char) : List Nat := s.map fun c => Pattern.CaseFold.fold c.toNat

theorem fold_upper : ∀ n < 26,
    Pattern.CaseFold.fold (65 + n + 32) = Pattern.CaseFold.fold (65 + n) := by
  decide +kernel

theorem fold_toLower (c : Char) :
    Pattern.CaseFold.fold c.toLower.toNat = Pattern.CaseFold.fold c.toNat := by
  rw [toNat_toLower]
  split
  · rename_i h
    obtain ⟨n, hn⟩ : ∃ n, c.toNat = 65 + n := ⟨c.toNat - 65, by omega⟩
    rw [hn]
    exact fold_upper n (by omega)
  · rfl

theorem folded_lowerAscii (s : List Char) : folded (lowerAscii s) = folded s := by
  unfold folded lowerAscii
  rw [List.map_map]
  exact List.map_congr_left fun c _ => fold_toLower c

/-- A tag stands at the start of a text when the text begins with characters that differ from it
only in case. -/
theorem tagAt?_eq_some {tag s written rest : List Char} :
    tagAt? tag s = some (written, rest) ↔ s = written ++ rest ∧ folded written = folded tag := by
  induction tag generalizing s written with
  | nil =>
    simp only [tagAt?, Option.some.injEq, Prod.mk.injEq, folded, List.map_nil, List.map_eq_nil_iff]
    constructor
    · rintro ⟨rfl, rfl⟩
      exact ⟨rfl, rfl⟩
    · rintro ⟨rfl, rfl⟩
      exact ⟨rfl, rfl⟩
  | cons p tag ih =>
    cases s with
    | nil => cases written <;> simp [tagAt?, folded]
    | cons c s =>
      cases written with
      | nil => simp [tagAt?, folded]
      | cons d written =>
        by_cases hc : foldsTo c p = true
        · have hfold : Pattern.CaseFold.fold c.toNat = Pattern.CaseFold.fold p.toNat := by
            simpa [foldsTo] using hc
          rw [tagAt?, if_pos hc, Option.map_eq_some_iff]
          constructor
          · rintro ⟨⟨w, r⟩, hw, he⟩
            cases he
            obtain ⟨rfl, hf⟩ := ih.1 hw
            exact ⟨rfl, by simpa [folded, hfold] using hf⟩
          · rintro ⟨hs, hf⟩
            cases hs
            exact ⟨(written, rest), ih.2 ⟨rfl, (List.cons.inj hf).2⟩, rfl⟩
        · rw [tagAt?, if_neg hc]
          simp only [reduceCtorEq, false_iff, not_and]
          rintro hs hf
          cases hs
          exact hc (by simpa [foldsTo] using (List.cons.inj hf).1)

theorem ofTag?_tags : ∀ tag ∈ TokenKind.tags, TokenKind.ofTag? tag.1.toList = some tag.2 := by
  decide +kernel

theorem not_mem_folded_tags : ∀ tag ∈ TokenKind.tags,
    Pattern.CaseFold.fold '>'.toNat ∉ folded tag.1.toList := by
  decide +kernel

theorem lineFeed_not_mem_tags : ∀ tag ∈ TokenKind.tags, '\n' ∉ tag.1.toList := by
  decide +kernel

theorem return_not_mem_tags : ∀ tag ∈ TokenKind.tags, '\r' ∉ tag.1.toList := by
  decide +kernel

def IsTag (written : List Char) : Prop :=
  ∃ tag ∈ TokenKind.tags, folded written = folded tag.1.toList

theorem IsTag.not_mem {written : List Char} (h : IsTag written) : '>' ∉ written := by
  obtain ⟨tag, ht, hfold⟩ := h
  intro hm
  exact not_mem_folded_tags tag ht (hfold ▸ List.mem_map_of_mem hm)

theorem findSome?_eq_of_forall {α β : Type} {f : α → Option β} {l : List α} {a : α} {b : β}
    (ha : a ∈ l) (h : f a = some b) (hu : ∀ x ∈ l, ∀ y, f x = some y → y = b) :
    l.findSome? f = some b := by
  obtain ⟨y, hy⟩ := Option.isSome_iff_exists.1
    (List.findSome?_isSome_iff.2 ⟨a, ha, Option.isSome_iff_exists.2 ⟨b, h⟩⟩)
  obtain ⟨x, hx, hxy⟩ := List.exists_of_findSome?_eq_some hy
  rw [hy, hu x hx y hxy]

theorem openingAt?_eq_some {s written rest : List Char} : openingAt? s = some (written, rest) ↔
    IsTag written ∧ s = '<' :: written ++ ['>', '\n'] ++ rest := by
  have hread : ∀ tag ∈ TokenKind.tags, ∀ s hit,
      (do let found ← tagAt? tag.1.toList s
          return (found.1, ← after? ['>', '\n'] found.2)) = some hit →
        IsTag hit.1 ∧ s = hit.1 ++ '>' :: '\n' :: hit.2 := by
    intro tag ht s hit hf
    obtain ⟨⟨w, r⟩, htag, hf⟩ := Option.bind_eq_some_iff.1 hf
    obtain ⟨behind, hbehind, hf⟩ := Option.bind_eq_some_iff.1 hf
    obtain ⟨hsplit, hfold⟩ := tagAt?_eq_some.1 htag
    cases hf
    have hr : r = '>' :: '\n' :: behind := eq_append_of_after? hbehind
    exact ⟨⟨tag, ht, hfold⟩, by rw [hsplit, hr]⟩
  constructor
  · intro h
    unfold openingAt? at h
    split at h
    · obtain ⟨tag, ht, hf⟩ := List.exists_of_findSome?_eq_some h
      obtain ⟨htag, hs⟩ := hread tag ht _ _ hf
      exact ⟨htag, by simp [hs]⟩
    · simp at h
  · rintro ⟨hwritten, rfl⟩
    obtain ⟨tag, ht, hfold⟩ := hwritten
    have hs : '<' :: written ++ ['>', '\n'] ++ rest = '<' :: (written ++ '>' :: '\n' :: rest) := by
      simp
    rw [hs, openingAt?]
    refine findSome?_eq_of_forall ht ?_ fun other hother hit hf => ?_
    · rw [tagAt?_eq_some.2 ⟨rfl, hfold⟩]
      rfl
    · -- both readings of the tag end at the first `>`
      obtain ⟨hhit, hsplit⟩ := hread other hother _ _ hf
      have hwritten : IsTag written := ⟨tag, ht, hfold⟩
      have hfirst := splitOnce?_append hwritten.not_mem ('\n' :: rest)
      rw [hsplit, splitOnce?_append hhit.not_mem] at hfirst
      cases hfirst
      rfl

theorem Block.isTag (b : Block) : IsTag b.opening :=
  ⟨_, b.mem_tags, by rw [← b.opens, folded_lowerAscii]⟩

theorem opening?_clear {gap : List Char} (h : '<' ∉ gap) (s : List Char) :
    opening? (gap ++ s) = opening? s := by
  induction gap with
  | nil => rfl
  | cons c gap ih =>
    rw [List.mem_cons, not_or] at h
    have hnone : openingAt? (c :: (gap ++ s)) = none := by
      unfold openingAt?
      split
      · rename_i hc
        exact absurd (List.cons.inj hc).1.symm h.1
      · rfl
    rw [List.cons_append, opening?, hnone]
    exact ih h.2

theorem lowerAscii_closing (tag : List Char) :
    lowerAscii (closing tag) = closing (lowerAscii tag) := by
  simp [closing, lowerAscii]

theorem body?_written (b : Block) (rest : List Char) :
    body? b.tag.toList (b.body ++ closing b.ending ++ rest) = some (b.body, rest) := by
  have hfeed : '\n' ∉ "</".toList ++ b.tag.toList ++ ['>'] := by
    simp [lineFeed_not_mem_tags (b.tag, b.kind) b.mem_tags]
  have hfirst := FirstOccurrence.of_head hfeed b.lasts (lowerAscii rest)
  have hcut : cut? (closing b.tag.toList) (lowerAscii (b.body ++ closing b.ending ++ rest)) =
      some (lowerAscii b.body, lowerAscii rest) := by
    rw [lowerAscii_append, lowerAscii_append, lowerAscii_closing, b.ends]
    exact cut?_eq_some_iff.2 hfirst
  have hlength : (closing b.tag.toList).length = (closing b.ending).length := by
    rw [← b.ends, ← lowerAscii_closing, length_lowerAscii]
  unfold body?
  rw [hcut]
  simp [length_lowerAscii, hlength]

theorem scanFrom_text (b : Block) (fuel : Nat) {lead : List Char} (hl : '<' ∉ lead)
    (rest : List Char) : scanFrom (fuel + 1) (lead ++ (b.text ++ rest)) =
      .token b.token :: scanFrom fuel (b.gap ++ rest) := by
  have hsplit : b.text ++ rest =
      '<' :: b.opening ++ ['>', '\n'] ++ (b.body ++ closing b.ending ++ (b.gap ++ rest)) := by
    simp [Block.text, Block.written]
  have hopening : opening? (lead ++ (b.text ++ rest)) =
      some (b.opening, b.body ++ closing b.ending ++ (b.gap ++ rest)) := by
    rw [opening?_clear hl, hsplit, List.cons_append, List.cons_append, opening?,
      ← List.cons_append, ← List.cons_append, openingAt?_eq_some.2 ⟨b.isTag, rfl⟩]
  rw [scanFrom, hopening]
  dsimp only
  rw [b.opens, body?_written]
  dsimp only
  rw [ofTag, ofTag?_tags (b.tag, b.kind) b.mem_tags]
  rfl

theorem scanFrom_blocks (blocks : List Block) {fuel : Nat} (hf : blocks.length < fuel)
    {lead : List Char} (hl : '<' ∉ lead) :
    scanFrom fuel (lead ++ blocks.flatMap Block.text) =
      blocks.map fun b => .token b.token := by
  induction blocks generalizing fuel lead with
  | nil =>
    obtain ⟨fuel, rfl⟩ := Nat.exists_eq_add_of_lt hf
    have hnone := opening?_clear hl []
    rw [List.flatMap_nil, scanFrom, hnone]
    rfl
  | cons b blocks ih =>
    obtain ⟨fuel, rfl⟩ : ∃ n, fuel = n + 1 := ⟨fuel - 1, by omega⟩
    rw [List.length_cons] at hf
    rw [List.flatMap_cons, scanFrom_text b fuel hl, ih (by omega) b.clear, List.map_cons]

theorem length_le_flatMap_text (blocks : List Block) :
    blocks.length ≤ (blocks.flatMap Block.text).length := by
  induction blocks with
  | nil => rfl
  | cons b blocks ih =>
    have hfirst : 0 < b.text.length := by simp [Block.text, Block.written]
    rw [List.flatMap_cons, List.length_append, List.length_cons]
    omega

def withoutReturns (s : List Char) : List Char := s.filter (· ≠ '\r')

namespace Block

/-- The same block with no carriage return in the text behind it. -/
def trimmed (b : Block) : Block :=
  { b with
    gap := withoutReturns b.gap
    clear := fun h => b.clear (List.mem_filter.1 h).1 }

theorem return_not_mem_written (b : Block) : '\r' ∉ b.written := by
  have hopening : '\r' ∉ b.opening := by
    rw [← mem_lowerAscii_iff (by decide), b.opens]
    exact return_not_mem_tags (b.tag, b.kind) b.mem_tags
  have hending : '\r' ∉ b.ending := by
    rw [← mem_lowerAscii_iff (by decide), b.ends]
    exact return_not_mem_tags (b.tag, b.kind) b.mem_tags
  simp [written, closing, hopening, hending, b.bare]

theorem withoutReturns_text (b : Block) : withoutReturns b.text = b.trimmed.text := by
  have hwritten : withoutReturns b.written = b.written :=
    List.filter_eq_self.2 fun c hc => by
      simpa using fun he : c = '\r' => b.return_not_mem_written (he ▸ hc)
  rw [text, withoutReturns, List.filter_append]
  exact congrArg (· ++ withoutReturns b.gap) hwritten

end Block

/-- However blocks are written down, they are what a stream is read as: with any text without an
opening bracket around them, and with carriage returns put in anywhere. -/
theorem tokens_written (blocks : List Block) {lead raw : List Char} (hl : '<' ∉ lead)
    (hr : withoutReturns raw = withoutReturns (lead ++ blocks.flatMap Block.text)) :
    tokens raw = blocks.map Block.token ∧ problems raw = [] := by
  have hlead : '<' ∉ withoutReturns lead := fun h => hl (List.mem_filter.1 h).1
  have htext : withoutReturns raw =
      withoutReturns lead ++ (blocks.map Block.trimmed).flatMap Block.text := by
    rw [hr, withoutReturns, List.filter_append, List.filter_flatMap, List.flatMap_map]
    exact congrArg _ (List.flatMap_congr fun b _ => b.withoutReturns_text)
  have hfuel : (blocks.map Block.trimmed).length < (withoutReturns raw).length + 1 := by
    have hlength := length_le_flatMap_text (blocks.map Block.trimmed)
    rw [htext, List.length_append]
    omega
  have hscan : scan raw = blocks.map fun b => .token b.token := by
    unfold scan
    have h := scanFrom_blocks (blocks.map Block.trimmed) hfuel hlead
    rw [← htext, List.map_map] at h
    exact h
  unfold tokens problems
  rw [hscan, List.filterMap_map, List.filterMap_map]
  exact ⟨by simp [Function.comp_def, Scanned.token?], by simp [Function.comp_def, Scanned.problem?]⟩

def nestedBlock : Block where
  kind := .insertAfter
  tag := "add after"
  opening := "Add AFTER".toList
  body := "<file>\n\n<search>\n</add>\n</SEARCH>\n<add after>".toList
  ending := "aDD after".toList
  gap := "> remarks\r\n".toList
  named := by decide
  opens := by decide
  ends := by decide
  bare := by decide
  lasts := by decide +kernel
  clear := by decide

def emptyBlock : Block where
  kind := .replace
  tag := "replace"
  opening := "REPLACE".toList
  body := []
  ending := "replace".toList
  gap := []
  named := by decide
  opens := by decide
  ends := by decide
  bare := by decide
  lasts := by decide +kernel
  clear := by decide

def nestedText : List Char :=
  ("\r\n<Add \rAFTER>\r\n<file>\r\n\r\n<sea\rrch>\n</add>\n</SEARCH>\n<add after>\r\n</aDD after\r>" ++
    "> remarks\n<REPLACE>\r\n\r\n</replace>").toList

theorem tokens_written_nested :
    withoutReturns nestedText =
        withoutReturns ("\n".toList ++ [nestedBlock, emptyBlock].flatMap Block.text) ∧
      tokens nestedText = [⟨.insertAfter, nestedBlock.body, none, Theme.noCustom⟩,
        ⟨.replace, [], none, Theme.noCustom⟩] ∧
      problems nestedText = [] := by
  have hraw : withoutReturns nestedText =
      withoutReturns ("\n".toList ++ [nestedBlock, emptyBlock].flatMap Block.text) := by
    decide +kernel
  exact ⟨hraw, tokens_written [nestedBlock, emptyBlock] (by decide) hraw⟩

end Token

end Patchboard
