import Patchboard.Proofs.Patch.Stops

set_option autoImplicit false

/-!
The scan of a stream by byte offsets: closing tags are looked for in a copy with lowered letters,
and the offsets that are found there cut the text itself. A cut beyond the end or within a character
gives nothing. No cut fails, and the rounds of the scan are those of the scan over characters.
-/

namespace Patchboard.Token
open Text Pattern

def bytes : List Char → Nat
  | [] => 0
  | c :: s => c.utf8Size + bytes s

theorem bytes_append (s s' : List Char) : bytes (s ++ s') = bytes s + bytes s' := by
  induction s with
  | nil => simp [bytes]
  | cons c s ih => simp [bytes, ih, Nat.add_assoc]

theorem utf8Size_toLower (c : Char) : c.toLower.utf8Size = c.utf8Size := by
  have hlower := toNat_toLower c
  split at hlower
  · have hsmall : ∀ d : Char, d.toNat ≤ 127 → d.utf8Size = 1 := fun d hd =>
      Char.utf8Size_eq_one_iff.2 (UInt32.le_iff_toNat_le.2 hd)
    rw [hsmall c (by omega), hsmall c.toLower (by omega)]
  · rw [Char.toNat_inj.1 hlower]

theorem bytes_lowerAscii (s : List Char) : bytes (lowerAscii s) = bytes s := by
  induction s with
  | nil => rfl
  | cons c s ih =>
    change c.toLower.utf8Size + bytes (lowerAscii s) = c.utf8Size + bytes s
    rw [ih, utf8Size_toLower]

def Boundary (text : List Char) (n : Nat) : Prop :=
  ∃ before after, text = before ++ after ∧ bytes before = n

def halves? : List Char → Nat → Option (List Char × List Char)
  | s, 0 => some ([], s)
  | [], _ + 1 => none
  | c :: s, n + 1 =>
    if c.utf8Size ≤ n + 1 then
      (halves? s (n + 1 - c.utf8Size)).map fun halves => (c :: halves.1, halves.2)
    else none

def slice? (s : List Char) (first last : Nat) : Option (List Char) := do
  guard (first ≤ last)
  let (_, rest) ← halves? s first
  let (part, _) ← halves? rest (last - first)
  return part

theorem halves?_append (s s' : List Char) : halves? (s ++ s') (bytes s) = some (s, s') := by
  induction s with
  | nil => cases s' <;> rfl
  | cons c s ih =>
    obtain ⟨n, hn⟩ : ∃ n, c.utf8Size = n + 1 := ⟨c.utf8Size - 1, by have := c.utf8Size_pos; omega⟩
    have hsize : bytes (c :: s) = n + bytes s + 1 := by
      rw [bytes, hn]
      omega
    rw [List.cons_append, hsize, halves?, if_pos (by omega),
      show n + bytes s + 1 - c.utf8Size = bytes s by omega, ih]
    rfl

theorem slice?_append (before part after : List Char) :
    slice? (before ++ part ++ after) (bytes before) (bytes before + bytes part) = some part := by
  unfold slice?
  rw [List.append_assoc, halves?_append, Nat.add_sub_cancel_left]
  simp [halves?_append, guard]

/-- One round of the scan: where it looks for an opening tag, the tag, where the body starts, and
where the body ends with the body itself if the tag is closed. -/
structure Round where
  cursor : Nat
  written : List Char
  start : Nat
  body : Option (Nat × List Char)
deriving DecidableEq

namespace Round

def opening (r : Round) : List Char := '<' :: r.written ++ ['>', '\n']

def closing (r : Round) : List Char := Token.closing (lowerAscii r.written)

def finish? (r : Round) : Option Nat := r.body.map Prod.fst

/-- Where the scan goes on. -/
def next (r : Round) : Nat :=
  match r.finish? with
  | none => r.start
  | some finish => finish + bytes r.closing

/-- The offsets at which the text or its lowered copy is cut, or from which it is searched. -/
def offsets (r : Round) : List Nat := [r.cursor, r.start] ++ r.finish?.toList ++ [r.next]

def result (r : Round) : Scanned :=
  match r.body with
  | none => .unterminated (lowerAscii r.written)
  | some (_, body) => ofTag (lowerAscii r.written) body

def token? (r : Round) : Option Token := r.result.token?

def problem? (r : Round) : Option Problem := r.result.problem?

end Round

/-- The body of a tag that starts at an offset, with the offset of its end. A failed cut gives
nothing, a tag that is not closed no body. -/
def bodyFrom? (text tag : List Char) (start : Nat) : Option (Option (Nat × List Char)) := do
  let (_, lowered) ← halves? (lowerAscii text) start
  match cut? (closing tag) lowered with
  | none => return none
  | some (before, _) =>
    let body ← slice? text start (start + bytes before)
    return some (start + bytes before, body)

/-- The round from an offset on. A failed cut gives nothing, a text without an opening tag no
round. -/
def round? (text : List Char) (cursor : Nat) : Option (Option Round) := do
  let (_, rest) ← halves? text cursor
  match firstWhere openingAt? rest with
  | none => return none
  | some (passed, written, _) =>
    let start := cursor + bytes (passed ++ ('<' :: written ++ ['>', '\n']))
    let body ← bodyFrom? text (lowerAscii written) start
    return some ⟨cursor, written, start, body⟩

def rounds? (text : List Char) : Nat → Nat → Option (List Round)
  | 0, _ => none
  | fuel + 1, cursor => do
    match ← round? text cursor with
    | none => return []
    | some r => return r :: (← rounds? text fuel r.next)

theorem bodyFrom?_eq {text before rest : List Char} (ht : text = before ++ rest) (tag : List Char) :
    bodyFrom? text tag (bytes before) = some ((body? tag rest).map fun halves =>
      (bytes before + bytes halves.1, halves.1)) := by
  have hlowered : halves? (lowerAscii text) (bytes before) =
      some (lowerAscii before, lowerAscii rest) := by
    rw [ht, lowerAscii_append, ← bytes_lowerAscii, halves?_append]
  rw [bodyFrom?, hlowered, body?]
  cases hcut : cut? (closing tag) (lowerAscii rest) with
  | none => simp [hcut]
  | some halves =>
    have hwhole := (firstOccurrence_of_cut? hcut).whole
    have hbody : lowerAscii (rest.take halves.1.length) = halves.1 := by
      rw [lowerAscii, List.map_take, ← lowerAscii, hwhole, List.append_assoc, List.take_left]
    have hbytes : bytes halves.1 = bytes (rest.take halves.1.length) := by
      rw [← bytes_lowerAscii (rest.take _), hbody]
    have hslice := slice?_append before (rest.take halves.1.length) (rest.drop halves.1.length)
    rw [List.append_assoc, List.take_append_drop, ← ht] at hslice
    simp [hcut, hbytes, hslice]

def Stop.round (cursor : Nat) (p : Stop) : Round :=
  let start := cursor + bytes p.opened
  ⟨cursor, p.written, start, (body? p.tag p.behind).map fun halves =>
    (start + bytes halves.1, halves.1)⟩

def roundsFrom : Nat → List Stop → List Round
  | _, [] => []
  | cursor, p :: later => p.round cursor :: roundsFrom (p.round cursor).next later

theorem round?_done {text before s : List Char} (ht : text = before ++ s)
    (h : ∀ p : Stop, ¬ p.IsIn s) : round? text (bytes before) = some none := by
  have hnone : firstWhere openingAt? s = none := by
    cases hs : firstWhere openingAt? s with
    | none => rfl
    | some hit => exact absurd (isFirst_of_firstWhere hs).toIsIn (h _)
  simp [round?, ht, halves?_append, hnone]

theorem Stop.IsFirst.round?_eq {text before s : List Char} (ht : text = before ++ s) {p : Stop}
    (hp : p.IsFirst s) : round? text (bytes before) = some (some (p.round (bytes before))) := by
  have hsplit : text = (before ++ p.opened) ++ p.behind := by
    rw [ht, hp.whole, List.append_assoc]
  have hbody := bodyFrom?_eq hsplit p.tag
  rw [bytes_append, opened, bracketed, tag] at hbody
  rw [round?, ht, halves?_append, ← ht]
  simp only [Option.bind_eq_bind, Option.bind_some, hp.firstWhere_eq, hbody]
  rfl

theorem Stop.round_unclosed {p : Stop} (h : ¬ p.IsClosed) (cursor : Nat) :
    (p.round cursor).body = none := by
  rw [round, body?_eq_none h, Option.map_none]

theorem Stop.Encloses.round_eq {p : Stop} {body ending rest : List Char}
    (h : p.Encloses body ending rest) (before : List Char) :
    (p.round (bytes before)).body = some (bytes (before ++ p.opened ++ body), body) := by
  rw [round, h.body?_eq, Option.map_some, bytes_append, bytes_append]

theorem Stop.next_unclosed {p : Stop} (h : ¬ p.IsClosed) (before : List Char) :
    (p.round (bytes before)).next = bytes (before ++ p.opened) := by
  rw [Round.next, Round.finish?, round_unclosed h, bytes_append]
  rfl

theorem Stop.Encloses.next_eq {p : Stop} {body ending rest : List Char}
    (h : p.Encloses body ending rest) (before : List Char) :
    (p.round (bytes before)).next = bytes (before ++ p.opened ++ body ++ ending) := by
  have hending : bytes ending = bytes (closing p.tag) := by rw [← h.ends, bytes_lowerAscii]
  rw [Round.next, Round.finish?, h.round_eq, bytes_append _ ending, hending]
  rfl

theorem Stops.rounds?_eq {s : List Char} {stops : List Stop} (h : Stops s stops)
    {text before : List Char} (ht : text = before ++ s) {fuel : Nat} (hf : s.length < fuel) :
    rounds? text fuel (bytes before) = some (roundsFrom (bytes before) stops) := by
  induction h generalizing before fuel with
  | done none =>
    obtain ⟨fuel, rfl⟩ : ∃ n, fuel = n + 1 := ⟨fuel - 1, by omega⟩
    rw [rounds?, round?_done ht none]
    rfl
  | @unclosed s p later first open' rest ih =>
    obtain ⟨fuel, rfl⟩ : ∃ n, fuel = n + 1 := ⟨fuel - 1, by omega⟩
    have hlength := first.length_lt
    have hlater := @ih (before ++ p.opened) (by rw [ht, first.whole, List.append_assoc]) fuel
      (by omega)
    rw [rounds?, first.round?_eq ht, roundsFrom]
    simp only [Option.bind_eq_bind, Option.bind_some]
    rw [Stop.next_unclosed open', hlater]
    rfl
  | @closed s body ending behind p later first encloses rest ih =>
    obtain ⟨fuel, rfl⟩ : ∃ n, fuel = n + 1 := ⟨fuel - 1, by omega⟩
    have hlength := first.length_lt
    have hlength' := encloses.length_le
    have hlater := @ih (before ++ p.opened ++ body ++ ending)
      (by rw [ht, first.whole, encloses.whole]; simp) fuel (by omega)
    rw [rounds?, first.round?_eq ht, roundsFrom]
    simp only [Option.bind_eq_bind, Option.bind_some]
    rw [encloses.next_eq, hlater]
    rfl

/-- What a round has found in a text. -/
structure Round.Sound (r : Round) (text : List Char) : Prop where
  boundary : ∀ n ∈ r.offsets, Boundary text n ∧ Boundary (lowerAscii text) n
  forward : r.cursor < r.start ∧ r.start ≤ r.next
  within : ∀ finish ∈ r.finish?, r.start ≤ finish ∧ finish < r.next
  isTag : IsTag r.written
  closed : ∀ finish body, r.body = some (finish, body) → ∃ before ending after,
    text = before ++ body ++ ending ++ after ∧ r.opening <:+ before ∧ bytes before = r.start ∧
      bytes (before ++ body) = finish ∧ lowerAscii ending = r.closing ∧
      FirstOccurrence r.closing (lowerAscii (body ++ ending ++ after)) (lowerAscii body)
        (lowerAscii after)
  unclosed : r.body = none → ∃ before after,
    text = before ++ after ∧ r.opening <:+ before ∧ bytes before = r.start ∧
      ¬ r.closing <:+: lowerAscii after

/-- One round comes before another. -/
structure Round.Precedes (p q : Round) : Prop where
  cursor : p.cursor < q.cursor
  start : p.start < q.start
  next : p.next ≤ q.cursor
  finish : ∀ m ∈ p.finish?, m < q.start ∧ ∀ n ∈ q.finish?, m < n

theorem bytes_pos {s : List Char} (h : s ≠ []) : 0 < bytes s := by
  cases s with
  | nil => exact absurd rfl h
  | cons c s => exact Nat.add_pos_left c.utf8Size_pos _

theorem boundary_of_prefix {text before : List Char} (h : before <+: text) :
    Boundary text (bytes before) ∧ Boundary (lowerAscii text) (bytes before) := by
  obtain ⟨after, rfl⟩ := h
  exact ⟨⟨before, after, rfl, rfl⟩,
    ⟨lowerAscii before, lowerAscii after, lowerAscii_append .., bytes_lowerAscii _⟩⟩

theorem Stop.start_lt (p : Stop) (before : List Char) :
    bytes before < bytes (before ++ p.opened) := by
  have hpos : 0 < bytes p.opened := bytes_pos (by simp [opened, bracketed])
  rw [bytes_append]
  omega

theorem Stop.round_start (p : Stop) (before : List Char) :
    (p.round (bytes before)).start = bytes (before ++ p.opened) :=
  (bytes_append ..).symm

section
variable {text before s : List Char} {p : Stop} (ht : text = before ++ s) (hp : p.IsFirst s)
include ht hp

theorem Stop.IsFirst.sound_unclosed (hc : ¬ p.IsClosed) :
    (p.round (bytes before)).Sound text := by
  have hbody := round_unclosed hc (bytes before)
  have hnext := next_unclosed hc before
  have hstart := p.round_start before
  have hsplit : text = before ++ p.opened ++ p.behind := by
    rw [ht, hp.whole, List.append_assoc]
  refine ⟨fun n hn => ?_, ⟨?_, ?_⟩, fun finish hf => ?_, hp.isTag, fun finish body hb => ?_,
    fun _ => ?_⟩
  · rw [Round.offsets, Round.finish?, hbody, hnext, hstart] at hn
    have hn : n = bytes before ∨ n = bytes (before ++ p.opened) := by simpa [round] using hn
    rcases hn with rfl | rfl
    · exact boundary_of_prefix ⟨s, ht.symm⟩
    · exact boundary_of_prefix ⟨p.behind, hsplit.symm⟩
  · rw [hstart]
    exact p.start_lt before
  · rw [hstart, hnext]
  · simp [Round.finish?, hbody] at hf
  · simp [hbody] at hb
  · exact ⟨before ++ p.opened, p.behind, hsplit, ⟨before ++ p.passed, by simp [opened]; rfl⟩,
      hstart.symm, hc⟩

theorem Stop.IsFirst.sound_closed {body ending rest : List Char}
    (hb : p.Encloses body ending rest) : (p.round (bytes before)).Sound text := by
  have hbody := hb.round_eq before
  have hnext := hb.next_eq before
  have hstart := p.round_start before
  have hsplit : text = before ++ p.opened ++ body ++ ending ++ rest := by
    rw [ht, hp.whole, hb.whole]
    simp
  have hending : 0 < bytes ending := by
    rw [← bytes_lowerAscii, hb.ends]
    exact bytes_pos (by simp [closing])
  refine ⟨fun n hn => ?_, ⟨?_, ?_⟩, fun finish hf => ?_, hp.isTag, fun finish b hb' => ?_,
    fun hn => ?_⟩
  · rw [Round.offsets, Round.finish?, hbody, hnext, hstart] at hn
    have hn : n = bytes before ∨ n = bytes (before ++ p.opened) ∨
        n = bytes (before ++ p.opened ++ body) ∨
        n = bytes (before ++ p.opened ++ body ++ ending) := by simpa [round] using hn
    rcases hn with rfl | rfl | rfl | rfl <;> refine boundary_of_prefix ?_
    · exact ⟨s, ht.symm⟩
    · exact ⟨body ++ ending ++ rest, by simp [hsplit]⟩
    · exact ⟨ending ++ rest, by simp [hsplit]⟩
    · exact ⟨rest, hsplit.symm⟩
  · rw [hstart]
    exact p.start_lt before
  · rw [hstart, hnext, List.append_assoc, bytes_append (before ++ p.opened)]
    exact Nat.le_add_right ..
  · have hfinish : bytes (before ++ p.opened ++ body) = finish := by
      simpa [Round.finish?, hbody] using hf
    rw [hstart, hnext, bytes_append _ ending, hfinish, ← hfinish, bytes_append _ body]
    omega
  · rw [hbody] at hb'
    cases hb'
    refine ⟨before ++ p.opened, ending, rest, hsplit, ⟨before ++ p.passed, by simp [opened]; rfl⟩,
      hstart.symm, rfl, hb.ends, ?_⟩
    rw [← hb.whole]
    exact hb.first
  · simp [hbody] at hn

end

theorem Stops.sound_rounds {s : List Char} {stops : List Stop} (h : Stops s stops)
    {text before : List Char} (ht : text = before ++ s) :
    ∀ r ∈ roundsFrom (bytes before) stops, r.Sound text := by
  induction h generalizing before with
  | done none => simp [roundsFrom]
  | @unclosed s p later first open' rest ih =>
    have hlater := @ih (before ++ p.opened) (by rw [ht, first.whole, List.append_assoc])
    rw [roundsFrom, Stop.next_unclosed open']
    exact List.forall_mem_cons.2 ⟨first.sound_unclosed ht open', hlater⟩
  | @closed s body ending behind p later first encloses rest ih =>
    have hlater := @ih (before ++ p.opened ++ body ++ ending)
      (by rw [ht, first.whole, encloses.whole]; simp)
    rw [roundsFrom, encloses.next_eq]
    exact List.forall_mem_cons.2 ⟨first.sound_closed ht encloses, hlater⟩

theorem result_roundsFrom (stops : List Stop) (cursor : Nat) :
    (roundsFrom cursor stops).map Round.result = stops.map Stop.result := by
  induction stops generalizing cursor with
  | nil => rfl
  | cons p later ih =>
    have hfirst : (p.round cursor).result = p.result := by
      rw [Round.result, Stop.result, Stop.round]
      cases body? p.tag p.behind with
      | none => rfl
      | some halves => rfl
    rw [roundsFrom, List.map_cons, List.map_cons, hfirst, ih]

theorem precedes_of_sound {text : List Char} {p q : Round} (hp : p.Sound text) (hq : q.Sound text)
    (h : p.next ≤ q.cursor) : p.Precedes q := by
  have hpf := hp.forward
  have hqf := hq.forward
  refine ⟨by omega, by omega, h, fun m hm => ?_⟩
  have hpw := hp.within m hm
  refine ⟨by omega, fun n hn => ?_⟩
  have hqw := hq.within n hn
  omega

theorem cursor_le_of_mem {text : List Char} (stops : List Stop) (cursor : Nat)
    (h : ∀ r ∈ roundsFrom cursor stops, r.Sound text) :
    ∀ r ∈ roundsFrom cursor stops, cursor ≤ r.cursor := by
  induction stops generalizing cursor with
  | nil => simp [roundsFrom]
  | cons p later ih =>
    rw [roundsFrom] at h ⊢
    obtain ⟨hp, hlater⟩ := List.forall_mem_cons.1 h
    refine List.forall_mem_cons.2 ⟨Nat.le_refl _, fun r hr => ?_⟩
    have hnext := ih _ hlater r hr
    have hforward : cursor < (p.round cursor).start := hp.forward.1
    have hforward' := hp.forward.2
    omega

theorem pairwise_roundsFrom {text : List Char} (stops : List Stop) (cursor : Nat)
    (h : ∀ r ∈ roundsFrom cursor stops, r.Sound text) :
    (roundsFrom cursor stops).Pairwise Round.Precedes := by
  induction stops generalizing cursor with
  | nil => exact List.Pairwise.nil
  | cons p later ih =>
    rw [roundsFrom] at h ⊢
    obtain ⟨hp, hlater⟩ := List.forall_mem_cons.1 h
    refine List.pairwise_cons.2 ⟨fun q hq => ?_, ih _ hlater⟩
    exact precedes_of_sound hp (hlater q hq) (cursor_le_of_mem later _ hlater q hq)

theorem mem_aliases : ∀ tag ∈ TokenKind.tags, tag.1 ∈ tag.2.aliases := by
  decide +kernel

theorem Round.token?_eq_some {r : Round} {t : Token} (h : r.token? = some t) :
    (∃ finish, r.body = some (finish, t.text)) ∧
      ∃ tag ∈ t.kind.aliases, lowerAscii r.written = tag.toList := by
  unfold token? result at h
  split at h
  · simp [Scanned.token?] at h
  · rename_i finish body hbody
    cases hkind : TokenKind.ofTag? (lowerAscii r.written) with
    | none => simp [ofTag, hkind, Scanned.token?] at h
    | some kind =>
      obtain ⟨tag, htag, rfl⟩ := Option.map_eq_some_iff.1 hkind
      have hname : tag.1.toList = lowerAscii r.written := by simpa using List.find?_some htag
      have ht : (⟨tag.2, body, none, Theme.noCustom⟩ : Token) = t := by
        simpa [ofTag, hkind, Scanned.token?] using h
      subst ht
      exact ⟨⟨finish, hbody⟩, tag.1, mem_aliases tag (List.mem_of_find?_eq_some htag), hname.symm⟩

theorem Round.problem?_eq_some {r : Round} {e : Problem} (h : r.problem? = some e) :
    r.body = none ∧ e = .malformedPatch
      ("unterminated <" ++ String.ofList (lowerAscii r.written) ++ "> tag") := by
  unfold problem? result at h
  split at h
  · rename_i hbody
    exact ⟨hbody, (Option.some.inj h).symm⟩
  · unfold ofTag at h
    split at h <;> simp [Scanned.problem?] at h

/-- The scan by offsets comes to its end without a failed cut, whatever the stream is. Its rounds
come one after another and each of them has found what it should. A token of the stream is the body
of a round with a closed tag, and the tag is an alias of its kind; a problem names the tag of a
round that is not closed. -/
theorem rounds_sound (raw : List Char) :
    ∃ rounds, (∀ fuel, (withoutReturns raw).length < fuel →
        rounds? (withoutReturns raw) fuel 0 = some rounds) ∧
      tokens raw = rounds.filterMap Round.token? ∧ problems raw = rounds.filterMap Round.problem? ∧
      rounds.Pairwise Round.Precedes ∧
      ∀ r ∈ rounds, r.Sound (withoutReturns raw) ∧
        (∀ t, r.token? = some t → (∃ finish, r.body = some (finish, t.text)) ∧
          ∃ tag ∈ t.kind.aliases, lowerAscii r.written = tag.toList) ∧
        ∀ e, r.problem? = some e → r.body = none ∧ e = .malformedPatch
          ("unterminated <" ++ String.ofList (lowerAscii r.written) ++ "> tag") := by
  obtain ⟨stops, hstops⟩ := exists_stops (withoutReturns raw)
  have hsound := hstops.sound_rounds (List.nil_append _).symm
  obtain ⟨htokens, hproblems⟩ := hstops.tokens_eq
  have hresults := result_roundsFrom stops 0
  refine ⟨roundsFrom 0 stops, fun fuel hf => hstops.rounds?_eq (List.nil_append _).symm hf, ?_, ?_,
    pairwise_roundsFrom stops 0 hsound, fun r hr =>
      ⟨hsound r hr, fun t => Round.token?_eq_some, fun e => Round.problem?_eq_some⟩⟩
  · have h := congrArg (List.filterMap Scanned.token?) hresults
    rw [List.filterMap_map, List.filterMap_map] at h
    exact htokens.trans h.symm
  · have h := congrArg (List.filterMap Scanned.problem?) hresults
    rw [List.filterMap_map, List.filterMap_map] at h
    exact hproblems.trans h.symm

/-- A tag that is never closed, and a block within what would have been its body. -/
example : rounds? "é<add>\n<FILE>\nß\n</file>".toList 40 0 =
    some [⟨0, "add".toList, 8, none⟩, ⟨8, "FILE".toList, 15, some (17, "ß".toList)⟩] := by
  decide +kernel

end Patchboard.Token
