import Patchboard.Search

set_option autoImplicit false

/-!
How the pattern of a literal search is read. The escaped text is read character by character,
whatever characters it holds, and what stands around it (flags, a group, the end of a file) is read
as it is meant. So a literal search always has a pattern, and the pattern is known.
-/

namespace Patchboard.Pattern

theorem metaChars_eq : metaChars =
    ['\\', '.', '+', '*', '?', '(', ')', '|', '[', ']', '\x7b', '\x7d', '^', '$', '#', '&', '-',
      '~'] := String.toList_ofList

theorem escape?_meta (f : Flags) {c : Char} (h : c ∈ metaChars) (s : List Char) :
    escape? f (c :: s) = some (.char c, s) := by
  simp only [metaChars_eq, List.mem_cons, List.not_mem_nil, or_false] at h
  have hm : isEscapable c = true := by
    simp only [isEscapable, Bool.or_eq_true]
    left
    simpa [metaChars_eq] using h
  rcases h with rfl | rfl | rfl | rfl | rfl | rfl | rfl | rfl | rfl | rfl | rfl | rfl | rfl | rfl |
    rfl | rfl | rfl | rfl <;> simp [escape?, hm]

/-- The flags in force behind the leading `(?s)`. -/
def opened : Flags := { dotAll := true }

def reading (s : List Char) (groups : Nat) : Reader := ⟨s, opened, groups, []⟩

theorem repetition?_of_not {s : List Char} (h : isRepetition s = false) (groups : Nat)
    (node : Node) : repetition? (reading s groups) node = some none := by
  unfold repetition?
  split <;> rename_i hs <;> simp_all [reading, isRepetition]

theorem repetitions?_of_not {s : List Char} (h : isRepetition s = false) (fuel groups : Nat)
    (node : Node) :
    repetitions? (fuel + 1) (reading s groups) node = some (node, reading s groups) := by
  have hs : (reading s groups).skip = reading s groups := rfl
  simp [repetitions?, hs, repetition?_of_not h]

theorem sequence?_char {c : Char} (hc : c ∉ metaChars) {s : List Char}
    (h : isRepetition s = false) (fuel depth groups : Nat) (before : Option Node) :
    sequence? (fuel + 2) depth before (reading (c :: s) groups) =
      sequence? (fuel + 1) depth (some (join before (.one (.single c)))) (reading s groups) := by
  simp only [metaChars_eq, List.mem_cons, List.not_mem_nil, or_false, not_or] at hc
  have hs : (reading (c :: s) groups).skip = reading (c :: s) groups := rfl
  have hn : isRepetition (c :: s) = false := by
    unfold isRepetition
    split <;> simp_all
  have ha : (reading (c :: s) groups).at' s = reading s groups := rfl
  have hf : (reading (c :: s) groups).flags = opened := rfl
  rw [sequence?.eq_def]
  simp only [hs]
  have hr : (reading (c :: s) groups).rest = c :: s := rfl
  rw [hr]
  split <;> simp_all [repetitions?_of_not]
  rfl

theorem sequence?_escaped {c : Char} (hc : c ∈ metaChars) {s : List Char}
    (h : isRepetition s = false) (fuel depth groups : Nat) (before : Option Node) :
    sequence? (fuel + 2) depth before (reading ('\\' :: c :: s) groups) =
      sequence? (fuel + 1) depth (some (join before (.one (.single c)))) (reading s groups) := by
  have hs : (reading ('\\' :: c :: s) groups).skip = reading ('\\' :: c :: s) groups := rfl
  have ha : (reading ('\\' :: c :: s) groups).at' s = reading s groups := rfl
  have hf : (reading ('\\' :: c :: s) groups).flags = opened := rfl
  have hr : (reading ('\\' :: c :: s) groups).rest = '\\' :: c :: s := rfl
  rw [sequence?.eq_def]
  simp only [hs, hr, hf, escape?_meta opened hc, ha, Option.bind_eq_bind, Option.bind_some,
    repetitions?_of_not h]
  rfl

def chain (before : Option Node) (t : List Char) : Option Node :=
  t.foldl (fun b c => some (join b (.one (.single c)))) before

theorem isRepetition_escape_append (t : List Char) {s : List Char} (h : isRepetition s = false) :
    isRepetition (Search.escape t ++ s) = false := by
  cases t with
  | nil => exact h
  | cons c t =>
    by_cases hc : c ∈ metaChars
    · simp [Search.escape, hc, isRepetition]
    · have hn := hc
      simp only [metaChars_eq, List.mem_cons, List.not_mem_nil, or_false, not_or] at hn
      simp [Search.escape, hc]
      unfold isRepetition
      split <;> simp_all

theorem sequence?_escape (t : List Char) {s : List Char} (h : isRepetition s = false)
    (fuel depth groups : Nat) (before : Option Node) :
    sequence? (t.length + (fuel + 1)) depth before (reading (Search.escape t ++ s) groups) =
      sequence? (fuel + 1) depth (chain before t) (reading s groups) := by
  induction t generalizing before with
  | nil => simp [Search.escape, chain]
  | cons c t ih =>
    have hr := isRepetition_escape_append t h
    have hl : (c :: t).length + (fuel + 1) = t.length + fuel + 2 := by simp; omega
    have hl' : t.length + (fuel + 1) = t.length + fuel + 1 := by omega
    have hchain : chain before (c :: t) = chain (some (join before (.one (.single c)))) t := rfl
    rw [hchain, ← ih, hl, hl']
    by_cases hc : c ∈ metaChars
    · have he : Search.escape (c :: t) ++ s = '\\' :: c :: (Search.escape t ++ s) := by
        simp [Search.escape, hc]
      rw [he, sequence?_escaped hc hr]
    · have he : Search.escape (c :: t) ++ s = c :: (Search.escape t ++ s) := by
        simp [Search.escape, hc]
      rw [he, sequence?_char hc hr]

theorem sequence?_nil (fuel depth groups : Nat) (before : Option Node) :
    sequence? (fuel + 1) depth before (reading [] groups) =
      some (before.getD .empty, reading [] groups) := rfl

theorem sequence?_close (fuel depth groups : Nat) (before : Option Node) (s : List Char) :
    sequence? (fuel + 1) depth before (reading (')' :: s) groups) =
      some (before.getD .empty, reading (')' :: s) groups) := rfl

def tagNode : Node :=
  .seq (.seq (.one (.single '\n')) (.one (.single '?'))) (.one (.single '>'))

def closingMark : Node := Node.optional (.group 1 tagNode) true

def lineEnd : Node := Node.optional (.group 2 (.one (.single '\n'))) true

def endNode (before : Option Node) : Node :=
  .seq (.seq (join before closingMark) lineEnd) (.look .textEnd)

theorem endPattern_eq : Search.endPattern =
    ['(', '\\', 'n', '\\', '?', '>', ')', '?', '(', '\\', 'n', ')', '?', '\\', 'z'] :=
  String.toList_ofList

theorem sequence?_endPattern (fuel : Nat) (before : Option Node) :
    sequence? (fuel + 10) 0 before (reading Search.endPattern 0) =
      some (endNode before, reading [] 2) := by
  rw [endPattern_eq]
  rfl

theorem sequence?_opening (fuel depth : Nat) (before : Option Node) {r : Reader} {s : List Char}
    (hr : r.skip.rest = '(' :: s) :
    sequence? (fuel + 1) depth before r = (opening? (r.skip.at' s)).bind fun
      | .flags r => if isRepetition r.skip.rest then none else sequence? fuel depth before r.skip
      | .group index inner => (group? fuel depth index inner).bind fun g =>
        (repetitions? fuel { g.2 with flags := r.skip.flags } g.1).bind fun n =>
          sequence? fuel depth (some (join before n.1)) n.2 := by
  rw [sequence?.eq_def]
  simp only [hr]
  rfl

theorem sequence?_flags {s : List Char} (h : isRepetition s = false) (fuel depth : Nat) :
    sequence? (fuel + 1) depth none ⟨"(?s)".toList ++ s, {}, 0, []⟩ =
      sequence? fuel depth none (reading s 0) := by
  let r : Reader := ⟨"(?s)".toList ++ s, {}, 0, []⟩
  have hr : r.skip.rest = '(' :: '?' :: 's' :: ')' :: s := rfl
  have ho : opening? (r.skip.at' ('?' :: 's' :: ')' :: s)) = some (.flags (reading s 0)) := rfl
  have hs : (reading s 0).skip = reading s 0 := rfl
  have hrest : (reading s 0).rest = s := rfl
  rw [sequence?_opening fuel depth none hr, ho]
  simp only [Option.bind_some, hs, hrest, h]
  rfl

theorem length_escape (t : List Char) : t.length ≤ (Search.escape t).length := by
  induction t with
  | nil => simp
  | cons c t ih =>
    have hc : Search.escape (c :: t) = Search.escape [c] ++ Search.escape t := by
      simp [Search.escape]
    have hp : 1 ≤ (Search.escape [c]).length := by
      by_cases hm : c ∈ metaChars <;> simp [Search.escape, hm]
    rw [hc, List.length_append, List.length_cons]
    omega

theorem opening?_of_ne {s : List Char} (h : s.head? ≠ some '?') (groups : Nat) :
    opening? (reading s groups) = some (.group (some (groups + 1)) (reading s (groups + 1))) := by
  have hs : (reading s groups).skip = reading s groups := rfl
  have hr : (reading s groups).rest = s := rfl
  unfold opening?
  simp only [hs, hr]
  split <;> simp_all [reading]

theorem head?_escape_append (t : List Char) {s : List Char} (h : s.head? ≠ some '?') :
    (Search.escape t ++ s).head? ≠ some '?' := by
  cases t with
  | nil => exact h
  | cons c t =>
    by_cases hc : c ∈ metaChars
    · simp [Search.escape, hc]
    · have hq : c ≠ '?' := by
        rintro rfl
        exact hc (by rw [metaChars_eq]; decide)
      simp [Search.escape, hc, hq]

theorem alternatives?_of_sequence? {fuel depth : Nat} {r : Reader} {node : Node} {s : List Char}
    {groups : Nat} (h : sequence? fuel depth none r = some (node, reading s groups))
    (hs : s.head? ≠ some '|') :
    alternatives? (fuel + 1) depth r = some (node, reading s groups) := by
  have hr : (reading s groups).rest = s := rfl
  rw [alternatives?.eq_def]
  simp only [h, Option.bind_eq_bind, Option.bind_some, hr]
  split
  · simp at hs
  · rfl

theorem group?_of_alternatives? (index : Nat) {fuel groups : Nat} {r : Reader} {node : Node}
    {s : List Char}
    (h : alternatives? fuel 1 r = some (node, reading (')' :: s) groups)) :
    group? (fuel + 1) 0 (some index) r = some (.group index node, reading s groups) := by
  rw [group?.eq_def]
  simp only [h]
  rfl

theorem sequence?_enclosed {s : List Char} {node : Node} {fuel : Nat}
    (hs : (s ++ [')']).head? ≠ some '?')
    (h : sequence? fuel 1 none (reading (s ++ [')']) 1) = some (node, reading [')'] 1)) :
    sequence? (fuel + 3) 0 none (reading ('(' :: s ++ [')']) 0) =
      some (.group 1 node, reading [] 1) := by
  let r := reading ('(' :: s ++ [')']) 0
  have hr : r.skip.rest = '(' :: (s ++ [')']) := rfl
  have ho : opening? (r.skip.at' (s ++ [')'])) = _ := opening?_of_ne hs 0
  have hgroup := group?_of_alternatives? 1 (alternatives?_of_sequence? h (by decide))
  rw [sequence?_opening _ 0 none hr, ho]
  simp only [Option.bind_some, Nat.zero_add, hgroup]
  rfl

theorem sequence?_group (t : List Char) (fuel : Nat) :
    sequence? (t.length + (fuel + 4)) 0 none (reading ('(' :: Search.escape t ++ [')']) 0) =
      some (.group 1 ((chain none t).getD .empty), reading [] 1) := by
  have hseq := sequence?_escape t (s := [')']) rfl fuel 1 1 none
  rw [sequence?_close] at hseq
  exact sequence?_enclosed (head?_escape_append t (by decide)) hseq

theorem sequence?_escape_nil (t : List Char) (fuel : Nat) :
    sequence? (t.length + (fuel + 1)) 0 none (reading (Search.escape t) 0) =
      some ((chain none t).getD .empty, reading [] 0) := by
  have h := sequence?_escape t (s := []) rfl fuel 0 0 none
  rwa [List.append_nil, sequence?_nil] at h

theorem sequence?_escape_endPattern (t : List Char) (fuel : Nat) :
    sequence? (t.length + (fuel + 10)) 0 none (reading (Search.escape t ++ Search.endPattern) 0) =
      some (endNode (chain none t), reading [] 2) := by
  have hr : isRepetition Search.endPattern = false := by rw [endPattern_eq]; rfl
  rw [sequence?_escape t hr, sequence?_endPattern]

theorem parse?_of_sequence? {s : List Char} {node : Node} {groups : Nat}
    (h : sequence? (4 * s.length + 7) 0 none ⟨s, {}, 0, []⟩ = some (node, reading [] groups)) :
    Node.parse? s = some node := by
  unfold Node.parse?
  simp only [alternatives?_of_sequence? h (by decide)]
  rfl

theorem parse?_flags {s : List Char} (h : isRepetition s = false) {node : Node} (groups : Nat)
    (hs : ∀ fuel, 4 * s.length + 20 ≤ fuel →
      sequence? fuel 0 none (reading s 0) = some (node, reading [] groups)) :
    Node.parse? ("(?s)".toList ++ s) = some node := by
  have hl : ("(?s)".toList ++ s).length = s.length + 4 := by simp
  apply parse?_of_sequence?
  rw [hl, show 4 * (s.length + 4) + 7 = 4 * s.length + 22 + 1 by omega, sequence?_flags h]
  exact hs _ (by omega)

end Patchboard.Pattern

namespace Patchboard.Search
open Pattern

/-- A search for a text as it stands. -/
structure IsLiteral (s : Search) : Prop where
  noPattern : s.isPattern = false
  noLoose : s.loose = false

def literalNode (s : Search) : Node :=
  let text := chain none s.search.toList
  match s.position with
  | .atEnd => endNode text
  | .replace => text.getD .empty
  | .before => .group 1 (text.getD .empty)
  | .after => .group 1 (text.getD .empty)

theorem parse?_wholePattern {s : Search} (h : s.IsLiteral) :
    Node.parse? s.wholePattern = some s.literalNode := by
  have hb : s.body = escape s.search.toList := by simp [body, h.noPattern, h.noLoose]
  have hlen := length_escape s.search.toList
  have hgroup : ∀ fuel, 4 * ('(' :: escape s.search.toList ++ [')']).length + 20 ≤ fuel →
      sequence? fuel 0 none (reading ('(' :: escape s.search.toList ++ [')']) 0) =
        some (.group 1 ((chain none s.search.toList).getD .empty), reading [] 1) := by
    intro fuel hf
    simp only [List.cons_append, List.length_cons, List.length_append] at hf
    rw [show fuel = s.search.toList.length + (fuel - s.search.toList.length - 4 + 4) by omega,
      sequence?_group]
  cases hp : s.position with
  | atEnd =>
    simp only [wholePattern, literalNode, hp]
    have hr : isRepetition endPattern = false := by rw [endPattern_eq]; rfl
    refine parse?_flags (isRepetition_escape_append _ hr) 2 fun fuel hf => ?_
    simp only [List.length_append] at hf
    rw [show fuel = s.search.toList.length + (fuel - s.search.toList.length - 10 + 10) by omega,
      sequence?_escape_endPattern]
  | replace =>
    simp only [wholePattern, literalNode, hp, hb]
    refine parse?_flags ?_ 0 fun fuel hf => ?_
    · simpa using isRepetition_escape_append s.search.toList (s := []) rfl
    · rw [show fuel = s.search.toList.length + (fuel - s.search.toList.length - 1 + 1) by omega,
        sequence?_escape_nil]
  | before =>
    simp only [wholePattern, literalNode, hp, hb]
    exact parse?_flags rfl 1 hgroup
  | after =>
    simp only [wholePattern, literalNode, hp, hb]
    exact parse?_flags rfl 1 hgroup

end Patchboard.Search

