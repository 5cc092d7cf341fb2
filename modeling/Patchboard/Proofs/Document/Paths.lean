import Patchboard.Document
import Patchboard.Proofs.Text.Lines

set_option autoImplicit false

namespace Patchboard.Document
open Text

/-- The name of a field that a path may go through as it is written. -/
structure IsPlainKey (tag : String) : Prop where
  filled : tag ≠ ""
  solid : tag ≠ "."
  flat : '/' ∉ tag.toList
  unmarked : tag.toList.head? ≠ some '@'
  startsBare : ∀ c ∈ tag.toList.head?, isBlank c = false
  endsBare : EndsBare tag.toList

instance (tag : String) : Decidable (IsPlainKey tag) :=
  have hall (o : Option Char) : (o.all fun c => !isBlank c) = true ↔ ∀ c ∈ o, isBlank c = false := by
    cases o <;> simp
  decidable_of_iff (tag ≠ "" ∧ tag ≠ "." ∧ '/' ∉ tag.toList ∧ tag.toList.head? ≠ some '@' ∧
      (tag.toList.head?.all fun c => !isBlank c) = true ∧
      (tag.toList.getLast?.all fun c => !isBlank c) = true)
    ⟨fun ⟨hfilled, hsolid, hflat, hunmarked, hstart, hend⟩ =>
        ⟨hfilled, hsolid, hflat, hunmarked, (hall _).1 hstart, (hall _).1 hend⟩,
      fun h => ⟨h.filled, h.solid, h.flat, h.unmarked, (hall _).2 h.startsBare,
        (hall _).2 h.endsBare⟩⟩

theorem keys_append (p q : String) : keys (p ++ "/" ++ q) = keys p ++ keys q := by
  have hchars : (p ++ "/" ++ q).toList = p.toList ++ '/' :: q.toList := by simp
  unfold keys
  rw [hchars, splitOn_append, List.map_append, List.filter_append, List.map_append]

theorem keys_of_plain {tag : String} (h : IsPlainKey tag) : keys tag = [tag] := by
  obtain ⟨c, s, hs⟩ := List.exists_cons_of_ne_nil (mt String.toList_eq_nil_iff.1 h.filled)
  have hstart : isBlank c = false := h.startsBare c (by rw [hs]; rfl)
  have htrim : trim tag.toList = tag.toList := by
    rw [trim, hs, trimStart_of_head hstart, ← hs, trimEnd_of_endsBare h.endsBare]
  have hsolid : tag.toList ≠ ['.'] := fun hdot => h.solid (String.toList_inj.1 hdot)
  have hkey : key tag.toList = tag := by
    have hmark := h.unmarked
    rw [hs] at hmark
    unfold key
    rw [hs]
    split
    · rename_i heq
      exact absurd (congrArg List.head? heq) hmark
    · rw [← hs, String.ofList_toList]
  have hkept : (!tag.toList.isEmpty && tag.toList ≠ ['.']) = true :=
    Bool.and_eq_true_iff.2 ⟨by rw [hs]; rfl, decide_eq_true hsolid⟩
  unfold keys
  rw [splitOn_of_not_mem h.flat, List.map_singleton, htrim, List.filter_cons, if_pos hkept,
    List.filter_nil, List.map_singleton, hkey]

theorem keys_intercalate {tags : List String} (h : ∀ tag ∈ tags, IsPlainKey tag) :
    keys ("/".intercalate tags) = tags := by
  induction tags with
  | nil => rfl
  | cons tag tags ih =>
    obtain ⟨htag, htags⟩ := List.forall_mem_cons.1 h
    cases tags with
    | nil =>
      rw [String.intercalate_singleton]
      exact keys_of_plain htag
    | cons next tags =>
      rw [String.intercalate_cons_cons, keys_append, keys_of_plain htag, ih htags]
      rfl

theorem descend?_append (t : Toml) (before after : List String) :
    descend? t (before ++ after) = (descend? t before).bind fun u => descend? u after := by
  induction before generalizing t with
  | nil => rfl
  | cons key before ih =>
    rw [List.cons_append, descend?, descend?, Option.bind_assoc]
    exact congrArg _ (funext ih)

theorem head?_items (t : Toml) : (items t).head? = (first? t).map mk := by
  cases t with
  | array nodes => exact List.head?_map ..
  | _ => rfl

theorem head?_children (d : Document) (path tag : String) :
    (d.children path tag).head? = ((d.resolve? path).bind fun t => child? t tag).map mk := by
  unfold children child?
  cases d.resolve? path with
  | none => rfl
  | some t =>
    rw [Option.bind_some, Option.bind_some]
    cases t.fields? with
    | none => rfl
    | some fields =>
      cases hl : Toml.lookup tag fields with
      | none => simp [hl]
      | some value => simp [hl, head?_items]

theorem resolve?_composed (d : Document) (p q : String) {tag : String} (h : IsPlainKey tag) :
    d.resolve? (p ++ "/" ++ tag ++ "/" ++ q) =
      (d.children p tag).head?.bind fun node => node.resolve? q := by
  rw [head?_children]
  unfold resolve?
  rw [keys_append, keys_append, keys_of_plain h, List.append_assoc, descend?_append,
    Option.bind_map, Option.bind_assoc]
  rfl

/-- The node where a walk ends that goes to the first node of each tag in turn. -/
def walk? : Document → List String → Option Document
  | d, [] => some d
  | d, tag :: tags => (d.children "." tag).head?.bind fun node => walk? node tags

theorem descend?_eq_walk? (d : Document) (tags : List String) :
    descend? d.value tags = (d.walk? tags).map value := by
  induction tags generalizing d with
  | nil => rfl
  | cons tag tags ih =>
    have hself : d.resolve? "." = some d.value := rfl
    rw [descend?, walk?, head?_children, hself, Option.bind_some]
    cases child? d.value tag with
    | none => rfl
    | some t => exact ih ⟨t⟩

/-- A path may be divided at any plain key: what is read beyond it is read from the first node of
that tag, and nothing is there when no node has the tag. So a path of plain keys reads what a walk
from node to node finds. -/
theorem read_composed (d : Document) (p q : String) {tag : String} (h : IsPlainKey tag) :
    let path := p ++ "/" ++ tag ++ "/" ++ q
    (match d.children p tag with
      | [] => d.fetch? path = none ∧ d.has path = false ∧ ∀ t, d.children path t = []
      | first :: _ => d.fetch? path = first.fetch? q ∧ d.has path = first.has q ∧
          ∀ t, d.children path t = first.children q t) ∧
      ∀ tags : List String, (∀ t ∈ tags, IsPlainKey t) →
        d.fetch? ("/".intercalate tags) = (d.walk? tags).bind (·.fetch? ".") ∧
          d.has ("/".intercalate tags) = (d.walk? tags).isSome := by
  intro path
  constructor
  · have hpath : d.resolve? path = (d.children p tag).head?.bind fun node => node.resolve? q :=
      resolve?_composed d p q h
    split
    · rename_i hnone
      rw [hnone] at hpath
      unfold fetch? has children
      rw [hpath]
      exact ⟨rfl, rfl, fun _ => rfl⟩
    · rename_i first rest hsome
      rw [hsome] at hpath
      unfold fetch? has children
      rw [hpath]
      exact ⟨rfl, rfl, fun _ => rfl⟩
  · intro tags htags
    unfold fetch? has resolve?
    rw [keys_intercalate htags, descend?_eq_walk?]
    cases d.walk? tags with
    | none => exact ⟨rfl, rfl⟩
    | some node => exact ⟨rfl, rfl⟩

/-- Two operations on a file; the search of the first is a table, that of the second a list of a
list. -/
def nestedDocument : Document :=
  ⟨.table [("file", .array [.table [("operation", .array
    [.table [("search", .table [("position", .string "after"), ("text", .string "a")])],
      .table [("search", .array [.array [.string "b"]])]])]])]⟩

theorem read_composed_nested :
    IsPlainKey "operation" ∧
      nestedDocument.fetch? (" file /./" ++ "/" ++ "operation" ++ "/" ++ "search/@position") =
        some "after" ∧
      nestedDocument.fetch? ("/".intercalate ["file", "operation", "search"]) = some "a" := by
  have hplain : IsPlainKey "operation" := by decide
  obtain ⟨hpath, hwalk⟩ := read_composed nestedDocument " file /./" "search/@position" hplain
  obtain ⟨hfetch, -⟩ := hwalk ["file", "operation", "search"] (by decide)
  refine ⟨hplain, hpath.1.trans ?_, hfetch.trans ?_⟩
  · decide +kernel
  · decide +kernel

end Patchboard.Document
