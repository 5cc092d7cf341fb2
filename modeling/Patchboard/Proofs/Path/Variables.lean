import Mathlib.Data.List.Induction
import Patchboard.PathVariables
import Patchboard.Proofs.Path.Names

set_option autoImplicit false

namespace Patchboard.PathVariables
open Text

section
variable {a b c : String}

theorem precedes_iff : precedes a b = true ↔
    b.utf8ByteSize < a.utf8ByteSize ∨ a.utf8ByteSize = b.utf8ByteSize ∧ a < b := by
  simp [precedes]

theorem precedes_irrefl (a : String) : ¬precedes a a = true := by
  rw [precedes_iff, not_or, not_and]
  exact ⟨Nat.lt_irrefl _, fun _ => String.lt_irrefl a⟩

theorem precedes_trans (hab : precedes a b = true) (hbc : precedes b c = true) :
    precedes a c = true := by
  rw [precedes_iff] at hab hbc ⊢
  rcases hab with hab | ⟨hab, hlt⟩
  · rcases hbc with hbc | ⟨hbc, -⟩
    · exact .inl (hbc.trans hab)
    · exact .inl (hbc ▸ hab)
  · rcases hbc with hbc | ⟨hbc, hlt'⟩
    · exact .inl (hab ▸ hbc)
    · exact .inr ⟨hab.trans hbc, String.lt_trans hlt hlt'⟩

theorem precedes_total (h : a ≠ b) : precedes a b = true ∨ precedes b a = true := by
  rw [precedes_iff, precedes_iff]
  rcases Nat.lt_trichotomy a.utf8ByteSize b.utf8ByteSize with hlt | heq | hgt
  · exact .inr (.inl hlt)
  · by_cases hab : a < b
    · exact .inl (.inr ⟨heq, hab⟩)
    · have hba : b < a := by
        by_contra hba
        exact h (String.le_antisymm (String.not_lt.1 hba) (String.not_lt.1 hab))
      exact .inr (.inr ⟨heq.symm, hba⟩)
  · exact .inl (.inl hgt)

end

def Ordered (entries : List (String × Path)) : Prop :=
  entries.Pairwise fun e e' => precedes e.1 e'.1 = true

section
variable {name : String} {path : Path} {entries : List (String × Path)}

theorem name_of_mem_insert {e : String × Path} (h : e ∈ insert name path entries) :
    e.1 = name ∨ e ∈ entries := by
  induction entries with
  | nil =>
    rw [insert, List.mem_singleton] at h
    exact .inl (congrArg Prod.fst h)
  | cons first entries ih =>
    rw [insert] at h
    split at h
    · rcases List.mem_cons.1 h with rfl | h
      · exact .inl rfl
      · exact .inr (List.mem_cons_of_mem _ h)
    · split at h
      · rcases List.mem_cons.1 h with rfl | h
        · exact .inl rfl
        · exact .inr h
      · rcases List.mem_cons.1 h with rfl | h
        · exact .inr (List.mem_cons_self ..)
        · exact (ih h).imp_right (List.mem_cons_of_mem _)

theorem ordered_insert (h : Ordered entries) : Ordered (insert name path entries) := by
  induction entries with
  | nil => exact List.pairwise_singleton _ _
  | cons first entries ih =>
    obtain ⟨hfirst, hrest⟩ := List.pairwise_cons.1 h
    rw [insert]
    split
    · rename_i heq
      exact List.pairwise_cons.2 ⟨heq ▸ hfirst, hrest⟩
    · rename_i hne
      split
      · rename_i hbefore
        refine List.pairwise_cons.2 ⟨fun e he => ?_, h⟩
        rcases List.mem_cons.1 he with rfl | he
        · exact hbefore
        · exact precedes_trans hbefore (hfirst e he)
      · rename_i hbehind
        refine List.pairwise_cons.2 ⟨fun e he => ?_, ih hrest⟩
        rcases name_of_mem_insert he with hname | he
        · rw [hname]
          exact (precedes_total hne).resolve_left hbehind
        · exact hfirst e he

end

section
variable {v w : PathVariables}

theorem get?_cons (e : String × Path) (entries : List (String × Path)) (name : String) :
    get? ⟨e :: entries⟩ name = if e.1 = name then some e.2 else get? ⟨entries⟩ name := by
  unfold get?
  dsimp only
  rw [List.find?_cons]
  by_cases h : e.1 = name <;> simp [h]

theorem get?_set (v : PathVariables) (name other : String) (path : Path) :
    (v.set name path).get? other = if other = name then some path else v.get? other := by
  obtain ⟨entries⟩ := v
  unfold set
  dsimp only
  induction entries with
  | nil => rw [insert, get?_cons, if_congr eq_comm rfl rfl]
  | cons e entries ih =>
    rw [insert]
    split
    · rename_i hname
      rw [get?_cons, get?_cons, ← hname, if_congr eq_comm rfl rfl]
      split
      · rfl
      · rename_i hother
        rw [if_neg fun h => hother h.symm]
    · rename_i hname
      split
      · rw [get?_cons, if_congr eq_comm rfl rfl]
      · rw [get?_cons, get?_cons, ih]
        split
        · rename_i hother
          rw [if_neg fun h => hname (hother.trans h).symm]
        · rfl

theorem mem_entries_iff (h : Ordered v.entries) {name : String} {path : Path} :
    (name, path) ∈ v.entries ↔ v.get? name = some path := by
  obtain ⟨entries⟩ := v
  induction entries with
  | nil => simp [get?]
  | cons e entries ih =>
    obtain ⟨hfirst, hrest⟩ := List.pairwise_cons.1 h
    rw [get?_cons, List.mem_cons]
    by_cases hname : e.1 = name
    · have hnot : (name, path) ∉ entries := fun hm =>
        precedes_irrefl name (hname ▸ hfirst (name, path) hm)
      rw [if_pos hname, Option.some_inj, or_iff_left hnot, Prod.ext_iff]
      exact ⟨fun he => he.2.symm, fun hp => ⟨hname.symm, hp.symm⟩⟩
    · have hne : (name, path) ≠ e := fun he => hname (congrArg Prod.fst he).symm
      rw [if_neg hname, or_iff_right hne]
      exact ih hrest

theorem eq_of_get?_eq (hv : Ordered v.entries) (hw : Ordered w.entries)
    (h : ∀ name, v.get? name = w.get? name) : v = w := by
  have hnodup : ∀ {entries : List (String × Path)}, Ordered entries → entries.Nodup :=
    fun ho => ho.imp fun {e e'} hlt => by
      rintro rfl
      exact precedes_irrefl _ hlt
  have hperm : v.entries.Perm w.entries := by
    refine (List.perm_ext_iff_of_nodup (hnodup hv) (hnodup hw)).2 fun e => ?_
    obtain ⟨name, path⟩ := e
    rw [mem_entries_iff hv, mem_entries_iff hw, h]
  have hentries : v.entries = w.entries := by
    refine hperm.eq_of_pairwise (fun e e' _ _ hlt hgt => ?_) hv hw
    exact absurd (precedes_trans hlt hgt) (precedes_irrefl _)
  obtain ⟨entries⟩ := v
  exact congrArg mk hentries

end

def ofSets (sets : List (String × Path)) : PathVariables :=
  sets.foldl (fun v s => v.set s.1 s.2) empty

/-- What a name was last set to. -/
def lastSet? (sets : List (String × Path)) (name : String) : Option Path :=
  (sets.reverse.find? fun s => s.1 = name).map (·.2)

theorem ofSets_concat (sets : List (String × Path)) (s : String × Path) :
    ofSets (sets ++ [s]) = (ofSets sets).set s.1 s.2 := by
  rw [ofSets, List.foldl_append]
  rfl

theorem ordered_ofSets (sets : List (String × Path)) : Ordered (ofSets sets).entries := by
  induction sets using List.reverseRecOn with
  | nil => exact List.Pairwise.nil
  | append_singleton sets s ih =>
    rw [ofSets_concat]
    exact ordered_insert ih

theorem get?_ofSets (sets : List (String × Path)) (name : String) :
    (ofSets sets).get? name = lastSet? sets name := by
  induction sets using List.reverseRecOn with
  | nil => rfl
  | append_singleton sets s ih =>
    unfold lastSet? at ih ⊢
    rw [ofSets_concat, get?_set, List.reverse_append, List.reverse_singleton,
      List.singleton_append, List.find?_cons, ih]
    by_cases h : s.1 = name
    · simp [h]
    · simp [h, Ne.symm h]

/-- The text is a dollar sign, the name, and a rest that is empty or begins with a slash. -/
structure Fits (raw name : String) (rest : List Char) : Prop where
  text : trim raw.toList = '$' :: (name.toList ++ rest)
  ends : ∀ c ∈ rest.head?, isSlash c = true

theorem after?_eq_some_iff {p s rest : List Char} : after? p s = some rest ↔ s = p ++ rest := by
  refine ⟨eq_append_of_after?, ?_⟩
  rintro rfl
  exact after?_append p rest

theorem restAfter?_eq_some_iff {name : String} {s rest : List Char} :
    restAfter? name s = some rest ↔
      s = name.toList ++ rest ∧ ∀ c ∈ rest.head?, isSlash c = true := by
  rw [← after?_eq_some_iff]
  unfold restAfter?
  cases after? name.toList s with
  | none => simp
  | some found =>
    rw [Option.some_inj]
    cases found with
    | nil =>
      rw [Option.some_inj]
      refine ⟨?_, And.left⟩
      rintro rfl
      exact ⟨rfl, by simp⟩
    | cons c found =>
      dsimp only
      constructor
      · intro h
        split at h
        · rename_i hc
          obtain rfl := Option.some.inj h
          exact ⟨rfl, by simpa using hc⟩
        · cases h
      · rintro ⟨rfl, hc⟩
        exact if_pos (hc c rfl)

theorem fits_iff {raw name : String} {rest s : List Char} (h : trim raw.toList = '$' :: s) :
    Fits raw name rest ↔ restAfter? name s = some rest := by
  rw [restAfter?_eq_some_iff]
  constructor
  · rintro ⟨htext, hends⟩
    exact ⟨(List.cons.inj (h.symm.trans htext)).2, hends⟩
  · rintro ⟨rfl, hends⟩
    exact ⟨h, hends⟩

theorem length_lt_of_precedes {name name' : String} {s rest rest' : List Char}
    (h : s = name.toList ++ rest) (h' : s = name'.toList ++ rest')
    (hp : precedes name name' = true) : name'.length < name.length := by
  by_contra hle
  have hlength : name.toList.length ≤ name'.toList.length := by
    rw [String.length_toList, String.length_toList]
    exact Nat.not_lt.1 hle
  obtain ⟨more, hmore⟩ := List.prefix_of_prefix_length_le ⟨rest, h.symm⟩ ⟨rest', h'.symm⟩ hlength
  have hname : name' = name ++ String.ofList more := String.toList_inj.1 (by simp [← hmore])
  have hsize := congrArg String.utf8ByteSize hname
  rw [String.utf8ByteSize_append] at hsize
  rcases precedes_iff.1 hp with hlt | ⟨heq, hlt⟩
  · omega
  · have hnone : (String.ofList more).utf8ByteSize = 0 := by omega
    rw [String.utf8ByteSize_eq_zero_iff] at hnone
    rw [hnone, String.append_empty] at hname
    exact String.lt_irrefl _ (hname ▸ hlt)

theorem resolveIn_cases {entries : List (String × Path)} (ho : Ordered entries) (s : List Char) :
    (resolveIn entries s = none ∧ ∀ e ∈ entries, restAfter? e.1 s = none) ∨
    ∃ e ∈ entries, ∃ rest, restAfter? e.1 s = some rest ∧
      resolveIn entries s = some (expand e.2 rest) ∧
      ∀ e' ∈ entries, ∀ rest', restAfter? e'.1 s = some rest' → e'.1.length ≤ e.1.length := by
  induction entries with
  | nil => exact .inl ⟨rfl, by simp⟩
  | cons first entries ih =>
    obtain ⟨hfirst, hrest⟩ := List.pairwise_cons.1 ho
    rw [resolveIn]
    cases hr : restAfter? first.1 s with
    | some rest =>
      refine .inr ⟨first, List.mem_cons_self .., rest, hr, rfl, ?_⟩
      refine List.forall_mem_cons.2 ⟨fun _ _ => Nat.le_refl _, fun e' he' rest' hr' => ?_⟩
      exact Nat.le_of_lt (length_lt_of_precedes (restAfter?_eq_some_iff.1 hr).1
        (restAfter?_eq_some_iff.1 hr').1 (hfirst e' he'))
    | none =>
      rcases ih hrest with ⟨hnone, hall⟩ | ⟨e, he, rest, hfits, hresolve, hlongest⟩
      · exact .inl ⟨hnone, List.forall_mem_cons.2 ⟨hr, hall⟩⟩
      · refine .inr ⟨e, List.mem_cons_of_mem _ he, rest, hfits, hresolve, ?_⟩
        refine List.forall_mem_cons.2 ⟨fun rest' hr' => ?_, hlongest⟩
        rw [hr] at hr'
        cases hr'

theorem relative_below (rest : List Char) :
    (Path.ofChars (rest.dropWhile isSlash)).isAbsolute = false := by
  rw [Bool.eq_false_iff, ne_eq, Path.isAbsolute_iff]
  rintro ⟨s, hs⟩
  have hhead := List.head?_dropWhile_not isSlash rest
  rw [Path.chars, Path.ofChars, String.toList_ofList] at hs
  rw [hs] at hhead
  simp [isSlash] at hhead

theorem expand_eq (base : Path) (rest : List Char) : expand base rest =
    if rest.dropWhile isSlash = [] then base
    else base.join (Path.ofChars (rest.dropWhile isSlash)) := by
  unfold expand
  split
  · rename_i hnone
    rw [if_pos hnone]
  · rename_i hsome
    rw [if_neg hsome]

theorem same_expand (base : Path) (rest : List Char) :
    (expand base rest).same (base.join (Path.ofChars (rest.dropWhile isSlash))) = true := by
  unfold Path.same
  rw [expand_eq, decide_eq_true_iff]
  split
  · rename_i hnone
    rw [hnone]
    by_cases hbase : base.text = ""
    · obtain ⟨text⟩ := base
      obtain rfl : text = "" := hbase
      rfl
    · rw [Path.components_join rfl hbase]
      exact (List.append_nil _).symm
  · rfl

theorem startsWith_expand (base : Path) (rest : List Char) :
    (expand base rest).startsWith base = true := by
  have hjoin := Path.startsWith_join (relative_below rest) base
  have hsame : (expand base rest).components = _ := of_decide_eq_true (same_expand base rest)
  unfold Path.startsWith at hjoin ⊢
  rw [hsame]
  exact hjoin

/-- Variables depend only on what each name was last set to. A text that begins with one stands for
the base of the longest name that fits it, joined with what comes after the slashes behind the name,
and so for a place in the base; any other text stands for itself, without the blanks around it. -/
theorem resolve_longest (sets : List (String × Path)) :
    (∀ sets', (∀ name, lastSet? sets' name = lastSet? sets name) → ofSets sets' = ofSets sets) ∧
    (∀ name, (ofSets sets).get? name = lastSet? sets name) ∧
    (∀ raw, (∃ name rest, Fits raw name rest ∧ lastSet? sets name ≠ none) →
      ∃ name rest base, Fits raw name rest ∧ lastSet? sets name = some base ∧
        (∀ name' rest', Fits raw name' rest' → lastSet? sets name' ≠ none →
          name'.length ≤ name.length) ∧
        let below := rest.dropWhile isSlash
        (ofSets sets).resolve raw =
            (if below = [] then base else base.join (Path.ofChars below)) ∧
          ((ofSets sets).resolve raw).same (base.join (Path.ofChars below)) = true ∧
          ((ofSets sets).resolve raw).startsWith base = true) ∧
    ∀ raw, (∀ name rest, Fits raw name rest → lastSet? sets name = none) →
      (ofSets sets).resolve raw = Path.ofChars (trim raw.toList) := by
  have hordered := ordered_ofSets sets
  have hmem : ∀ {name : String} {path : Path},
      (name, path) ∈ (ofSets sets).entries ↔ lastSet? sets name = some path := by
    intro name path
    rw [mem_entries_iff hordered, get?_ofSets]
  refine ⟨fun sets' h => ?_, get?_ofSets sets, fun raw hsome => ?_, fun raw hnone => ?_⟩
  · refine eq_of_get?_eq (ordered_ofSets sets') hordered fun name => ?_
    rw [get?_ofSets, get?_ofSets, h]
  · obtain ⟨name₀, rest₀, hfits₀, hset₀⟩ := hsome
    obtain ⟨base₀, hbase₀⟩ := Option.ne_none_iff_exists'.1 hset₀
    have htext := hfits₀.text
    rcases resolveIn_cases hordered (name₀.toList ++ rest₀) with
      ⟨-, hall⟩ | ⟨⟨name, base⟩, he, rest, hr, hresolve, hlongest⟩
    · have hr₀ := (fits_iff htext).1 hfits₀
      rw [hall _ (hmem.2 hbase₀)] at hr₀
      cases hr₀
    · have hwhole : (ofSets sets).resolve raw = expand base rest := by
        unfold resolve
        rw [htext]
        exact congrArg (fun found => Option.getD found _) hresolve
      refine ⟨name, rest, base, (fits_iff htext).2 hr, hmem.1 he, ?_, ?_⟩
      · intro name' rest' hfits hset
        obtain ⟨base', hbase'⟩ := Option.ne_none_iff_exists'.1 hset
        exact hlongest _ (hmem.2 hbase') rest' ((fits_iff htext).1 hfits)
      · rw [hwhole]
        exact ⟨expand_eq base rest, same_expand base rest, startsWith_expand base rest⟩
  · unfold resolve
    split
    · rename_i s htext
      rcases resolveIn_cases hordered s with ⟨hnone', -⟩ | ⟨⟨name, base⟩, he, rest, hr, -, -⟩
      · rw [hnone', htext]
        rfl
      · rw [hmem, hnone name rest ((fits_iff htext).2 hr)] at he
        cases he
    · rfl

def boardSets : List (String × Path) := [("a", ⟨"/x"⟩), ("a/b", ⟨"/y"⟩), ("a/b", ⟨"/z/"⟩)]

theorem resolve_longest_board :
    ofSets (boardSets.drop 1 ++ [("a", ⟨"/x"⟩)]) = ofSets boardSets ∧
      (∃ name rest, Fits " $a/b\\//etc/c " name rest ∧ lastSet? boardSets name ≠ none) ∧
      (∃ base : Path, ((ofSets boardSets).resolve " $a/b\\//etc/c ").startsWith base = true) ∧
      ((ofSets boardSets).resolve " $a/b\\//etc/c ").text = "/z/etc/c" ∧
      (ofSets boardSets).resolve " $ab/c" = ⟨"$ab/c"⟩ := by
  obtain ⟨hsame, -, hfits, hnone⟩ := resolve_longest boardSets
  have hset : ∀ {name : String}, lastSet? boardSets name ≠ none → name = "a" ∨ name = "a/b" := by
    intro name hname
    by_contra hother
    rw [not_or] at hother
    exact hname (by simp [lastSet?, boardSets, Ne.symm hother.1, Ne.symm hother.2])
  have hlong : Fits " $a/b\\//etc/c " "a/b" "\\//etc/c".toList :=
    ⟨by decide +kernel, by simp [isSlash]⟩
  have hfound : ∃ name rest, Fits " $a/b\\//etc/c " name rest ∧ lastSet? boardSets name ≠ none :=
    ⟨_, _, hlong, by decide +kernel⟩
  refine ⟨hsame _ fun name => ?_, hfound, ?_, by decide +kernel, ?_⟩
  · by_cases ha : name = "a"
    · subst ha
      decide +kernel
    · by_cases hb : name = "a/b"
      · subst hb
        decide +kernel
      · simp [lastSet?, boardSets, Ne.symm ha, Ne.symm hb]
  · obtain ⟨name, rest, base, -, -, -, -, -, hstarts⟩ := hfits _ hfound
    exact ⟨base, hstarts⟩
  · refine (hnone " $ab/c" fun name rest h => ?_).trans (by decide +kernel)
    by_contra hname
    have htrim : trim " $ab/c".toList = '$' :: 'a' :: 'b' :: "/c".toList := by decide +kernel
    have htext := htrim.symm.trans h.text
    rcases hset hname with rfl | rfl
    · have hrest : 'b' :: "/c".toList = rest := by simpa using htext
      have hend := h.ends 'b' (hrest ▸ rfl)
      exact absurd hend (by decide)
    · simp at htext

end Patchboard.PathVariables
