import Patchboard.Cursor
import Patchboard.Proofs.Receipt.History
import Patchboard.Proofs.Run.Files
import Patchboard.Proofs.Tree.Hiding

set_option autoImplicit false

namespace Patchboard.StateLayout
open Path Tree

attribute [local irreducible] fileStem

variable {l : StateLayout} {base base' t u : Tree} {run : String} {place : Place}

def reserve (l : StateLayout) (t : Tree) : Reserve :=
  ⟨[t.lexicalPlace l.runs, t.lexicalPlace l.receipts], t.way l.root⟩

theorem guarded_of_based (hb : Based l t) (hn : t.Named) : Guarded (l.reserve t) t t := by
  refine ⟨rfl, hn, fun _ _ => rfl, fun place hp => ?_⟩
  rcases hp with hp | hp
  · rcases List.mem_pair.1 hp with rfl | rfl
    · exact (enters_of_isDirectory hb.runs).directory
    · exact (enters_of_isDirectory hb.receipts).directory
  · exact directory_of_mem_way ((isDirectory_join_iff isName_runs).1 hb.runs).2.1 hp

theorem isDirectory_of_stands (hs : (l.reserve base).Stands t) (hw : t.working = base.working)
    {name : String} (hn : IsName name)
    (hc : base.lexicalPlace (l.root.join ⟨name⟩) ∈ (l.reserve base).closed)
    (hd : base.isDirectory (l.root.join ⟨name⟩) = true) :
    t.isDirectory (l.root.join ⟨name⟩) = true := by
  have hfits := ((isDirectory_join_iff hn).1 hd).1
  refine isDirectory_of_enters (text_join hn.piece l.root) hfits.path ?_
  refine (enters_of_isDirectory hd).of_way hw fun place hp => hs place ?_
  rcases (mem_way_join hn).1 hp with hp | rfl
  · exact .inr hp
  · rw [← lexicalPlace_join hn]
    exact .inl hc

section
variable (hb : Based l base) (hs : (l.reserve base).Stands t) (hw : t.working = base.working)
include hb hs hw

theorem isDirectory_runs : t.isDirectory l.runs = true :=
  isDirectory_of_stands hs hw isName_runs (List.mem_cons_self ..) hb.runs

theorem isDirectory_receipts : t.isDirectory l.receipts = true :=
  isDirectory_of_stands hs hw isName_installed
    (List.mem_cons_of_mem _ (List.mem_singleton_self _)) hb.receipts

end

def runNames (run : String) : List String := ["active", run ++ ".json", run ++ ".journal"]

def runFiles (l : StateLayout) (run : String) (t : Tree) : List Place :=
  (runNames run).map (Run.fileAt l t)

/-- None of the files of a run is there. -/
def Fresh (l : StateLayout) (run : String) (t : Tree) : Prop :=
  ∀ place ∈ runFiles l run t, t.at? place = none

theorem not_off_of_mem_runFiles (h : place ∈ runFiles l run base) :
    ¬Off (l.reserve base) place := by
  obtain ⟨name, -, rfl⟩ := List.mem_map.1 h
  exact fun ho => ho _ (List.mem_cons_self ..) ⟨name, [], rfl⟩

theorem receipt_ne_fileAt (l : StateLayout) (t : Tree) (file name : String) :
    t.lexicalPlace l.receipts ++ [file] ≠ Run.fileAt l t name := by
  intro h
  have hparent := List.append_inj_left' h rfl
  rw [lexicalPlace_receipts, lexicalPlace_runs] at hparent
  simp at hparent

theorem history_congr {package : String}
    (h : u.text? (l.receipt package) = t.text? (l.receipt package)) :
    History.view l u package = History.view l t package := by
  unfold History.view History.lookup History.read?
  rw [run_bind, run_bind, run_bind, run_bind, run_get, run_get]
  dsimp only
  rw [h]
  cases t.text? (l.receipt package) with
  | error e =>
    cases e <;> rfl
  | ok raw =>
    dsimp only
    rw [run_bind, run_bind, History.run_parseAt, History.run_parseAt]
    cases Receipt.parse raw <;> rfl

theorem history_of_parted (hb : Based l base) (hf : Fresh l run base)
    (h : Parted (l.reserve base) base base' (runFiles l run base) t u) :
    History.view l u = History.view l t := by
  funext package
  refine history_congr (text?_of_way ⟨h.first.working, h.working⟩ fun place hp =>
    congrArg _ (h.at? fun hm => ?_))
  rw [receipt_eq, mem_way_join (isName_receiptFile package)] at hp
  rcases hp with hp | rfl
  · obtain ⟨mode, hd⟩ := directory_of_mem_way (enters_of_isDirectory hb.receipts) hp
    rw [hf place hm] at hd
    cases hd
  · obtain ⟨name, -, he⟩ := List.mem_map.1 hm
    exact receipt_ne_fileAt l base _ name he.symm

end Patchboard.StateLayout
