import Patchboard.Proofs.Patch.Saving

set_option autoImplicit false

namespace Patchboard.Progress
open Tree

inductive Settles (b : Board) (o : PatchOptions) (path? : Option Path) (p : Progress) :
    Progress → Prop
  | kept {new : List Event} {report : Report} (hr : p.report.Records new report) :
    Settles b o path? p { p with report }
  | saved {new : List Event} {report : Report} {path : Path} (theme : Nat) (text : List Char)
    (existed : Bool) (hr : p.report.Records new report)
    (hn : ∀ e ∈ new, e.kind.isFailure = false) (hp : path ∈ path?) :
    Settles b o path? p (Save.save b o path theme text existed { p with report })

variable {b : Board} {o : PatchOptions} {path? : Option Path} {p p' : Progress}

theorem Settles.records (h : Settles b o path? p p') :
    ∃ new, p.report.Records new p'.report := by
  cases h with
  | kept hr => exact ⟨_, hr⟩
  | @saved new report path theme text existed hr hn hp =>
    obtain ⟨new', hs, -⟩ := Save.records_save b path theme text existed o { p with report }
    exact ⟨new ++ new', hr.trans hs⟩

theorem Settles.site_of_testing {undo : Bool} (h : Settles b ⟨true, undo⟩ path? p p') :
    p'.site = p.site := by
  cases h with
  | kept hr => rfl
  | @saved new report path theme text existed hr hn hp =>
    exact Save.site_save_testing b path theme text existed { p with report }

theorem Settles.site_of_spoils (h : Settles b o path? p p') {e : Event}
    (he : e ∈ p'.report.events.drop p.report.events.length) (hs : e.kind.spoils = true) :
    p'.site = p.site := by
  cases h with
  | kept hr => rfl
  | @saved new report path theme text existed hr hn hp =>
    obtain ⟨new', hsave, hclean⟩ :=
      Save.records_save b path theme text existed o { p with report }
    rw [(hr.trans hsave).drop_events, List.mem_append] at he
    have hspoils : e.kind.spoils = false := by
      rcases he with he | he
      · exact EventKind.spoils_eq_false (hn e he) (hr.honest e he)
      · exact hclean e he
    rw [hspoils] at hs
    simp at hs

theorem Settles.grown (h : Settles b o path? p p') :
    Grown p.site.tree p'.site.tree (path?.toList.flatMap (Save.footprint b p.site.tree)) := by
  cases h with
  | kept hr => exact Grown.refl ..
  | @saved new report path theme text existed hr hn hp =>
    have hs := Save.grown_save b path theme text existed o { p with report }
    rw [Option.mem_def.1 hp]
    exact hs.mono (by simp)

end Patchboard.Progress
