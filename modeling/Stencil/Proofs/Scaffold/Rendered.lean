import Stencil.Proofs.Scaffold.Performing

/-!
# Rendered files

What a directive makes of a file of its source is there at the end of the
operation: the bytes of the file, or its text rendered once.  No directive that
comes later changes it.
-/

namespace Stencil

open FileTree Session Action Placement

/-! ## The bytes of files -/

/-- The bytes of the file that a path leads to. -/
def Session.bytesAt? (s : Session) (path : FilePath) : Option Bytes :=
  match s.tree.look s.here path.text true with
  | .ok (.file (.bytes bytes)) => some bytes
  | _ => none

theorem Session.bytesAt?_eq_some_iff {s : Session} {path : FilePath} {bytes : Bytes} :
    s.bytesAt? path = some bytes ↔
      s.tree.look s.here path.text true = .ok (.file (.bytes bytes)) := by
  unfold bytesAt?
  split
  · rename_i heq
    simp [heq]
  · rename_i hother
    simp only [reduceCtorEq, false_iff]
    exact hother bytes

namespace Scaffold

variable {v : Visit} {place : Location}

theorem Visit.Course.makes (h : v.Course) (hmade : v.isMade = true) :
    ∃ place, v.Opens ∧ v.Makes place := by
  cases h with
  | skipped hunselected _ => simp [isMade, hunselected] at hmade
  | preserved _ hunmade _ _ =>
      rw [hunmade] at hmade
      cases hmade
  | made _ hopens place hmakes => exact ⟨place, hopens, hmakes⟩

theorem Visit.isProper_source (v : Visit) : v.source.IsProper := by
  unfold source sourceIn
  split <;> exact FilePath.isProper_ofText _

/-- A file that is found in the source when the directive is reached is filled. -/
theorem Visit.Makes.look_filled (h : v.Makes place) {rest : List Text} {content : Content}
    (hrest : Location.IsProper rest)
    (hfile : v.opened.tree.look v.opened.here (v.source.below rest).text true =
      .ok (.file content)) :
    ∃ later, filled v.job.vars (v.target.below rest) content = .ok later ∧
      v.after.tree.look v.after.here (v.target.below rest).text true = .ok (.file later) := by
  obtain ⟨later, hfilled, hget⟩ :=
    h.made.filled rest content hrest (holdsFile_of_look v.isProper_source hrest hfile)
  exact ⟨later, hfilled, (h.region.look_iff hrest).2 hget⟩

/-- A file that the source held before the directive was reached is filled. -/
theorem Visit.Makes.bytesAt? (h : v.Makes place) {s : Session} {rest : List Text} {bytes : Bytes}
    (hhere : v.opened.here = s.here) (hkept : s.tree.IsKeptBy v.opened.tree)
    (hrest : Location.IsProper rest) (hfile : s.bytesAt? (v.source.below rest) = some bytes) :
    ∃ later, filledBytes v.job.vars (v.target.below rest) bytes = .ok later ∧
      v.after.bytesAt? (v.target.below rest) = some later := by
  have hlook := look_kept hkept (bytesAt?_eq_some_iff.1 hfile)
  rw [← hhere] at hlook
  obtain ⟨content, hfilled, hafter⟩ := h.look_filled hrest hlook
  cases hbytes : filledBytes v.job.vars (v.target.below rest) bytes with
  | error error =>
      rw [filled, hbytes] at hfilled
      cases hfilled
  | ok later =>
      rw [filled, hbytes] at hfilled
      cases hfilled
      exact ⟨later, rfl, bytesAt?_eq_some_iff.2 hafter⟩

/-! ## Rendering once -/

/-- Every file of a source is rendered once where its directive makes the target. -/
theorem made_files_rendered_once (library : Library) (operation : Operation) (s : Session)
    (hwell : s.tree.WellFormed) (hcalm : s.IsCalm)
    (hdirect : operation.usesGenerator library s = false)
    (hsuccess : operation.succeeds library s = true) (v : Visit)
    (hv : v ∈ operation.visits library s) (hmade : v.isMade = true) (rest : List Text)
    (hrest : Location.IsProper rest) (bytes : Bytes)
    (hfile : s.bytesAt? (v.source.below rest) = some bytes) :
    ∃ later, filledBytes v.job.vars (v.target.below rest) bytes = .ok later ∧
      ((operation.perform library).after s).bytesAt? (v.target.below rest) = some later := by
  obtain ⟨job, start, finish, hrun⟩ := exists_runsTo hdirect hsuccess
  obtain ⟨hwell', hadds⟩ := hrun.adds hwell
  have hcalm' : Session.IsCalm { start with journal := .empty } := hrun.agrees.isCalm hcalm
  rw [hrun.visits_eq] at hv
  obtain ⟨-, hcourse, hbefore, hafter⟩ :=
    course_of_mem hcalm' hwell' (hrun.isProper_target hwell) hrun.run hv
  obtain ⟨place, hopens, hmakes⟩ := hcourse.makes hmade
  have hopened := hbefore.trans hopens.grows
  obtain ⟨later, hlater, hbytes⟩ := hmakes.bytesAt? (hopened.here.trans hrun.agrees.here)
    (hadds.kept.trans hopened.added.kept) hrest hfile
  refine ⟨later, hlater, ?_⟩
  -- what comes later keeps the file
  rw [bytesAt?_eq_some_iff, ← hafter.here] at hbytes
  rw [hrun.ended.after_eq, bytesAt?_eq_some_iff]
  exact look_kept hafter.added.kept hbytes

/-- The first directive of a run, whose source is a template that inserts a template. -/
theorem made_files_rendered_once_rendering :
    ∃ v ∈ (Operation.feature (Sample.feature "/p")).visits Sample.library Sample.rendering,
      v.isMade = true ∧ Sample.rendering.bytesAt? (v.source.below []) =
        some (("Hi {{ name }}" : Text).flatMap CodePoint.utf8) ∧
      ∃ later, filledBytes v.job.vars (v.target.below [])
          (("Hi {{ name }}" : Text).flatMap CodePoint.utf8) = .ok later ∧
        (((Operation.feature (Sample.feature "/p")).perform Sample.library).after
          Sample.rendering).bytesAt? (v.target.below []) = some later := by
  obtain ⟨v, hv, hmade, hfile⟩ :
      ∃ v ∈ (Operation.feature (Sample.feature "/p")).visits Sample.library Sample.rendering,
        v.isMade = true ∧ Sample.rendering.bytesAt? (v.source.below []) =
          some (("Hi {{ name }}" : Text).flatMap CodePoint.utf8) := by decide +kernel
  exact ⟨v, hv, hmade, hfile, made_files_rendered_once _ _ _ Sample.wellFormed_rendering
    ⟨rfl, rfl⟩ Sample.usesGenerator_rendering Sample.succeeds_rendering v hv hmade []
    (by decide) _ hfile⟩

example : (((Operation.feature (Sample.feature "/p")).perform Sample.library).after
    Sample.rendering).bytesAt? (.ofText "/p/g") =
      some (("Hi {{ x }}" : Text).flatMap CodePoint.utf8) := by decide +kernel

/-- A path with dots may lead to one of the directories that are made above it, and a target that
lies in the source may turn the source into a directory.  So a file can be left out although
nothing was at its target when its directive was reached. -/
theorem files_left_out_of_missing_targets :
    let dots := Sample.session ["f->b/c/.."] [(["t", "w", "f"], Sample.file "Hi")]
    let inside := Sample.session ["x->x/y"] [(["t", "w", "x.j2"], Sample.file "Hi")]
    let intoProject := Operation.feature (Sample.feature "/p")
    let intoTemplate := Operation.feature (Sample.feature "/t/w")
    intoProject.usesGenerator Sample.library dots = false ∧
      intoProject.succeeds Sample.library dots = true ∧
      (∃ v ∈ intoProject.visits Sample.library dots, v.isSelected = true ∧
        (v.before.tree.look v.before.here v.target.text false).isOk = false ∧
        dots.bytesAt? (.ofText "/t/w/f") = some (("Hi" : Text).flatMap CodePoint.utf8) ∧
        ((intoProject.perform Sample.library).after dots).bytesAt? v.target = none) ∧
      intoTemplate.usesGenerator Sample.library inside = false ∧
      intoTemplate.succeeds Sample.library inside = true ∧
      ∃ v ∈ intoTemplate.visits Sample.library inside, v.isSelected = true ∧
        (v.before.tree.look v.before.here v.target.text false).isOk = false ∧
        sourceIn v.before.tree v.before.here Sample.library.suffix
          (v.job.template.child v.directive.source) = .ofText "/t/w/x.j2" ∧
        inside.bytesAt? (.ofText "/t/w/x.j2") = some (("Hi" : Text).flatMap CodePoint.utf8) ∧
        ((intoTemplate.perform Sample.library).after inside).bytesAt? v.target = none := by
  decide +kernel

end Scaffold

end Stencil
