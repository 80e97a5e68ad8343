import Stencil.Proofs.Scaffold.Created
import Stencil.Proofs.Scaffold.Rendered

/-!
# Files that arrive

Every file in the source of a directive that is applied arrives below its target,
unless something is at the target already when the directive is reached.  Then
the outcome warns of the target.
-/

namespace Stencil.Scaffold

open FileTree Session Action Placement

variable {v : Visit}

theorem Visit.Course.made_or_warns (h : v.Course) (hselected : v.isSelected = true) :
    (v.isMade = true ∧ ∃ place, v.Makes place) ∨
      (∃ item, v.opened.tree.look v.opened.here v.target.text false = .ok item) ∧
        preservedWarning (nameOf v.job v.raw) ∈ v.after.journal.warnings := by
  cases h with
  | skipped hunselected _ =>
      rw [hselected] at hunselected
      cases hunselected
  | preserved _ _ _ hpreserves =>
      obtain ⟨files, -, hjournal⟩ := hpreserves.recorded
      exact .inr ⟨hpreserves.isThere, by simp [hjournal]⟩
  | made hmade _ place hmakes => exact .inl ⟨hmade, place, hmakes⟩

/-- Each directive that is applied either makes its target, with every file of its source, or
finds something at its target and warns of it. -/
theorem selected_files_arrive (library : Library) (operation : Operation) (s : Session)
    (hwell : s.tree.WellFormed) (hcalm : s.IsCalm)
    (hdirect : operation.usesGenerator library s = false)
    (hsuccess : operation.succeeds library s = true) (v : Visit)
    (hv : v ∈ operation.visits library s) (hselected : v.isSelected = true) :
    (v.isMade = true ∧ ∀ rest content, Location.IsProper rest →
      v.opened.tree.look v.opened.here (v.source.below rest).text true = .ok (.file content) →
      ∃ later, ((operation.perform library).after s).tree.look
        ((operation.perform library).after s).here (v.target.below rest).text true =
          .ok (.file later)) ∨
      (∃ item, v.opened.tree.look v.opened.here v.target.text false = .ok item) ∧
        ∃ outcome, operation.outcome? library s = some outcome ∧
          preservedWarning (nameOf v.job v.raw) ∈ outcome.warnings := by
  obtain ⟨job, start, finish, hrun⟩ := exists_runsTo hdirect hsuccess
  obtain ⟨hwell', -⟩ := hrun.adds hwell
  have hcalm' : Session.IsCalm { start with journal := .empty } := hrun.agrees.isCalm hcalm
  have htarget := hrun.isProper_target hwell
  rw [hrun.visits_eq] at hv
  obtain ⟨-, hcourse, -, hafter⟩ := course_of_mem hcalm' hwell' htarget hrun.run hv
  rcases hcourse.made_or_warns hselected with ⟨hmade, place, hmakes⟩ | ⟨hthere, hwarning⟩
  · refine .inl ⟨hmade, fun rest content hrest hfile => ?_⟩
    obtain ⟨later, -, hlook⟩ := hmakes.look_filled hrest hfile
    rw [hrun.ended.after_eq]
    rw [← hafter.here] at hlook
    exact ⟨later, look_kept hafter.added.kept hlook⟩
  · obtain ⟨gain, hjournal⟩ := journal_of_mem hcalm' hwell' htarget hrun.run hv
    refine .inr ⟨hthere, _, Operation.outcome?_eq hrun.ended, ?_⟩
    rw [Operation.outcomeOf, hjournal]
    exact List.mem_append_left _ hwarning

/-- The second directive of a run, whose source is a directory. -/
theorem selected_files_arrive_rendering :
    ∃ v ∈ (Operation.feature (Sample.feature "/p")).visits Sample.library Sample.rendering,
      v.isSelected = true ∧ v.raw = "d" ∧
      ((v.isMade = true ∧ ∀ rest content, Location.IsProper rest →
        v.opened.tree.look v.opened.here (v.source.below rest).text true = .ok (.file content) →
        ∃ later, (((Operation.feature (Sample.feature "/p")).perform Sample.library).after
            Sample.rendering).tree.look
          (((Operation.feature (Sample.feature "/p")).perform Sample.library).after
            Sample.rendering).here (v.target.below rest).text true = .ok (.file later)) ∨
        (∃ item, v.opened.tree.look v.opened.here v.target.text false = .ok item) ∧
          ∃ outcome, (Operation.feature (Sample.feature "/p")).outcome? Sample.library
              Sample.rendering = some outcome ∧
            preservedWarning (nameOf v.job v.raw) ∈ outcome.warnings) := by
  obtain ⟨v, hv, hselected, hraw⟩ :
      ∃ v ∈ (Operation.feature (Sample.feature "/p")).visits Sample.library Sample.rendering,
        v.isSelected = true ∧ v.raw = "d" := by decide +kernel
  exact ⟨v, hv, hselected, hraw, selected_files_arrive _ _ _ Sample.wellFormed_rendering
    ⟨rfl, rfl⟩ Sample.usesGenerator_rendering Sample.succeeds_rendering v hv hselected⟩

/-- A file that an earlier directive puts into a directory keeps the directory from being made, so
another file of the directory is left out. -/
theorem files_left_out_of_started_directories :
    let started := Sample.session ["d/f", "d"] [(["t", "w", "d"], .directory),
      (["t", "w", "d", "f"], Sample.file "f"), (["t", "w", "d", "g"], Sample.file "g")]
    let feature := Operation.feature (Sample.feature "/p")
    let later := (feature.perform Sample.library).after started
    feature.usesGenerator Sample.library started = false ∧
      feature.succeeds Sample.library started = true ∧
      ∃ v ∈ feature.visits Sample.library started, v.isSelected = true ∧
        (started.tree.look started.here v.target.text false).isOk = false ∧
        started.bytesAt? (v.source.below ["g"]) = some (("g" : Text).flatMap CodePoint.utf8) ∧
        (later.tree.look later.here (v.target.below ["g"]).text false).isOk = false := by
  decide +kernel

end Stencil.Scaffold
