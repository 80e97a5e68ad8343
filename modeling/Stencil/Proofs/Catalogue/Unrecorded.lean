import Stencil.Proofs.Catalogue.Making
import Stencil.Proofs.Project.Recorded

/-!
# Templates that could not be recorded

When the template of a project cannot be recorded, the files are left as they are.
The exception is half of a surrogate pair in the template or in the entries: the
file is open by the time that it turns out not to be encodable, and so it is left
empty.
-/

namespace Stencil

open FileTree Session Action

variable {s s' : Session} {place : Location} {folder name template : Text} {failure : Failure}
  {fields : List (Text × Value)} {boilerplate : Boilerplate} {outcome : Outcome} {c : CodePoint}

/-! ## Files that are emptied -/

namespace Project

theorem contains_amended (h : Json.Contains c (.map (Entries.ofFields (amended template fields)))) :
    c ∈ templateKey ∨ c ∈ template ∨ Json.Contains c (.map (Entries.ofFields fields)) := by
  obtain ⟨field, hfield, hcontains⟩ := Json.contains_map_iff.1 h
  rcases Keyed.eq_or_mem_of_mem_put hfield with rfl | hmem
  · refine hcontains.imp_right fun hvalue => .inl ?_
    cases hvalue with
    | text hmem => exact hmem
  · exact .inr (.inr (Json.contains_map_iff.2 ⟨field, hmem, hcontains⟩))

/-- The file of a project is empty, as the template or the entries have half of a surrogate pair.
Nothing else is changed. -/
structure Emptied (s : Session) (folder name template : Text) (failure : Failure) (s' : Session) :
    Prop where
  unencodable : ∃ error, failure = .unencodable error
  surrogate : ∃ fields c, Prior s folder name fields ∧ c.isSurrogate = true ∧
    (c ∈ template ∨ Json.Contains c (.map (Entries.ofFields fields)))
  emptied : ∃ place, s'.tree.locate s'.here (recordPath folder name).text true = .ok place ∧
    s'.tree.get? place = some (.file (.bytes [])) ∧
    ∀ other, other ≠ place → s'.tree.get? other = s.tree.get? other ∨
      s.tree.get? other = none ∧ s'.tree.get? other = some .directory

theorem ends_record_error (hwell : s.tree.WellFormed)
    (h : (record folder name template).Ends s (.error failure) s') :
    s.tree.AddsDirectories s'.tree ∨ Emptied s folder name template failure s' := by
  rcases ends_record_or hwell h with ⟨_, -, hensures⟩ | ⟨fields, m, place, hrecords⟩
  · exact .inl (hensures.adds hwell).2
  obtain ⟨r, hwriting, hr⟩ := hrecords.writing
  cases hwriting with
  | stored encoded stores => cases hr
  | emptied unencoded stores =>
      cases hr
      obtain ⟨c, hsurrogate, hcontains⟩ :=
        Json.exists_surrogate_of_encode (isData_amended hrecords.prior.isData template) unencoded
      refine .inr ⟨⟨_, rfl⟩, ⟨fields, c, hrecords.prior, hsurrogate, ?_⟩, place,
        stores.locate (hrecords.ensures.adds hwell).1, stores.held,
        fun other hother => hrecords.others hwell hother⟩
      refine (contains_amended hcontains).resolve_left fun hkey => ?_
      have hplain : ∀ c ∈ templateKey, c.isSurrogate = false := by decide
      rw [hplain c hkey] at hsurrogate
      cases hsurrogate

end Project

/-! ## Warnings -/

namespace Catalogue

/-- The outcome with a warning of a template that could not be recorded. -/
def warned (outcome : Outcome) (failure : Failure) : Outcome :=
  { outcome with warnings := outcome.warnings ++
      [("Failed to update project.json with sourceTemplate: " : Text) ++ failure.message] }

/-- A failure of the files, or of what they hold, only makes a warning. -/
theorem ends_recorded_error (hcaught : (failure.isOfSystem || failure.isOfValue) = true)
    (h : (Project.record boilerplate.targetFolder name boilerplate.template).Ends s
      (.error failure) s') :
    ∃ t, (recorded boilerplate name outcome).Ends s (.ok (warned outcome failure)) t ∧
      s'.Looks t := by
  have hrecording : (do
      let _ ← Project.record boilerplate.targetFolder name boilerplate.template
      return outcome : Action Outcome).Ends s (.error failure) s' :=
    ends_bind.2 (.inr ⟨failure, h, rfl⟩)
  have hprint := Ends.run (printWarning
    (("Failed to update project.json with sourceTemplate: " : Text) ++ failure.message)) s'
  have hlooks := follows_printWarning _ _ _ _ hprint
  rw [ends_printWarning _ hprint] at hprint
  exact ⟨_, ends_orElseIf.2 (.inr (.inl ⟨failure, s', hrecording, hcaught,
    hprint.bind (ends_pure.2 ⟨rfl, rfl⟩)⟩)), hlooks⟩

/-- A template that is not recorded leaves the files as they are, and the new project too, which
is only warned of.  The file of the project is emptied if it turns out too late that half of a
surrogate pair would be written. -/
theorem unrecorded_template_keeps_files (boilerplate : Boilerplate) (outcome : Outcome)
    (hwell : s.tree.WellFormed)
    (h : (Project.record boilerplate.targetFolder name boilerplate.template).Ends s
      (.error failure) s') :
    (s.tree.AddsDirectories s'.tree ∨
      Project.Emptied s boilerplate.targetFolder name boilerplate.template failure s') ∧
    ((failure.isOfSystem || failure.isOfValue) = true →
      ∃ t, (recorded boilerplate name outcome).Ends s (.ok (warned outcome failure)) t ∧
        t.tree = s'.tree ∧ t.here = s'.here) := by
  refine ⟨Project.ends_record_error hwell h, fun hcaught => ?_⟩
  obtain ⟨t, hend, hlooks⟩ := ends_recorded_error hcaught h
  exact ⟨t, hend, hlooks.tree, hlooks.here⟩

namespace Sample

/-- New projects in the current directory. -/
def apps : Boilerplate := ⟨"b", none, none, .empty, "t", ".", []⟩

def made : Outcome := ⟨true, [], [], [], []⟩

/-- A project file that ends too early. -/
def unfinished : Session := Project.Sample.session "\x7b"

/-- A project file with half of a surrogate pair in a value. -/
def halved : Session := Project.Sample.session "\x7b\"a\": \"\\ud800\"\x7d"

end Sample

theorem unrecorded_template_keeps_files_unfinished :
    let recording := Project.record Sample.apps.targetFolder "n" Sample.apps.template
    Sample.unfinished.tree.WellFormed ∧ ∃ failure later,
      recording.Ends Sample.unfinished (.error failure) later ∧
        Sample.unfinished.tree.AddsDirectories later.tree := by
  intro recording
  have hwell : Sample.unfinished.tree.WellFormed := by decide +kernel
  have hnone : (recording.result Sample.unfinished).toOption = none := by decide +kernel
  have hbytes : (recording.after Sample.unfinished).bytesAt? (Project.recordPath "." "n") =
    some (("\x7b" : Text).flatMap CodePoint.utf8) := by decide +kernel
  have hrun := Ends.run recording Sample.unfinished
  cases hresult : recording.result Sample.unfinished with
  | ok path =>
      rw [hresult] at hnone
      cases hnone
  | error failure =>
      rw [hresult] at hrun
      refine ⟨hwell, failure, _, hrun, ?_⟩
      obtain ⟨hadds | hemptied, -⟩ :=
        unrecorded_template_keeps_files Sample.apps Sample.made hwell hrun
      · exact hadds
      · obtain ⟨place, hlocate, hget, -⟩ := hemptied.emptied
        have hempty := bytesAt?_eq_some_iff.2 (look_eq_ok_iff.2 ⟨place, hlocate, hget⟩)
        have hlost := hbytes.symm.trans hempty
        cases hlost

/-- A project file is emptied although the template is not recorded in it, and the project counts
as made. -/
theorem half_pair_empties_project_file :
    let recording := Project.record Sample.apps.targetFolder "n" Sample.apps.template
    let warning := recorded Sample.apps "n" Sample.made
    Sample.halved.bytesAt? (Project.recordPath "." "n") =
        some (("\x7b\"a\": \"\\ud800\"\x7d" : Text).flatMap CodePoint.utf8) ∧
      (recording.result Sample.halved).toOption = none ∧
      (recording.after Sample.halved).bytesAt? (Project.recordPath "." "n") = some [] ∧
      (warning.result Sample.halved).toOption.map Outcome.success = some true ∧
      (warning.after Sample.halved).bytesAt? (Project.recordPath "." "n") = some [] := by
  decide +kernel

end Catalogue

end Stencil
