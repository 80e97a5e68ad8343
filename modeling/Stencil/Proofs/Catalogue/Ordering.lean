import Stencil.Catalogue.Creation
import Stencil.Proofs.Scaffold.Preparation
import Stencil.Proofs.Schema.Checked

/-!
# Orders

Whatever a name stands for, the boilerplate of that name is found and its
variables are checked without a change of the files: all that is left of it are
manifests that are remembered, and warnings that were shown.
-/

namespace Stencil

open Session Action

theorem Action.Discipline.filterMapM {α β : Type} {rel : Session → Session → Prop}
    (hrel : Discipline rel) {f : α → Action (Option β)} {items : List α}
    (h : ∀ item ∈ items, (f item).Follows rel) : (items.filterMapM f).Follows rel := by
  have hloop : ∀ found, (List.filterMapM.loop f items found).Follows rel := by
    induction items with
    | nil => exact fun found => hrel.pure _
    | cons item items ih =>
        intro found
        refine hrel.bind (h item List.mem_cons_self) fun result => ?_
        cases result <;> exact ih (fun other hother => h other (List.mem_cons_of_mem _ hother)) _
  exact hloop []

/-! ## Searching templates -/

namespace Templates

theorem follows_subdirectories (directory : FilePath) :
    (subdirectories directory).Follows Looks := by
  have heq : ∀ s s' : Session, s = s' → s.Looks s' := fun _ _ => looks_of_eq
  refine discipline_looks.bind (fun s r s' h => looks_of_eq (ends_namesIn.1 h).2.symm) ?_
  exact fun names => discipline_looks.filterM fun name _ => (follows_isDirectory _).mono heq

theorem follows_listedIn {descend : FilePath → List Text → Action (List Text)}
    (hdescend : ∀ directory path, (descend directory path).Follows Looks) (directory : FilePath)
    (path : List Text) (name : Text) : (listedIn descend directory path name).Follows Looks := by
  refine discipline_looks.bind (fun s r s' h => looks_of_eq (ends_passes.1 h).2.symm) fun found => ?_
  split
  · exact discipline_looks.pure _
  · exact hdescend _ _

theorem follows_listedBelow {descend : FilePath → List Text → Action (List Text)}
    (hdescend : ∀ directory path, (descend directory path).Follows Looks) (directory : FilePath)
    (path : List Text) : (listedBelow descend directory path).Follows Looks := by
  refine discipline_looks.bind (follows_subdirectories directory).attempt fun result => ?_
  cases result with
  | ok names =>
      exact discipline_looks.bind
        (discipline_looks.mapM fun name _ => follows_listedIn hdescend directory path name)
        fun _ => discipline_looks.pure _
  | error failure =>
      dsimp only
      split
      · exact discipline_looks.bind (follows_printWarning _) fun _ => discipline_looks.pure _
      · exact discipline_looks.throw _

theorem follows_below (depth : Nat) (directory : FilePath) (path : List Text) :
    (below depth directory path).Follows Looks := by
  induction depth generalizing directory path with
  | zero => exact follows_listedBelow (fun _ _ => discipline_looks.pure _) _ _
  | succ depth ih => exact follows_listedBelow ih _ _

theorem follows_listed (root : FilePath) : (listed root).Follows Looks := by
  refine discipline_looks.bind ((follows_isDirectory _).mono fun _ _ => looks_of_eq) fun found => ?_
  split
  · exact follows_below _ _ _
  · exact discipline_looks.pure _

end Templates

/-! ## Reading requests -/

section Requests

open Checked Schema

/-- A request holds what was read from each of its fields. -/
theorem ProjectRequest.fields_of_read {fields : Fields} {made : ProjectRequest}
    (h : ProjectRequest.read fields = ok made) :
    fields.required ["project_name"] checkName = ok made.projectName ∧
      fields.required ["package_name"] (textOfLength 1) = ok made.packageName ∧
      fields.required ["target_folder"] (textOfLength 1) = ok made.targetFolder ∧
      fields.required ["template_folder"] (textOfLength 1) = ok made.templateFolder ∧
      fields.required ["boilerplate_name"] (textOfLength 1) = ok made.boilerplate ∧
      fields.withDefault ["variables"] Schema.fields [] = ok made.vars := by
  obtain ⟨_, vars, hfive, hvars, rfl⟩ := seq_eq_ok.1 h
  obtain ⟨_, boilerplate, hfour, hboilerplate, rfl⟩ := seq_eq_ok.1 hfive
  obtain ⟨_, template, hthree, htemplate, rfl⟩ := seq_eq_ok.1 hfour
  obtain ⟨_, folder, htwo, hfolder, rfl⟩ := seq_eq_ok.1 hthree
  obtain ⟨_, package, hone, hpackage, rfl⟩ := seq_eq_ok.1 htwo
  obtain ⟨name, hname, rfl⟩ := map_eq_ok.1 hone
  exact ⟨hname, hpackage, hfolder, htemplate, hboilerplate, hvars⟩

theorem FeatureRequest.fields_of_read {fields : Fields} {made : FeatureRequest}
    (h : FeatureRequest.read fields = ok made) :
    fields.required ["project_path"] (textOfLength 1) = ok made.projectPath ∧
      fields.required ["template_folder"] (textOfLength 1) = ok made.templateFolder ∧
      fields.required ["feature_name"] (textOfLength 1) = ok made.feature ∧
      fields.withDefault ["variables"] Schema.fields [] = ok made.vars := by
  obtain ⟨_, vars, hthree, hvars, rfl⟩ := seq_eq_ok.1 h
  obtain ⟨_, feature, htwo, hfeature, rfl⟩ := seq_eq_ok.1 hthree
  obtain ⟨_, template, hone, htemplate, rfl⟩ := seq_eq_ok.1 htwo
  obtain ⟨path, hpath, rfl⟩ := map_eq_ok.1 hone
  exact ⟨hpath, htemplate, hfeature, hvars⟩

end Requests

/-! ## Finding boilerplates -/

namespace Catalogue

theorem follows_loadListed (template : FilePath) (name : Text) :
    (Manifests.loadListed template name).Follows Reads :=
  discipline_reads.orElseIf (follows_load template) fun _ =>
    discipline_reads.bind ((follows_printWarning _).mono fun _ _ => Looks.reads) fun _ =>
      discipline_reads.pure _

theorem follows_listedEntry (template : Text) (entry : Entry) :
    (listedEntry template entry).Follows Reads := by
  unfold listedEntry
  split
  · exact discipline_reads.pure _
  · exact discipline_reads.bind ((follows_printWarning _).mono fun _ _ => Looks.reads) fun _ =>
      discipline_reads.pure _

theorem follows_listedTemplate (library : Library) (template : Text) :
    (listedTemplate library template).Follows Reads := by
  refine discipline_reads.bind (follows_loadListed _ _) fun found => ?_
  cases found with
  | none => exact discipline_reads.pure _
  | some manifest => exact discipline_reads.filterMapM fun entry _ => follows_listedEntry _ entry

theorem follows_boilerplates (library : Library) : (boilerplates library).Follows Reads := by
  refine discipline_reads.bind ((Templates.follows_listed _).mono fun _ _ => Looks.reads) ?_
  intro templates
  exact discipline_reads.bind
    (discipline_reads.mapM fun template _ => follows_listedTemplate library template) fun _ =>
      discipline_reads.pure _

theorem follows_order (library : Library) (name : Text) (vars : Variables) :
    (order library name vars).Follows Reads := by
  refine discipline_reads.bind (follows_boilerplates library) fun boilerplates => ?_
  split
  · exact discipline_reads.pure _
  refine discipline_reads.bind (discipline_reads.lift _) fun resolved => ?_
  split
  · exact discipline_reads.pure _
  split
  · exact discipline_reads.pure _
  exact discipline_reads.bind (discipline_reads.lift _) fun _ => discipline_reads.pure _

/-! ## What an order asks for -/

variable {library : Library} {name : Text} {vars : Variables} {s s' : Session}
  {boilerplate : Boilerplate} {made : ProjectRequest}

/-- An order is for the first boilerplate of its name, by whose schema its variables were
checked. -/
structure Ordered (library : Library) (name : Text) (vars : Variables) (s : Session)
    (boilerplate : Boilerplate) (made : ProjectRequest) (s' : Session) : Prop where
  found : ∃ all, (boilerplates library).Ends s (.ok all) s' ∧
    all.find? (·.name = name) = some boilerplate
  asked : ∃ resolved package, boilerplate.schema.resolve vars = .ok (.ok resolved) ∧
    packageName? resolved = some package ∧
    request boilerplate package resolved = Checked.ok made

/-- An order that fails tells so. -/
theorem ends_order {found : Except Outcome (Boilerplate × ProjectRequest)}
    (h : (order library name vars).Ends s (.ok found) s') :
    (∃ outcome, found = .error outcome ∧ outcome.success = false) ∨
      ∃ boilerplate made, found = .ok (boilerplate, made) ∧
        Ordered library name vars s boilerplate made s' := by
  obtain ⟨all, m, hall, hfound⟩ := ends_bind_ok.1 h
  split at hfound
  · exact .inl ⟨_, Except.ok.inj (ends_pure.1 hfound).1, rfl⟩
  rename_i boilerplate hfirst
  obtain ⟨resolved, t, hresolve, hnamed⟩ := ends_bind_ok.1 hfound
  obtain ⟨hresolved, rfl⟩ := ends_lift_mapError_ok.1 hresolve
  split at hnamed
  · exact .inl ⟨_, Except.ok.inj (ends_pure.1 hnamed).1, rfl⟩
  rename_i resolved
  split at hnamed
  · exact .inl ⟨_, Except.ok.inj (ends_pure.1 hnamed).1, rfl⟩
  rename_i package hpackage
  obtain ⟨made, u, hasked, hlast⟩ := ends_bind_ok.1 hnamed
  obtain ⟨hrequest, rfl⟩ := ends_lift_mapError_ok.1 hasked
  obtain ⟨hmade, rfl⟩ := ends_pure.1 hlast
  exact .inr ⟨boilerplate, made, Except.ok.inj hmade, ⟨all, hall, hfirst⟩, resolved, package,
    hresolved, hpackage, hrequest⟩

/-- What is asked for is told by the boilerplate. -/
theorem Ordered.fields (h : Ordered library name vars s boilerplate made s') :
    made.targetFolder = boilerplate.targetFolder ∧ made.templateFolder = boilerplate.template ∧
      made.boilerplate = boilerplate.name := by
  obtain ⟨_, _, -, -, hrequest⟩ := h.asked
  obtain ⟨-, -, hfolder, htemplate, hname, -⟩ := ProjectRequest.fields_of_read hrequest
  exact ⟨Schema.Fields.required_text (by rfl) hfolder,
    Schema.Fields.required_text (by rfl) htemplate,
    Schema.Fields.required_text (by rfl) hname⟩

theorem Ordered.name_eq (h : Ordered library name vars s boilerplate made s') :
    boilerplate.name = name := by
  obtain ⟨all, -, hfound⟩ := h.found
  simpa using List.find?_some hfound

end Catalogue

end Stencil
