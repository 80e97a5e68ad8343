import Stencil.Proofs.Catalogue.Ordering
import Stencil.Proofs.Project
import Stencil.Proofs.Scaffold.Performing
import Stencil.Proofs.Session.Work

/-!
# Work on targets

Filling, placing, recording and running generators is work as well, and so is
whatever is done for an entry.
-/

namespace Stencil

open Session Action Placement

/-! ## Filling and placing -/

namespace Placement

theorem works_skipped (kind path : Text) (failure : Failure) :
    (skipped kind path failure).Follows Works :=
  follows_skipped_of discipline_works works_printWarning kind path failure

theorem works_fillFile (path : Text) (vars : Variables) :
    (fillFile path vars).Follows Works := by
  unfold fillFile
  split
  · exact discipline_works.pure _
  refine discipline_works.bind (works_of_peeks (peeks_readText _)).attempt fun found => ?_
  cases found with
  | error failure => exact discipline_works.orThrow (works_skipped _ _ _)
  | ok text =>
      dsimp only
      split
      case isFalse => exact discipline_works.pure _
      refine discipline_works.bind (works_render _ _) fun rendered => ?_
      refine discipline_works.orElseIf ?_ fun failure => ?_
      · exact discipline_works.bind (works_guarded (works_writeFile _ _)) fun _ =>
          discipline_works.pure _
      · exact discipline_works.bind (works_skipped _ _ _) fun _ =>
          discipline_works.pure _

theorem works_fillItem {descend : Text → Action (List Text)}
    (hdescend : ∀ path, (descend path).Follows Works) (directory : FilePath) (vars : Variables)
    (name : Text) : (fillItem descend directory vars name).Follows Works := by
  refine discipline_works.bind (works_of_peeks (peeks_item _)).attempt fun found => ?_
  cases found with
  | error failure => exact discipline_works.orThrow (works_skipped _ _ _)
  | ok item =>
      cases item with
      | directory => exact hdescend _
      | file content => exact works_fillFile _ _
      | link target => exact discipline_works.pure _

theorem works_fillDirectory (vars : Variables) (depth : Nat) (path : Text) :
    (fillDirectory vars depth path).Follows Works :=
  follows_fillDirectory_of discipline_works (fun _ _ => Peeks.works) works_printWarning
    (fun _ hdescend directory _ name => works_fillItem hdescend directory vars name) depth path

theorem works_fill (path : Text) (vars : Variables) :
    (fill path vars).Follows Works := by
  refine discipline_works.bind (works_of_peeks (peeks_isDirectory _)) fun found => ?_
  split
  · exact works_fillDirectory _ _ _
  · exact works_fillFile _ _

theorem works_record (note : Journal → Text → Journal) (path : Text) :
    (record note path).Follows Works :=
  follows_record_of discipline_works (fun _ _ => Peeks.works) works_printWarning
    (fun _ => works_updateJournal _) path

theorem works_exists? (path : Text) : (Storage.exists? path).Follows Works :=
  works_of_peeks (peeks_exists? path)

theorem works_findSource (suffix : Text) (source : FilePath) :
    (findSource suffix source).Follows Works := by
  refine discipline_works.bind (works_exists? _) fun found => ?_
  split
  · exact discipline_works.pure _
  refine discipline_works.bind (works_exists? _) fun found => ?_
  split
  · exact discipline_works.pure _
  · exact discipline_works.throw _

theorem works_make (suffix : Text) (source target : FilePath) (vars : Variables) :
    (make suffix source target vars).Follows Works := by
  refine discipline_works.bind (works_findSource _ _) fun source => ?_
  refine discipline_works.bind (works_guarded (works_copy _ _)) fun _ => ?_
  refine discipline_works.bind (works_fill _ _) fun warnings => ?_
  refine discipline_works.bind (works_updateJournal _) fun _ => ?_
  exact works_record _ _

theorem works_place (suffix : Text) (source target : FilePath) (vars : Variables) :
    (place suffix source target vars).Follows Works := by
  refine discipline_works.bind (works_guarded (works_ensureDirectories _)) ?_
  intro _
  refine discipline_works.bind (works_exists? _) fun found => ?_
  split
  · exact discipline_works.bind (works_record _ _) fun _ => discipline_works.pure _
  · exact discipline_works.bind (works_make _ _ _ _) fun _ =>
      discipline_works.pure _

end Placement

/-! ## Generators -/

namespace Generator

theorem works_load (template : FilePath) (name : Text) :
    (load template name).Follows Works := by
  have hfind : (find template name).Follows Works := by
    refine discipline_works.bind (discipline_works.lift _) fun candidates => ?_
    induction candidates with
    | nil => exact discipline_works.throw _
    | cons candidate others ih =>
        refine discipline_works.bind (works_passes _ _) fun found => ?_
        split
        · exact discipline_works.pure _
        · exact ih
  refine discipline_works.bind hfind fun file => ?_
  split
  · exact discipline_works.bind_of (discipline_works.throw _) fun _ _ _ h => by
      cases (ends_throw.1 h).1
  refine discipline_works.bind (works_printDetail _) fun _ => ?_
  refine discipline_works.bind (works_readContent _) fun content => ?_
  split
  · exact discipline_works.pure _
  all_goals exact discipline_works.throw _

theorem works_run (job : Job) (procedure : Procedure) :
    (run job procedure).Follows Works := by
  cases procedure with
  | returns result => exact discipline_works.lift _
  | raises message => exact discipline_works.throw _
  | echo => exact discipline_works.pure _
  | render files =>
      refine discipline_works.bind (discipline_works.mapM fun file _ => ?_) fun _ =>
        discipline_works.pure _
      refine discipline_works.bind (works_renderText _ _) fun path => ?_
      refine discipline_works.bind (works_renderText _ _) fun text => ?_
      exact discipline_works.bind (works_guarded (works_writeFile _ _)) fun _ =>
        discipline_works.pure _
  | includes directives =>
      refine discipline_works.bind (works_journaled ?_) fun _ =>
        discipline_works.pure _
      refine discipline_works.forM fun raw _ => ?_
      refine discipline_works.bind (works_renderTarget _ _) fun rendered => ?_
      dsimp only
      split
      · exact discipline_works.bind (works_place _ _ _ _) fun _ =>
          discipline_works.pure _
      · exact discipline_works.pure _

end Generator

/-! ## Entries and projects -/

namespace Scaffold

theorem works_applyDirective (job : Generator.Job) (raw : Text) :
    (applyDirective job raw).Follows Works := by
  refine discipline_works.bind (works_renderTarget _ _) fun rendered => ?_
  dsimp only
  split
  · refine discipline_works.bind (works_updateJournal _) fun _ => ?_
    refine discipline_works.bind (works_place _ _ _ _) fun made => ?_
    split
    · exact discipline_works.bind (works_printWarning _) fun _ => works_updateJournal _
    · exact discipline_works.pure _
  · exact works_printDetail _

theorem works_applyEntry (kind : Kind) (job : Generator.Job) :
    (applyEntry kind job).Follows Works := by
  unfold applyEntry
  split
  · refine discipline_works.bind (works_printDetail _) fun _ => ?_
    refine discipline_works.bind (Generator.works_load _ _).attempt fun loaded => ?_
    cases loaded with
    | error failure => exact discipline_works.pure _
    | ok procedure =>
        refine discipline_works.bind (Generator.works_run _ _).attempt fun made => ?_
        cases made <;> exact discipline_works.pure _
  · refine discipline_works.bind (works_guarded (works_ensureDirectories _)) ?_
    intro _
    refine discipline_works.bind (works_journaled ?_) fun _ =>
      discipline_works.pure _
    exact discipline_works.forM fun raw _ => works_applyDirective job raw

theorem works_targetFault? (target : FilePath) (operation : Operation) :
    (operation.targetFault? target).Follows Works := by
  cases operation with
  | project request =>
      refine discipline_works.bind (works_exists? _) fun found => ?_
      split <;> exact discipline_works.pure _
  | feature request =>
      refine discipline_works.bind (works_exists? _) fun found => ?_
      split <;> exact discipline_works.pure _

end Scaffold

namespace Project

theorem works_sourceIn (file : Text) (value : Value) :
    (sourceIn file value).Follows Works := by
  unfold sourceIn
  split
  · exact discipline_works.pure _
  · split
    · exact discipline_works.pure _
    · exact discipline_works.throw _

theorem works_readYaml (path : FilePath) :
    (DataFiles.readYaml path).Follows Works :=
  discipline_works.bind (works_readText _) fun _ => discipline_works.lift _

theorem works_source (directory : FilePath) : (source directory).Follows Works := by
  have hown : ∀ root, (readOwn root).Follows Works := by
    intro root
    refine discipline_works.bind (works_passes _ _) fun found => ?_
    split
    case isFalse => exact discipline_works.pure _
    refine discipline_works.bind (discipline_works.orElseIf
      ((follows_readJson _).mono fun _ _ => .of_eq) fun _ => discipline_works.throw _) ?_
    exact fun entries => works_sourceIn _ _
  have hshared : ∀ root, (readShared root).Follows Works := by
    intro root
    refine discipline_works.bind (works_passes _ _) fun found => ?_
    split
    case isFalse => exact discipline_works.pure _
    refine discipline_works.bind (discipline_works.orElseIf (works_readYaml _)
      fun _ => discipline_works.throw _) ?_
    exact fun value => works_sourceIn _ _
  refine discipline_works.bind (works_resolve _) fun root => ?_
  refine discipline_works.bind (hown _) fun own => ?_
  split
  · exact discipline_works.pure _
  refine discipline_works.bind (hshared _) fun shared => ?_
  split
  · exact discipline_works.pure _
  · exact discipline_works.throw _

theorem works_record (folder name template : Text) :
    (record folder name template).Follows Works := by
  have hwrite : ∀ path value, (DataFiles.writeJson path value).Follows Works :=
    fun _ _ => works_writeFile _ _
  refine discipline_works.bind (works_passes _ _) fun found => ?_
  split
  · refine discipline_works.bind ((follows_readJson _).mono fun _ _ => .of_eq) fun _ => ?_
    exact discipline_works.bind (hwrite _ _) fun _ => discipline_works.pure _
  · refine discipline_works.bind (discipline_works.pure _) fun _ => ?_
    exact discipline_works.bind (hwrite _ _) fun _ => discipline_works.pure _

end Project

end Stencil
