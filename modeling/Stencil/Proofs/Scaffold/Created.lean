import Stencil.Journal
import Stencil.Proofs.Scaffold.Performing

/-!
# Created files

If no call is made to fail, a success tells of exactly the files that are new,
each one once.  They are told directive by directive, and what a directive makes
is told in the order of its names.
-/

namespace Stencil

open FileTree Session Action Placement

/-! ## Files that are new -/

/-- The places of the files that an earlier tree has nothing for. -/
structure FileTree.GainsFiles (tree later : FileTree) (places : List Location) : Prop where
  nodup : places.Nodup
  mem_iff : ∀ place, place ∈ places ↔
    tree.get? place = none ∧ ∃ content, later.get? place = some (.file content)

/-- Each path of a list leads to the place that stands for it. -/
def FileTree.LeadTo (tree : FileTree) (here : Location) (paths : List Text)
    (places : List Location) : Prop :=
  List.Forall₂ (fun path place => tree.locate here path true = .ok place) paths places

namespace FileTree

variable {tree later latest : FileTree} {here place : Location} {first second : List Location}
  {paths : List Text}

theorem GainsFiles.trans (h : tree.GainsFiles later first) (h' : later.GainsFiles latest second)
    (hkept : tree.IsKeptBy later) (hkept' : later.IsKeptBy latest) :
    tree.GainsFiles latest (first ++ second) := by
  refine ⟨List.nodup_append.2 ⟨h.nodup, h'.nodup, ?_⟩, fun place => ?_⟩
  · rintro place hplace _ hplace' rfl
    obtain ⟨-, content, hcontent⟩ := (h.mem_iff place).1 hplace
    rw [((h'.mem_iff place).1 hplace').1] at hcontent
    cases hcontent
  rw [List.mem_append, h.mem_iff, h'.mem_iff]
  constructor
  · rintro (⟨hnone, content, hcontent⟩ | ⟨hnone, hcontent⟩)
    · exact ⟨hnone, content, hkept' _ _ hcontent⟩
    · exact ⟨hkept.get?_eq_none hnone, hcontent⟩
  · rintro ⟨hnone, content, hcontent⟩
    cases hmiddle : later.get? place with
    | none => exact .inr ⟨rfl, content, hcontent⟩
    | some item =>
        rw [hkept' _ _ hmiddle] at hcontent
        cases hcontent
        exact .inl ⟨hnone, content, rfl⟩

theorem AddsDirectories.gainsFiles (h : tree.AddsDirectories later) :
    tree.GainsFiles later [] := by
  refine ⟨List.nodup_nil, fun place => iff_of_false List.not_mem_nil ?_⟩
  rintro ⟨hnone, content, hcontent⟩
  rcases h.added _ _ hcontent with hold | ⟨-, hitem⟩
  · rw [hnone] at hold
    cases hold
  · cases hitem

theorem ChangesBelow.gainsFiles (h : ChangesBelow place tree later) (hwell : tree.WellFormed)
    (hfree : tree.get? place = none) (hfiles : later.ListsFiles place first) :
    tree.GainsFiles later (first.map (place ++ ·)) := by
  refine ⟨hfiles.nodup.map fun _ _ => List.append_cancel_left, fun other => ?_⟩
  rw [List.mem_map]
  constructor
  · rintro ⟨rest, hrest, rfl⟩
    exact ⟨hwell.get?_below hfree rest, (hfiles.mem_iff rest).1 hrest⟩
  · rintro ⟨hnone, content, hcontent⟩
    by_cases hprefix : place <+: other
    · obtain ⟨rest, rfl⟩ := hprefix
      exact ⟨rest, (hfiles.mem_iff rest).2 ⟨content, hcontent⟩, rfl⟩
    · rw [h.outside other hprefix, hnone] at hcontent
      cases hcontent

/-- Paths lead to the same files in a tree that keeps them. -/
theorem GainsFiles.leadTo {here : Location} (h : tree.GainsFiles later first)
    (hpaths : later.LeadTo here paths first) (hkept : later.IsKeptBy latest) :
    latest.LeadTo here paths first := by
  have hfile := fun place hplace => ((h.mem_iff place).1 hplace).2
  clear h
  induction hpaths with
  | nil => exact .nil
  | cons hpath _ ih =>
      obtain ⟨content, hcontent⟩ := hfile _ List.mem_cons_self
      refine .cons (locate_extend hkept.isExtendedBy hpath (by simp [hcontent])) ?_
      exact ih fun place hplace => hfile place (List.mem_cons_of_mem _ hplace)

theorem LeadTo.exists_of_mem {path : Text} {places : List Location}
    (h : tree.LeadTo here paths places) (hpath : path ∈ paths) :
    ∃ place ∈ places, tree.locate here path true = .ok place := by
  induction h with
  | nil => cases hpath
  | cons hfirst _ ih =>
      rcases List.mem_cons.1 hpath with rfl | hpath
      · exact ⟨_, List.mem_cons_self, hfirst⟩
      · obtain ⟨place, hplace, hlocate⟩ := ih hpath
        exact ⟨place, List.mem_cons_of_mem _ hplace, hlocate⟩

end FileTree

/-! ## What directives contribute -/

namespace Scaffold

variable {library : Library} {operation : Operation} {job : Generator.Job} {s s' : Session}
  {v : Visit} {includes : List Text}

/-- The part of the journal that is due to a directive. -/
structure Visit.Contributes (v : Visit) (gain : Journal) : Prop where
  journal : v.after.journal = v.before.journal.add gain
  unselected : v.isSelected = false → gain = .empty ∧ v.after.tree = v.before.tree
  unmade : v.isMade = false → gain.created = []
  made : v.isMade = true → ∃ place files, v.opened.tree.get? place = none ∧
    v.after.tree.locate v.after.here v.target.text true = .ok place ∧
    v.after.tree.ListsFiles place files ∧
    gain.created = files.map fun file => (v.target.below file).text

theorem Visit.isSelected_of_isMade (h : v.isMade = true) : v.isSelected = true :=
  (Bool.and_eq_true_iff.1 h).1

theorem Visit.Course.contributes (h : v.Course) :
    ∃ gain places, v.Contributes gain ∧ v.before.tree.GainsFiles v.after.tree places ∧
      v.after.tree.LeadTo v.after.here gain.created places := by
  cases h with
  | skipped hunselected hlooks =>
      have hunmade : v.isMade = false := by simp [isMade, hunselected]
      refine ⟨.empty, [], ⟨?_, fun _ => ⟨rfl, hlooks.tree⟩, fun _ => rfl, ?_⟩, ?_, .nil⟩
      · rw [hlooks.journal, Journal.add_empty]
      · simp [hunmade]
      · rw [hlooks.tree]
        exact (AddsDirectories.refl _).gainsFiles
  | preserved hselected hunmade hopens hpreserves =>
      obtain ⟨files, -, hjournal⟩ := hpreserves.recorded
      refine ⟨⟨[], files, v.warnings ++ [preservedWarning (nameOf v.job v.raw)]⟩, [],
        ⟨?_, by simp [hselected], fun _ => rfl, by simp [hunmade]⟩, ?_, .nil⟩
      · rw [hjournal, hopens.journal]
        simp [Journal.add, Journal.warn]
      · rw [hpreserves.notes.tree]
        exact hopens.directories.gainsFiles
  | made hmade hopens place hmakes =>
      obtain ⟨warnings, files, hfiles, hjournal⟩ := hmakes.made.recorded
      have hregion := hmakes.region
      have hlocate : v.after.tree.locate v.after.here v.target.text true = .ok place := by
        obtain ⟨item, hitem⟩ := Option.isSome_iff_exists.1 hmakes.made.isThere
        have hbelow : v.after.tree.locate v.after.here (v.target.below []).text true =
            .ok (place ++ []) := hregion.locate_of_get? (by rwa [List.append_nil])
        rwa [FilePath.below_nil, List.append_nil] at hbelow
      refine ⟨⟨files.map fun file => (v.target.below file).text, [], v.warnings ++ warnings⟩,
        files.map (place ++ ·), ⟨?_, by simp [isSelected_of_isMade hmade], by simp [hmade],
          fun _ => ⟨place, files, hmakes.free, hlocate, hfiles, rfl⟩⟩, ?_, ?_⟩
      · rw [hjournal, hopens.journal]
        simp [Journal.add, Journal.warn]
      · have hgains := hmakes.changes.gainsFiles hopens.grows.added.well hmakes.free hfiles
        exact hopens.directories.gainsFiles.trans hgains hopens.directories.kept
          (hmakes.changes.isKeptBy hopens.grows.added.well hmakes.free)
      · refine List.forall₂_map_left_iff.2 (List.forall₂_map_right_iff.2 ?_)
        refine List.forall₂_same.2 fun file hfile => ?_
        obtain ⟨content, hcontent⟩ := (hfiles.mem_iff file).1 hfile
        exact hregion.locate_of_get? hcontent

/-- The directives of a run account for its journal and for all files that are new. -/
theorem run_contributes (hcalm : s.IsCalm) (hwell : s.tree.WellFormed)
    (htarget : job.target.IsProper)
    (h : (includes.forM (applyDirective job)).Ends s (.ok ()) s') :
    ∃ gains places, List.Forall₂ Visit.Contributes (visitsFrom job includes s) gains ∧
      s'.journal = s.journal.add (Journal.total gains) ∧ s.tree.GainsFiles s'.tree places ∧
      s'.tree.LeadTo s'.here (Journal.total gains).created places := by
  induction includes generalizing s with
  | nil =>
      obtain ⟨-, rfl⟩ := ends_pure.1 h
      exact ⟨[], [], .nil, (Journal.add_empty _).symm, (AddsDirectories.refl _).gainsFiles, .nil⟩
  | cons raw includes ih =>
      obtain ⟨hcourse, hgrows, hrest⟩ := course_of_cons hcalm hwell htarget h
      have hlater := follows_applyAll htarget _ _ _ hrest hgrows.added.well
      obtain ⟨gain, places, hgain, hplaces, hpaths⟩ := hcourse.contributes
      obtain ⟨gains, more, hgains, hjournal, hmore, hothers⟩ :=
        ih (hgrows.isCalm hcalm) hgrows.added.well hrest
      refine ⟨gain :: gains, places ++ more, .cons hgain hgains, ?_,
        hplaces.trans hmore hgrows.added.kept hlater.added.kept, ?_⟩
      · rw [hjournal, hgain.journal, Journal.add_total_cons]
      · rw [hlater.here] at hothers ⊢
        exact List.rel_append (hplaces.leadTo hpaths hlater.added.kept) hothers

/-- What the journal holds after a directive stays in it, and more is added at its end. -/
theorem journal_of_mem (hcalm : s.IsCalm) (hwell : s.tree.WellFormed)
    (htarget : job.target.IsProper)
    (h : (includes.forM (applyDirective job)).Ends s (.ok ()) s')
    (hv : v ∈ visitsFrom job includes s) : ∃ gain, s'.journal = v.after.journal.add gain := by
  induction includes generalizing s with
  | nil => cases hv
  | cons raw includes ih =>
      obtain ⟨-, hgrows, hrest⟩ := course_of_cons hcalm hwell htarget h
      rcases List.mem_cons.1 hv with rfl | hv
      · obtain ⟨gains, -, -, hjournal, -⟩ :=
          run_contributes (hgrows.isCalm hcalm) hgrows.added.well htarget hrest
        exact ⟨_, hjournal⟩
      · exact ih (hgrows.isCalm hcalm) hgrows.added.well hrest hv

/-! ## Outcomes -/

/-- A success tells of the files that are new, and of what each directive contributed. -/
theorem outcome_lists_new_files (library : Library) (operation : Operation) (s : Session)
    (hwell : s.tree.WellFormed) (hcalm : s.IsCalm)
    (hdirect : operation.usesGenerator library s = false)
    (hsuccess : operation.succeeds library s = true) :
    ∃ outcome s', (operation.perform library).Ends s (.ok outcome) s' ∧
      (∃ places, s.tree.GainsFiles s'.tree places ∧
        s'.tree.LeadTo s'.here outcome.created places) ∧
      ∃ gains, List.Forall₂ Visit.Contributes (operation.visits library s) gains ∧
        outcome.created = gains.flatMap (·.created) ∧
        outcome.existing = gains.flatMap (·.existing) ∧
        outcome.warnings = gains.flatMap (·.warnings) := by
  obtain ⟨job, start, finish, hrun⟩ := exists_runsTo hdirect hsuccess
  obtain ⟨hwell', hadds⟩ := hrun.adds hwell
  have hcalm' : Session.IsCalm { start with journal := .empty } := hrun.agrees.isCalm hcalm
  obtain ⟨gains, places, hgains, hjournal, hplaces, hpaths⟩ :=
    run_contributes hcalm' hwell' (hrun.isProper_target hwell) hrun.run
  rw [Journal.empty_add] at hjournal
  refine ⟨_, _, hrun.ended, ⟨places, ?_, ?_⟩, gains, hrun.visits_eq ▸ hgains, ?_⟩
  · exact hadds.gainsFiles.trans hplaces hadds.kept (hrun.grows hwell).added.kept
  · rw [Operation.outcomeOf, hjournal]
    exact hpaths
  · rw [Operation.outcomeOf, hjournal]
    exact ⟨rfl, rfl, rfl⟩

theorem outcome_lists_new_files_rendering :
    ∃ outcome s', ((Operation.feature (Sample.feature "/p")).perform Sample.library).Ends
        Sample.rendering (.ok outcome) s' ∧
      (∃ places, Sample.rendering.tree.GainsFiles s'.tree places ∧
        s'.tree.LeadTo s'.here outcome.created places) ∧
      ∃ gains, List.Forall₂ Visit.Contributes
          ((Operation.feature (Sample.feature "/p")).visits Sample.library Sample.rendering) gains ∧
        outcome.created = gains.flatMap (·.created) ∧
        outcome.existing = gains.flatMap (·.existing) ∧
        outcome.warnings = gains.flatMap (·.warnings) :=
  outcome_lists_new_files _ _ _ Sample.wellFormed_rendering ⟨rfl, rfl⟩
    Sample.usesGenerator_rendering Sample.succeeds_rendering

end Scaffold

end Stencil
