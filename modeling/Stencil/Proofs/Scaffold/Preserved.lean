import Stencil.Proofs.FileTree.Inside
import Stencil.Proofs.Scaffold.Created
import Stencil.Proofs.Scaffold.Sourced

/-!
# Preserved files

A path is told as preserved if it is there when its directive is reached.  It may
have been there before the operation, or an earlier directive may have put it
there, and then it is told as created as well.  This holds whichever calls fail on
the way to a success.
-/

namespace Stencil

open FileTree Session Action Placement

/-- Whether something is at a path; a link that leads nowhere is something, too. -/
def Session.hasItem (s : Session) (path : Text) : Bool := (s.tree.look s.here path false).isOk

variable {s s' : Session} {path : FilePath} {text : Text} {names : List Text}

theorem Session.Grows.hasItem (h : s.Grows s') (hthere : s.hasItem text = true) :
    s'.hasItem text = true := by
  rw [Session.hasItem, h.here]
  exact isOk_look_kept h.added.kept hthere

/-- Where something is at a path that goes on from another one, something is at that one. -/
theorem Session.hasItem_of_below (hwell : s.tree.WellFormed) (hproper : (path.below names).IsProper)
    (h : s.hasItem (path.below names).text = true) : s.hasItem path.text = true := by
  by_cases hnil : names = []
  · rwa [hnil, FilePath.below_nil] at h
  · obtain ⟨item, hitem⟩ := isOk_iff.1 h
    obtain ⟨place, hlocate, -⟩ := look_eq_ok_iff.1 hitem
    exact isOk_iff.2 (look_unfollowed (FilePath.look_of_below hwell hproper hnil hlocate))

namespace Scaffold

variable {library : Library} {operation : Operation} {job : Generator.Job} {v : Visit}
  {gain : Journal} {includes : List Text}

/-! ## What a directive tells -/

/-- Whether the target of a directive is named by a relative path. -/
def Visit.isRelative (v : Visit) : Bool := !(FilePath.ofText (nameOf v.job v.raw)).isAbsolute

/-- The part of the journal that is due to a directive, whichever calls failed.  What it preserves
is there already, at its target or below; what it creates is not. -/
structure Visit.Reports (v : Visit) (gain : Journal) : Prop where
  journal : v.after.journal = v.before.journal.add gain
  preserved : ∀ path ∈ gain.existing, v.isSelected = true ∧ v.isMade = false ∧
    v.opened.tree.HasBelow v.opened.here v.target path
  created : ∀ path ∈ gain.created, v.isMade = true ∧ v.opened.hasItem path = false

/-- A directive that does not fail tells of its target, in the session that it opened. -/
theorem Visit.reports (hwell : v.before.tree.WellFormed) (htarget : v.job.target.IsProper)
    (h : (applyDirective v.job v.raw).Ends v.before (.ok ()) s') :
    ∃ gain, v.Reports gain ∧ (gain.existing ≠ [] → v.opened.Grows v.after) := by
  have hafter : v.after = s' := h.after_eq
  rcases ends_ok h with ⟨-, hlooks⟩ |
    ⟨hselected, m, made, t, hlooks, hrender, hplace, hmade, hkept⟩
  · exact ⟨.empty, ⟨by rw [hafter, hlooks.journal, Journal.add_empty], by simp [Journal.empty],
      by simp [Journal.empty]⟩, by simp [Journal.empty]⟩
  have hwell' : m.tree.WellFormed := by rwa [hlooks.tree]
  obtain ⟨opened, hensure, hplaced⟩ :=
    ends_place_placed (s := { m with journal := m.journal.warn v.warnings }) hwell'
      (isProper_target htarget) hplace
  obtain ⟨rfl, hopens⟩ := opens_of_ensure hwell htarget hlooks hrender hensure
  have hismade : v.isMade = made := by
    rw [isMade, hselected, hplaced.isThere, Bool.true_and, Bool.not_not]
  cases made with
  | false =>
      obtain ⟨files, hjournal, hfiles⟩ := hplaced.preserved rfl
      obtain ⟨hnotes, hwarned⟩ := hkept rfl
      refine ⟨⟨[], files, v.warnings ++ [preservedWarning (nameOf v.job v.raw)]⟩,
        ⟨?_, fun path hpath => ⟨hselected, hismade, hfiles path hpath⟩, by simp⟩, fun _ => ?_⟩
      · rw [hafter, hwarned, hjournal, hopens.journal]
        simp [Journal.add, Journal.warn]
      · rw [hafter]
        exact hplaced.grows.trans (hnotes.adds hplaced.grows.added.well)
  | true =>
      obtain ⟨warnings, files, hjournal, hfiles⟩ := hplaced.created rfl
      refine ⟨⟨files, [], v.warnings ++ warnings⟩,
        ⟨?_, by simp, fun path hpath => ⟨hismade, ?_⟩⟩, by simp⟩
      · rw [hafter, hmade rfl, hjournal, hopens.journal]
        simp [Journal.add, Journal.warn]
      · obtain ⟨rest, hrest, rfl, -⟩ := hfiles path hpath
        refine Bool.eq_false_iff.2 fun hthere => ?_
        have hfree := hasItem_of_below hopens.grows.added.well
          ((isProper_target htarget).below hrest) hthere
        rw [hasItem, hplaced.isThere] at hfree
        cases hfree

/-! ## What a run tells -/

/-- What is there when a run starts is not created by it, and what a directive preserves is not
created by a later one. -/
theorem run_reports (hwell : s.tree.WellFormed) (htarget : job.target.IsProper)
    (h : (includes.forM (applyDirective job)).Ends s (.ok ()) s') :
    ∃ gains, List.Forall₂ Visit.Reports (visitsFrom job includes s) gains ∧
      s'.journal = s.journal.add (Journal.total gains) ∧
      (∀ path ∈ (Journal.total gains).created, s.hasItem path = false) ∧
      gains.Pairwise fun earlier later => ∀ path ∈ earlier.existing, path ∉ later.created := by
  induction includes generalizing s with
  | nil =>
      obtain ⟨-, rfl⟩ := ends_pure.1 h
      exact ⟨[], .nil, (Journal.add_empty _).symm, by simp [Journal.total], .nil⟩
  | cons raw includes ih =>
      obtain ⟨hfirst, hrest⟩ := ends_applyAll_cons h
      have hgrows := follows_applyDirective htarget raw _ _ _ hfirst hwell
      have hopens : s.Grows (Visit.opened ⟨job, raw, s⟩) :=
        Visit.follows_opening _ _ _ _ (Ends.run _ _) hwell
      obtain ⟨gain, hgain, hlater⟩ := Visit.reports (v := ⟨job, raw, s⟩) hwell htarget hfirst
      obtain ⟨gains, hgains, hjournal, hnew, hpairs⟩ := ih hgrows.added.well hrest
      refine ⟨gain :: gains, .cons hgain hgains, ?_, fun path hpath => ?_,
        .cons (fun later hmem path hpath hcreated => ?_) hpairs⟩
      · rw [hjournal, hgain.journal, Journal.add_total_cons]
      · refine Bool.eq_false_iff.2 fun hthere => ?_
        rcases List.mem_append.1 hpath with hpath | hpath
        · simpa [(hgain.created path hpath).2] using hopens.hasItem hthere
        · simpa [hnew path hpath] using hgrows.hasItem hthere
      -- what was preserved is still there for the directives that follow
      · obtain ⟨-, -, -, -, -, hthere⟩ := hgain.preserved path hpath
        have hstays := (hlater (List.ne_nil_of_mem hpath)).hasItem hthere
        rw [hnew path (List.mem_flatMap.2 ⟨later, hmem, hcreated⟩)] at hstays
        cases hstays

/-- Nothing is preserved by directives that all find their targets free. -/
theorem existing_eq_nil {visits : List Visit} {gains : List Journal}
    (h : List.Forall₂ Visit.Reports visits gains)
    (hall : ∀ v ∈ visits, v.isSelected = true → v.isMade = true) :
    ∀ gain ∈ gains, gain.existing = [] := by
  induction h with
  | nil => simp
  | cons hgain _ ih =>
      refine List.forall_mem_cons.2 ⟨?_, ih fun v hv => hall v (List.mem_cons_of_mem _ hv)⟩
      refine List.eq_nil_iff_forall_not_mem.2 fun path hpath => ?_
      obtain ⟨hselected, hunmade, -⟩ := hgain.preserved path hpath
      rw [hall _ List.mem_cons_self hselected] at hunmade
      cases hunmade

/-! ## Outcomes -/

theorem Operation.RunsTo.hasItem_target {request : ProjectRequest} {start finish : Session}
    (h : (Operation.project request).RunsTo library s job start finish) :
    s.hasItem job.target.text = false := by
  obtain ⟨m, hprepare, -⟩ := h.prepared
  obtain ⟨failure, hfree⟩ := Operation.look_target_of_prepare hprepare
  rw [hasItem, hfree]
  rfl

/-- What a new project preserves for a directive whose target is named by a relative path was not
there before the operation. -/
theorem Operation.RunsTo.hasItem_preserved {request : ProjectRequest} {start finish : Session}
    (h : (Operation.project request).RunsTo library s job start finish)
    (hwell : s.tree.WellFormed) (hjob : v.job = job) (hreports : v.Reports gain)
    (hrelative : v.isRelative = true) : ∀ path ∈ gain.existing, s.hasItem path = false := by
  intro path hpath
  obtain ⟨-, -, rest, hrest, rfl, -⟩ := hreports.preserved path hpath
  have hbelow : (v.target.below rest).IsProper :=
    (Visit.isProper_target (hjob ▸ h.isProper_target hwell)).below hrest
  have hname : v.target = job.target.below (FilePath.ofText (nameOf v.job v.raw)).parts := by
    rw [Visit.isRelative, Bool.not_eq_true'] at hrelative
    rw [Visit.target, targetOf, FilePath.child, FilePath.join, if_neg (by simp [hrelative]), hjob]
    rfl
  refine Bool.eq_false_iff.2 fun hthere => ?_
  rw [hname, FilePath.below_below] at hthere hbelow
  have htarget := hasItem_of_below hwell hbelow hthere
  rw [h.hasItem_target] at htarget
  cases htarget

/-- A success tells of what was there when its directive was reached, and of what was not there
before it was created.  For a new project nothing of the former was there before the operation,
unless the directive names its target by an absolute path. -/
theorem preserved_paths_were_there (library : Library) (operation : Operation) (s : Session)
    (hwell : s.tree.WellFormed) (hdirect : operation.usesGenerator library s = false)
    (hsuccess : operation.succeeds library s = true) :
    ∃ outcome s' gains, (operation.perform library).Ends s (.ok outcome) s' ∧
      List.Forall₂ (fun v gain => v.Reports gain ∧ (operation.kind = .boilerplate →
          v.isRelative = true → ∀ path ∈ gain.existing, s.hasItem path = false))
        (operation.visits library s) gains ∧
      outcome.created = gains.flatMap (·.created) ∧
      outcome.existing = gains.flatMap (·.existing) ∧
      (∃ target, outcome.message = successMessage operation.kind target outcome.existing.length
        library.settings.installCommand) ∧
      (∀ path ∈ outcome.created, s.hasItem path = false) ∧
      (gains.Pairwise fun earlier later => ∀ path ∈ earlier.existing, path ∉ later.created) ∧
      ((∀ v ∈ operation.visits library s, v.isSelected = true → v.isMade = true) →
        outcome.existing = []) := by
  obtain ⟨job, start, finish, hrun⟩ := exists_runsTo hdirect hsuccess
  obtain ⟨hwell', hadds⟩ := hrun.adds hwell
  obtain ⟨gains, hgains, hjournal, hnew, hpairs⟩ :=
    run_reports (s := { start with journal := .empty }) hwell' (hrun.isProper_target hwell) hrun.run
  rw [Journal.empty_add] at hjournal
  rw [← hrun.visits_eq] at hgains
  have hstays : ∀ path, s.hasItem path = true →
      Session.hasItem { start with journal := .empty } path = true := fun path hthere => by
    rw [hasItem, hrun.agrees.here]
    exact isOk_look_kept hadds.kept hthere
  refine ⟨_, _, gains, hrun.ended, ?_, ?_, ?_, ⟨job.target, ?_⟩, ?_, hpairs, fun hall => ?_⟩
  · have hjobs : ∀ v ∈ operation.visits library s, v.job = job := fun v hv => by
      rw [hrun.visits_eq] at hv
      exact (mem_visitsFrom hv).1
    refine ((List.forall₂_and_left _ _).2 ⟨hjobs, hgains⟩).imp fun v gain ⟨hjob, hreports⟩ => ?_
    refine ⟨hreports, fun hkind => ?_⟩
    cases operation with
    | project request => exact hrun.hasItem_preserved hwell hjob hreports
    | feature request => cases hkind
  · rw [Operation.outcomeOf, hjournal]
    rfl
  · rw [Operation.outcomeOf, hjournal]
    rfl
  · obtain ⟨m, hprepare, -⟩ := hrun.prepared
    obtain ⟨-, -, -, -, -, -, -, -, -, -, hjob⟩ := Operation.ends_prepare hprepare
    rw [Operation.outcomeOf, hjob]
    rfl
  · intro path hpath
    rw [Operation.outcomeOf, hjournal] at hpath
    refine Bool.eq_false_iff.2 fun hthere => ?_
    simpa [hnew path hpath] using hstays path hthere
  · rw [Operation.outcomeOf, hjournal]
    exact List.flatMap_eq_nil_iff.2 (existing_eq_nil hgains hall)

namespace Sample

/-- A template with a boilerplate that has one target twice. -/
def twice : Session :=
  .start ⟨[(["t"], .directory), (["t", "w"], .directory), (["p"], .directory),
    (["t", "w", "scaffold.yaml"], file (("boilerplate:\n  - name: e\n    includes:\n" : Text) ++
      ("      - f->a\n      - f->a\n" : Text))), (["t", "w", "f"], file "Hi")]⟩ []

def project : ProjectRequest := ⟨"n", "n", "/p", "w", "e", []⟩

end Sample

/-- A new project with one target twice, whose second directive preserves what the first one
made. -/
theorem preserved_paths_were_there_twice :
    let project := Operation.project Sample.project
    Sample.twice.tree.WellFormed ∧ project.usesGenerator Sample.library Sample.twice = false ∧
      project.succeeds Sample.library Sample.twice = true ∧
      ∃ outcome s' gains, (project.perform Sample.library).Ends Sample.twice (.ok outcome) s' ∧
        List.Forall₂ (fun v gain => v.Reports gain ∧ (project.kind = .boilerplate →
            v.isRelative = true → ∀ path ∈ gain.existing, Sample.twice.hasItem path = false))
          (project.visits Sample.library Sample.twice) gains ∧
        outcome.created = gains.flatMap (·.created) ∧
        outcome.existing = gains.flatMap (·.existing) ∧
        (∃ target, outcome.message = successMessage project.kind target outcome.existing.length
          Sample.library.settings.installCommand) ∧
        (∀ path ∈ outcome.created, Sample.twice.hasItem path = false) ∧
        (gains.Pairwise fun earlier later => ∀ path ∈ earlier.existing, path ∉ later.created) ∧
        ((∀ v ∈ project.visits Sample.library Sample.twice,
          v.isSelected = true → v.isMade = true) → outcome.existing = []) :=
  ⟨by decide +kernel, by decide +kernel, by decide +kernel,
    preserved_paths_were_there _ _ _ (by decide +kernel) (by decide +kernel) (by decide +kernel)⟩

/-- What a run made is preserved by a later directive of it.  So a path is told as preserved that
was not there before, and it is told as created as well, even for a new project. -/
theorem created_paths_are_preserved :
    let again := Sample.session ["f->a", "f->a"] [(["t", "w", "f"], Sample.file "Hi")]
    ∀ run ∈ [(Operation.feature (Sample.feature "/p"), again, ("/p/a" : Text)),
        (Operation.project Sample.project, Sample.twice, "/p/n/a")],
      run.2.1.tree.WellFormed ∧ run.1.usesGenerator Sample.library run.2.1 = false ∧
        run.2.1.hasItem run.2.2 = false ∧
        ∃ outcome ∈ run.1.outcome? Sample.library run.2.1, outcome.success = true ∧
          outcome.created = [run.2.2] ∧ outcome.existing = [run.2.2] ∧
          Text.contains ". 1 existing file(s) were preserved" outcome.message = true := by
  decide +kernel

end Scaffold

end Stencil
