import Stencil.Proofs.Scaffold.Created

/-!
# Repeated features

A feature that was applied finds all its targets and the directories above them,
so applying it again changes no file.  It tells of every file that it told of
before, unless it cannot get that far: directories that were added may complete
a link that led nowhere.
-/

namespace Stencil

open FileTree Session Action Placement

variable {tree later : FileTree} {here : Location} {path target : FilePath} {text : Text}
  {s s' : Session}

/-! ## Expansions in trees that grow -/

theorem expand_isOk_iff : (∃ files, expand tree here path = .ok files) ↔
    ∃ found, judged FileItem.isDirectory (tree.look here path.text true) = .ok found := by
  unfold expand
  split
  · rename_i htold
    simp [htold]
  · rename_i htold
    simp [htold]
  · rename_i htold
    simp [htold]

theorem expand_isOk_of_look {item : FileItem} (h : tree.look here path.text true = .ok item) :
    ∃ files, expand tree here path = .ok files :=
  expand_isOk_iff.2 ⟨item.isDirectory, by rw [h]; rfl⟩

/-- What was told of a target is told of it later on, but for a path that has become a directory. -/
theorem mem_expand_kept (hwell : tree.WellFormed) (hwell' : later.WellFormed)
    (hkept : tree.IsKeptBy later) {files more : List Text}
    (h : expand tree here path = .ok files) (h' : expand later here path = .ok more)
    (hfile : text ∈ files) (hdirectory : later.look here text true ≠ .ok .directory) :
    text ∈ more := by
  unfold expand at h h'
  split at h
  · rename_i htold
    cases h
    have hlook := look_kept hkept (judged_isDirectory.1 htold)
    rw [judged_isDirectory.2 hlook] at h'
    cases h'
    exact expandTree_kept hwell hwell' hkept _ _ _ hfile
  · cases h
    obtain rfl := List.mem_singleton.1 hfile
    split at h'
    · rename_i htold
      exact absurd (judged_isDirectory.1 htold) hdirectory
    · cases h'
      exact hfile
    · cases h'
  · cases h

namespace Scaffold

variable {v : Visit} {job : Generator.Job} {raw : Text} {includes : List Text} {place : Location}

/-! ## What a first run leaves -/

/-- A directive that is applied finds its target and the directory that this is in. -/
def Settled (job : Generator.Job) (raw : Text) (tree : FileTree) (here : Location) : Prop :=
  selects job raw = true →
    tree.look here (targetOf job raw).parent.text true = .ok .directory ∧
      (tree.look here (targetOf job raw).text false).isOk = true

theorem Settled.kept (h : Settled job raw tree here) (hkept : tree.IsKeptBy later) :
    Settled job raw later here := fun hselected =>
  ⟨look_kept hkept (h hselected).1, isOk_look_kept hkept (h hselected).2⟩

theorem Visit.Makes.look_target (h : v.Makes place) (followLast : Bool) :
    ∃ item, v.after.tree.look v.after.here v.target.text followLast = .ok item := by
  obtain ⟨item, hitem⟩ := Option.isSome_iff_exists.1 h.made.isThere
  have hlook : v.after.tree.look v.after.here (v.target.below []).text followLast = .ok item :=
    (h.region.look_iff Location.isProper_nil).2 (by rwa [List.append_nil])
  rw [FilePath.below_nil] at hlook
  exact ⟨item, hlook⟩

theorem Visit.Course.settled (h : v.Course) :
    Settled v.job v.raw v.after.tree v.after.here := by
  intro hselected
  cases h with
  | skipped hunselected _ =>
      rw [show v.isSelected = true from hselected] at hunselected
      cases hunselected
  | preserved _ _ hopens hpreserves =>
      rw [hpreserves.notes.tree, hpreserves.notes.here]
      exact ⟨hopens.parent, isOk_iff.2 hpreserves.isThere⟩
  | made _ hopens place hmakes =>
      refine ⟨?_, isOk_iff.2 (hmakes.look_target false)⟩
      rw [hmakes.agrees.here]
      exact look_kept (hmakes.changes.isKeptBy hopens.grows.added.well hmakes.free) hopens.parent

/-- A directive tells of a path that stands for its target or lies in it. -/
def Visit.Tells (v : Visit) (path : Text) : Prop :=
  v.isSelected = true ∧
    ∃ files, expand v.after.tree v.after.here v.target = .ok files ∧ path ∈ files

theorem Visit.Course.tells (h : v.Course) :
    (∀ path ∈ v.after.journal.created, path ∈ v.before.journal.created ∨ v.Tells path) ∧
      ∀ path ∈ v.after.journal.existing, path ∈ v.before.journal.existing ∨ v.Tells path := by
  cases h with
  | skipped _ hlooks =>
      rw [hlooks.journal]
      exact ⟨fun _ => .inl, fun _ => .inl⟩
  | preserved hselected _ hopens hpreserves =>
      obtain ⟨files, hfiles, hjournal⟩ := hpreserves.recorded
      rw [← hpreserves.notes.tree, ← hpreserves.notes.here] at hfiles
      rw [hjournal, hopens.journal]
      refine ⟨fun _ => .inl, fun path hpath => ?_⟩
      rcases List.mem_append.1 hpath with hpath | hpath
      · exact .inl hpath
      · exact .inr ⟨hselected, files, hfiles, hpath⟩
  | made hmade hopens place hmakes =>
      obtain ⟨warnings, files, hfiles, hjournal⟩ := hmakes.made.recorded
      obtain ⟨listed, hlisted, hexpand⟩ := expand_region hmakes.region hmakes.made.isThere
      rw [hjournal, hopens.journal]
      refine ⟨fun path hpath => ?_, fun _ => .inl⟩
      rcases List.mem_append.1 hpath with hpath | hpath
      · exact .inl hpath
      · obtain ⟨file, hfile, rfl⟩ := List.mem_map.1 hpath
        refine .inr ⟨isSelected_of_isMade hmade, _, hexpand, List.mem_map.2 ⟨file, ?_, rfl⟩⟩
        exact (hlisted.mem_iff file).2 ((hfiles.mem_iff file).1 hfile)

/-- If it cannot be told what a target is, it was told of as one that is preserved. -/
theorem Visit.Course.judged (h : v.Course) (hselected : v.isSelected = true) :
    (∃ item, v.after.tree.look v.after.here v.target.text true = .ok item) ∨
      v.target.text ∈ v.after.journal.existing := by
  cases h with
  | skipped hunselected _ =>
      rw [hselected] at hunselected
      cases hunselected
  | preserved _ _ _ hpreserves =>
      obtain ⟨files, hfiles, hjournal⟩ := hpreserves.recorded
      rw [hpreserves.notes.tree, hpreserves.notes.here, hjournal]
      unfold expand at hfiles
      split at hfiles
      · rename_i htold
        exact .inl ⟨_, judged_isDirectory.1 htold⟩
      · cases hfiles
        exact .inr (by simp)
      · cases hfiles
  | made _ _ place hmakes => exact .inl (hmakes.look_target true)

theorem exists_visit_of_mem (job : Generator.Job) (s : Session) (h : raw ∈ includes) :
    ∃ v ∈ visitsFrom job includes s, v.job = job ∧ v.raw = raw := by
  induction includes generalizing s with
  | nil => cases h
  | cons first includes ih =>
      rcases List.mem_cons.1 h with rfl | h
      · exact ⟨_, List.mem_cons_self, rfl, rfl⟩
      · obtain ⟨v, hv, heq⟩ := ih _ h
        exact ⟨v, List.mem_cons_of_mem _ hv, heq⟩

section Run

variable (hcalm : s.IsCalm) (hwell : s.tree.WellFormed) (htarget : job.target.IsProper)
  (h : (includes.forM (applyDirective job)).Ends s (.ok ()) s')
include hcalm hwell htarget h

/-- Every path of the journal is there before, or a directive tells of it. -/
theorem tells_of_run :
    (∀ path ∈ s'.journal.created, path ∈ s.journal.created ∨
        ∃ v ∈ visitsFrom job includes s, v.Tells path) ∧
      ∀ path ∈ s'.journal.existing, path ∈ s.journal.existing ∨
        ∃ v ∈ visitsFrom job includes s, v.Tells path := by
  induction includes generalizing s with
  | nil =>
      obtain ⟨-, rfl⟩ := ends_pure.1 h
      exact ⟨fun _ => .inl, fun _ => .inl⟩
  | cons raw includes ih =>
      obtain ⟨hcourse, hgrows, hrest⟩ := course_of_cons hcalm hwell htarget h
      obtain ⟨hcreated, hexisting⟩ := ih (hgrows.isCalm hcalm) hgrows.added.well hrest
      obtain ⟨hcreated', hexisting'⟩ := hcourse.tells
      have hlater : ∀ {path : Text}, (∃ v ∈ visitsFrom job includes (Visit.after ⟨job, raw, s⟩),
          v.Tells path) → ∃ v ∈ visitsFrom job (raw :: includes) s, v.Tells path :=
        fun ⟨v, hv, htells⟩ => ⟨v, List.mem_cons_of_mem _ hv, htells⟩
      refine ⟨fun path hpath => ?_, fun path hpath => ?_⟩
      · rcases hcreated path hpath with hpath | htells
        · exact (hcreated' path hpath).imp id fun htells => ⟨_, List.mem_cons_self, htells⟩
        · exact .inr (hlater htells)
      · rcases hexisting path hpath with hpath | htells
        · exact (hexisting' path hpath).imp id fun htells => ⟨_, List.mem_cons_self, htells⟩
        · exact .inr (hlater htells)

theorem settled_of_run (hraw : raw ∈ includes) : Settled job raw s'.tree s'.here := by
  obtain ⟨v, hv, rfl, rfl⟩ := exists_visit_of_mem job s hraw
  obtain ⟨-, hcourse, -, hafter⟩ := course_of_mem hcalm hwell htarget h hv
  rw [hafter.here]
  exact hcourse.settled.kept hafter.added.kept

/-- It can be told what a target is, unless it was told of as one that is preserved. -/
theorem judged_of_run (hraw : raw ∈ includes) (hselected : selects job raw = true) :
    (∃ item, s'.tree.look s'.here (targetOf job raw).text true = .ok item) ∨
      (targetOf job raw).text ∈ s'.journal.existing := by
  obtain ⟨v, hv, rfl, rfl⟩ := exists_visit_of_mem job s hraw
  obtain ⟨-, hcourse, -, hafter⟩ := course_of_mem hcalm hwell htarget h hv
  rw [hafter.here]
  rcases hcourse.judged hselected with ⟨item, hitem⟩ | hpath
  · exact .inl ⟨item, look_kept hafter.added.kept hitem⟩
  · obtain ⟨gain, hjournal⟩ := journal_of_mem hcalm hwell htarget h hv
    rw [hjournal]
    exact .inr (List.mem_append_left _ hpath)

end Run

/-! ## A second run -/

/-- What is left if nothing is created: more may be told of what exists. -/
structure Repeats (s s' : Session) : Prop extends s.Notes s' where
  created : s'.journal.created = s.journal.created
  existing : ∀ path ∈ s.journal.existing, path ∈ s'.journal.existing

theorem repeats_of_looks (h : s.Looks s') : Repeats s s' :=
  ⟨h.notes, by rw [h.journal], by simp [h.journal]⟩

theorem Repeats.trans {m : Session} (h : Repeats s m) (h' : Repeats m s') : Repeats s s' :=
  ⟨h.toNotes.trans h'.toNotes, h'.created.trans h.created,
    fun path hpath => h'.existing path (h.existing path hpath)⟩

theorem repeats_warn (warnings : List Text) :
    Repeats s { s with journal := s.journal.warn warnings } :=
  ⟨⟨⟨rfl, rfl, id⟩, rfl, rfl⟩, rfl, fun _ => id⟩

theorem repeats_preserve {files : List Text} (hnotes : s.Notes s')
    (hjournal : s'.journal = { s.journal with existing := s.journal.existing ++ files }) :
    Repeats s s' :=
  ⟨hnotes, by rw [hjournal], fun path hpath => by rw [hjournal]; exact List.mem_append_left _ hpath⟩

/-- A warning is shown and noted, and nothing can stop that. -/
theorem ends_warn {message : Text} {warnings : List Text} {r : Except Failure Unit}
    (h : (do
      printWarning message
      updateJournal fun journal => journal.warn warnings : Action Unit).Ends s r s') :
    r = .ok () ∧ Repeats s s' := by
  rcases ends_bind.1 h with ⟨_, m, hprint, hwarn⟩ | ⟨failure, hprint, -⟩
  · obtain ⟨rfl, rfl⟩ := ends_modify.1 hwarn
    exact ⟨rfl, (repeats_of_looks (follows_printWarning _ _ _ _ hprint)).trans (repeats_warn _)⟩
  · cases ends_printWarning _ hprint

/-- The paths that are told for a directive whose target is there. -/
def pathsOf (job : Generator.Job) (raw : Text) (tree : FileTree) (here : Location) :
    Except Failure (List Text) :=
  if selects job raw then expand tree here (targetOf job raw) else .ok []

theorem ends_place_again {suffix : Text} {source : FilePath} {vars : Variables}
    {r : Except Failure Bool} (hcalm : s.IsCalm) (hwell : s.tree.WellFormed)
    (htarget : target.IsProper)
    (hparent : s.tree.look s.here target.parent.text true = .ok .directory)
    (hthere : (s.tree.look s.here target.text false).isOk = true)
    (h : (Placement.place suffix source target vars).Ends s r s') :
    (∃ files, expand s.tree s.here target = .ok files ∧ r = .ok false ∧ s.Notes s' ∧
        s'.journal = { s.journal with existing := s.journal.existing ++ files }) ∨
      ∃ failure, expand s.tree s.here target = .error failure ∧ r = .error failure ∧ s.Looks s' := by
  have hensure : (Storage.ensureDirectory target.parent.text).Ends s (.ok ()) s :=
    (ends_storage_ensureDirectory_of_look hcalm htarget.parent hparent).2 ⟨rfl, rfl⟩
  have hexists : (Storage.exists? target.text).Ends s (.ok true) s := by
    rw [Storage.exists?, hcalm.ends_interruptible, ends_exists?, hthere]
    exact ⟨rfl, rfl⟩
  rw [Placement.place, hensure.bind_iff, hexists.bind_iff, if_pos rfl] at h
  obtain ⟨told, hrecord, rfl⟩ := ends_bind_pure.1 h
  rcases ends_record hcalm hwell htarget hrecord with
    ⟨files, hfiles, hrecords⟩ | ⟨failure, hexpand, rfl, hlooks⟩
  · obtain rfl := hrecords.ended
    exact .inl ⟨files, hfiles, rfl, hrecords.notes, by rw [hrecords.journal, foldl_preserve]⟩
  · exact .inr ⟨failure, hexpand, rfl, hlooks⟩

theorem ends_applyDirective_again {r : Except Failure Unit} (hcalm : s.IsCalm)
    (hwell : s.tree.WellFormed) (htarget : job.target.IsProper)
    (hsettled : Settled job raw s.tree s.here) (h : (applyDirective job raw).Ends s r s') :
    Repeats s s' ∧ ∀ files, pathsOf job raw s.tree s.here = .ok files →
      r = .ok () ∧ ∀ path ∈ files, path ∈ s'.journal.existing := by
  rcases ends_bind.1 h with ⟨_, m, hrender, hnext⟩ | ⟨failure, hrender, -⟩
  case inr => cases (ends_renderTarget hrender).2
  obtain ⟨hlooks, hrendered⟩ := ends_renderTarget hrender
  cases hrendered
  dsimp only at hnext
  split at hnext
  case isFalse hskipped =>
    have hunselected : selects job raw = false := Bool.eq_false_iff.2 hskipped
    refine ⟨repeats_of_looks (hlooks.trans (follows_printDetail _ _ _ _ hnext)), ?_⟩
    rintro files hfiles
    rw [pathsOf, hunselected] at hfiles
    cases hfiles
    exact ⟨ends_printDetail _ hnext, by simp⟩
  rename_i hselected
  have hselected : selects job raw = true := hselected
  obtain ⟨hparent, hthere⟩ := hsettled hselected
  rw [updateJournal, ends_modify_bind] at hnext
  -- the warnings of the target are noted in any case
  generalize hnoted : { m with journal := m.journal.warn _ } = noted at hnext
  have hrepeats : Repeats s noted :=
    (repeats_of_looks hlooks).trans (hnoted ▸ repeats_warn _)
  have htarget' : (targetOf job raw).IsProper := htarget.child _
  have hplaced {result : Except Failure Bool} {t : Session}
      (hplace : (Placement.place job.library.suffix
        (job.template.child (Directive.parse raw).source) (targetOf job raw) job.vars).Ends
          noted result t) :=
    ends_place_again (hrepeats.isCalm hcalm) (by rwa [hrepeats.tree]) htarget'
      (by rwa [hrepeats.tree, hrepeats.here]) (by rwa [hrepeats.tree, hrepeats.here]) hplace
  rw [hrepeats.tree, hrepeats.here] at hplaced
  rw [pathsOf, hselected, if_pos rfl]
  rcases ends_bind.1 hnext with ⟨isMade, t, hplace, hlast⟩ | ⟨failure, hplace, rfl⟩
  · rcases hplaced hplace with ⟨files, hexpand, hr, hnotes, hjournal⟩ | ⟨_, _, hr, -⟩
    · cases hr
      obtain ⟨rfl, hwarned⟩ := ends_warn hlast
      refine ⟨hrepeats.trans ((repeats_preserve hnotes hjournal).trans hwarned),
        fun others hothers => ⟨rfl, fun path hpath => hwarned.existing path ?_⟩⟩
      obtain rfl := Except.ok.inj (hexpand.symm.trans hothers)
      rw [hjournal]
      exact List.mem_append_right _ hpath
    · cases hr
  · rcases hplaced hplace with ⟨_, _, hr, -⟩ | ⟨_, hexpand, -, hlooks'⟩
    · cases hr
    · refine ⟨hrepeats.trans (repeats_of_looks hlooks'), fun files hfiles => ?_⟩
      rw [hexpand] at hfiles
      cases hfiles

theorem run_again {r : Except Failure Unit} (hcalm : s.IsCalm) (hwell : s.tree.WellFormed)
    (htarget : job.target.IsProper)
    (hsettled : ∀ raw ∈ includes, Settled job raw s.tree s.here)
    (h : (includes.forM (applyDirective job)).Ends s r s') :
    Repeats s s' ∧ ((∀ raw ∈ includes, ∃ files, pathsOf job raw s.tree s.here = .ok files) →
      r = .ok () ∧ ∀ raw ∈ includes, ∀ files, pathsOf job raw s.tree s.here = .ok files →
        ∀ path ∈ files, path ∈ s'.journal.existing) := by
  induction includes generalizing s with
  | nil =>
      obtain ⟨rfl, rfl⟩ := ends_pure.1 h
      exact ⟨repeats_of_looks (.refl _), fun _ => ⟨rfl, by simp⟩⟩
  | cons raw includes ih =>
      have hsettled' := hsettled raw List.mem_cons_self
      rcases ends_bind.1 h with ⟨_, m, hfirst, hrest⟩ | ⟨failure, hfirst, rfl⟩
      · obtain ⟨hrepeats, htold⟩ := ends_applyDirective_again hcalm hwell htarget hsettled' hfirst
        obtain ⟨hlater, hothers⟩ := ih (hrepeats.isCalm hcalm) (by rwa [hrepeats.tree])
          (fun other hother => by
            rw [hrepeats.tree, hrepeats.here]
            exact hsettled other (List.mem_cons_of_mem _ hother)) hrest
        rw [hrepeats.tree, hrepeats.here] at hothers
        refine ⟨hrepeats.trans hlater, fun hall => ?_⟩
        obtain ⟨hr, hincluded⟩ := hothers fun other hother =>
          hall other (List.mem_cons_of_mem _ hother)
        refine ⟨hr, fun other hother files hfiles path hpath => ?_⟩
        rcases List.mem_cons.1 hother with rfl | hother
        · exact hlater.existing path ((htold files hfiles).2 path hpath)
        · exact hincluded other hother files hfiles path hpath
      · obtain ⟨hrepeats, htold⟩ := ends_applyDirective_again hcalm hwell htarget hsettled' hfirst
        refine ⟨hrepeats, fun hall => ?_⟩
        obtain ⟨files, hfiles⟩ := hall raw List.mem_cons_self
        cases (htold files hfiles).1

/-! ## Features that are applied again -/

variable {library : Library} {request : FeatureRequest}

/-- What an outcome tells if a feature finds everything in its place. -/
structure TellsAgain (job : Generator.Job) (s : Session) (outcome : Outcome) : Prop where
  success : outcome.success = true
  existing : ∀ raw ∈ job.entry.includes, ∀ files, pathsOf job raw s.tree s.here = .ok files →
    ∀ path ∈ files, path ∈ outcome.existing

/-- A session in which a feature without a generator was applied. -/
structure Applied (library : Library) (request : FeatureRequest) (job : Generator.Job)
    (s : Session) : Prop where
  calm : s.IsCalm
  well : s.tree.WellFormed
  proper : job.target.IsProper
  ready : Operation.Ready library request job s
  direct : (job.entry.generator.filter fun name => !name.isEmpty) = none
  directory : s.tree.look s.here job.target.text true = .ok .directory
  settled : ∀ raw ∈ job.entry.includes, Settled job raw s.tree s.here

theorem Applied.of_looks (h : Applied library request job s) (hlooks : s.Looks s') :
    Applied library request job s' := by
  have hgrows := hlooks.adds h.well
  refine ⟨hlooks.isCalm h.calm, hgrows.added.well, h.proper, h.ready.kept h.well hgrows, h.direct,
    ?_, fun raw hraw => ?_⟩
  all_goals rw [hlooks.tree, hlooks.here]
  · exact h.directory
  · exact h.settled raw hraw

theorem Applied.ends_applyDirectives (h : Applied library request job s) {kind : Kind}
    {r : Except Failure Outcome} (hend : (applyDirectives kind job).Ends s r s') :
    s'.tree = s.tree ∧ (∀ outcome, r = .ok outcome → outcome.created = []) ∧
      ((∀ raw ∈ job.entry.includes, ∃ files, pathsOf job raw s.tree s.here = .ok files) →
        ∃ outcome, r = .ok outcome ∧ TellsAgain job s outcome) := by
  have hensure : (Storage.ensureDirectory job.target.text).Ends s (.ok ()) s :=
    (ends_storage_ensureDirectory_of_look h.calm h.proper h.directory).2 ⟨rfl, rfl⟩
  rw [applyDirectives, hensure.bind_iff] at hend
  have hrun {result : Except Failure Unit} {t : Session}
      (hall : (job.entry.includes.forM (applyDirective job)).Ends { s with journal := .empty }
        result t) :=
    run_again (s := { s with journal := .empty }) h.calm h.well h.proper h.settled hall
  rcases ends_bind.1 hend with ⟨⟨_, journal⟩, m, hjournaled, hpure⟩ | ⟨failure, hjournaled, rfl⟩
  · obtain ⟨result, t, hall, rfl, hresult⟩ := ends_journaled hjournaled
    obtain ⟨rfl, rfl⟩ := ends_pure.1 hpure
    obtain ⟨hrepeats, htold⟩ := hrun hall
    cases result with
    | error failure => cases hresult
    | ok _ =>
        cases hresult
        refine ⟨hrepeats.tree, ?_, fun hpaths => ⟨_, rfl, rfl, (htold hpaths).2⟩⟩
        rintro outcome ⟨⟩
        exact hrepeats.created
  · obtain ⟨result, t, hall, rfl, hresult⟩ := ends_journaled hjournaled
    obtain ⟨hrepeats, htold⟩ := hrun hall
    refine ⟨hrepeats.tree, by simp, fun hpaths => ?_⟩
    rw [(htold hpaths).1] at hresult
    cases hresult

theorem Applied.ends_apply (h : Applied library request job s) {r : Except Failure Outcome}
    (hend : ((Operation.feature request).apply library).Ends s r s') :
    s'.tree = s.tree ∧ (∀ outcome, r = .ok outcome → outcome.created = []) ∧
      ((∃ place, s.tree.resolved s.here job.template.text = .ok place) →
        (∀ raw ∈ job.entry.includes, ∃ files, pathsOf job raw s.tree s.here = .ok files) →
        ∃ outcome, r = .ok outcome ∧ TellsAgain job s outcome) := by
  by_cases hresolved : ∃ place, s.tree.resolved s.here job.template.text = .ok place
  · obtain ⟨place, hplace⟩ := hresolved
    obtain ⟨t, hlooks, hprepare⟩ := h.ready.again h.calm h.directory hplace
    rw [Operation.apply, hprepare.bind_iff] at hend
    simp only [applyEntry, h.direct] at hend
    obtain ⟨htree, hcreated, htold⟩ := (h.of_looks hlooks).ends_applyDirectives hend
    rw [hlooks.tree, hlooks.here] at htold
    refine ⟨htree.trans hlooks.tree, hcreated, fun _ hpaths => ?_⟩
    obtain ⟨outcome, hr, hsuccess, hexisting⟩ := htold hpaths
    rw [hlooks.tree, hlooks.here] at hexisting
    exact ⟨outcome, hr, hsuccess, hexisting⟩
  · -- the operation is not prepared, so nothing is done
    rcases ends_bind.1 hend with ⟨found, t, hprepare, hlast⟩ | ⟨failure, hprepare, rfl⟩
    · have hreads := Operation.follows_prepare _ _ _ _ _ hprepare
      cases found with
      | error message =>
          obtain ⟨rfl, rfl⟩ := ends_pure.1 hlast
          refine ⟨hreads.tree, ?_, fun hplace => absurd hplace hresolved⟩
          rintro outcome ⟨⟩
          rfl
      | ok other =>
          obtain ⟨hready, place, hplace⟩ := Operation.ready_of_prepare hprepare
          rw [hready.job_eq, hreads.tree, hreads.here] at hplace
          rw [h.ready.job_eq] at hresolved
          exact absurd ⟨place, hplace⟩ hresolved
    · have hreads := Operation.follows_prepare _ _ _ _ _ hprepare
      exact ⟨hreads.tree, by simp, fun hplace => absurd hplace hresolved⟩

/-- Applying a feature again changes no file, and ends with an outcome. -/
theorem Applied.ends_perform (h : Applied library request job s) {r : Except Failure Outcome}
    (hend : ((Operation.feature request).perform library).Ends s r s') :
    ∃ outcome, r = .ok outcome ∧ s'.tree = s.tree ∧ outcome.created = [] ∧
      ((∃ place, s.tree.resolved s.here job.template.text = .ok place) →
        (∀ raw ∈ job.entry.includes, ∃ files, pathsOf job raw s.tree s.here = .ok files) →
        TellsAgain job s outcome) := by
  obtain ⟨found, t, happly, hlast⟩ := ends_attempt_bind.1 hend
  obtain ⟨htree, hcreated, htold⟩ := h.ends_apply happly
  cases found with
  | ok outcome =>
      obtain ⟨rfl, rfl⟩ := ends_pure.1 hlast
      refine ⟨outcome, rfl, htree, hcreated outcome rfl, fun hplace hpaths => ?_⟩
      obtain ⟨_, houtcome, htells⟩ := htold hplace hpaths
      cases houtcome
      exact htells
  | error failure =>
      obtain ⟨rfl, rfl⟩ := ends_pure.1 hlast
      refine ⟨_, rfl, htree, rfl, fun hplace hpaths => ?_⟩
      obtain ⟨_, houtcome, -⟩ := htold hplace hpaths
      cases houtcome

section Run

variable {start finish : Session} (hwell : s.tree.WellFormed) (hcalm : s.IsCalm)
  (hrun : (Operation.feature request).RunsTo library s job start finish)
include hwell hcalm hrun

theorem applied_of_runsTo (hdirect : (Operation.feature request).usesGenerator library s = false) :
    Applied library request job { finish with journal := start.journal } := by
  obtain ⟨m, hprepare, hensure⟩ := hrun.prepared
  have hreads := Operation.follows_prepare _ _ _ _ _ hprepare
  have hwellM : m.tree.WellFormed := by rwa [hreads.tree]
  have hproper := hrun.isProper_target hwell
  have hopened := (follows_storage_ensureDirectory _ _ _ _ hensure).addsAll hwellM
  have hgrows := hrun.grows hwell
  have hlater : m.Grows { finish with journal := start.journal } :=
    hopened.trans ⟨⟨hgrows.here, hgrows.faults, hgrows.calm⟩, hgrows.manifests, hgrows.added⟩
  have hcalm' : Session.IsCalm { start with journal := .empty } := hrun.agrees.isCalm hcalm
  have hsettled : ∀ raw ∈ job.entry.includes, Settled job raw finish.tree finish.here :=
    fun raw hraw => settled_of_run hcalm' hopened.added.well hproper hrun.run hraw
  refine ⟨hlater.isCalm (hreads.isCalm hcalm), hlater.added.well, hproper,
    (Operation.ready_of_prepare hprepare).1.kept hwellM hlater, ?_, ?_, hsettled⟩
  · rw [Operation.usesGenerator, hprepare.result_eq] at hdirect
    exact Option.not_isSome_iff_eq_none.1 (Bool.eq_false_iff.1 hdirect)
  · have hlook := look_of_storage_ensureDirectory hwellM hproper hensure
    rw [← hgrows.here] at hlook
    exact look_kept hgrows.added.kept hlook

/-- What was created is a file. -/
theorem look_of_mem_created {path : Text} (hpath : path ∈ finish.journal.created) :
    ∃ content, finish.tree.look finish.here path true = .ok (.file content) := by
  have hcalm' : Session.IsCalm { start with journal := .empty } := hrun.agrees.isCalm hcalm
  obtain ⟨gains, places, -, hjournal, hplaces, hpaths⟩ :=
    run_contributes hcalm' (hrun.adds hwell).1 (hrun.isProper_target hwell) hrun.run
  rw [hjournal, Journal.empty_add] at hpath
  obtain ⟨place, hplace, hlocate⟩ := hpaths.exists_of_mem hpath
  obtain ⟨-, content, hcontent⟩ := (hplaces.mem_iff place).1 hplace
  exact ⟨content, look_eq_ok_iff.2 ⟨place, hlocate, hcontent⟩⟩

end Run

namespace Sample

/-- A link that leads nowhere until the directory `d` is made. -/
def linking (target : Text) : Session :=
  session ["x->l", "d"]
    [(["t", "w", "x"], file "Hi"), (["t", "w", "d"], .directory), (["t", "w", "d", "f"], file "f"),
      (["p", "l"], .link target)]

end Sample

end Scaffold

end Stencil
