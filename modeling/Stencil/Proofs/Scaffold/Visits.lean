import Stencil.Proofs.Scaffold.Preparation

/-!
# Visited directives

An operation visits the directives of an entry one after the other.  A directive
is passed over, its target is preserved, or its target is made at a free place;
which of these it is shows once the directories above the target were made.
-/

namespace Stencil.Scaffold

open FileTree Session Action Placement

/-- Whether a directive is applied. -/
def selects (job : Generator.Job) (raw : Text) : Bool :=
  (Directive.parse raw).conditions.hold job.vars

/-- The target of a directive as it is named there. -/
def nameOf (job : Generator.Job) (raw : Text) : Text := ((Directive.parse raw).place job.vars).content

def targetOf (job : Generator.Job) (raw : Text) : FilePath := job.target.child (nameOf job raw)

/-- A directive of a job, with the session that it is applied in. -/
structure Visit where
  job : Generator.Job
  raw : Text
  before : Session

namespace Visit

def directive (v : Visit) : Directive := Directive.parse v.raw

def isSelected (v : Visit) : Bool := selects v.job v.raw

def target (v : Visit) : FilePath := targetOf v.job v.raw

/-- What is said if the target could not be rendered. -/
def warnings (v : Visit) : List Text :=
  ((v.directive.place v.job.vars).warning?.map v.directive.unrenderedWarning).toList

/-- What a selected directive starts with: the directories above its target are made. -/
def opening (v : Visit) : Action Unit := do
  let (target, warnings) ← renderTarget v.directive v.job.vars
  updateJournal fun journal => journal.warn warnings
  Storage.ensureDirectory (v.job.target.child target).parent.text

def opened (v : Visit) : Session := v.opening.after v.before

def after (v : Visit) : Session := (applyDirective v.job v.raw).after v.before

/-- Whether the directive finds nothing at its target. -/
def isMade (v : Visit) : Bool :=
  v.isSelected && !(v.opened.tree.look v.opened.here v.target.text false).isOk

/-- The source of the directive: its own path, or the one with the suffix of templates. -/
def source (v : Visit) : FilePath :=
  sourceIn v.opened.tree v.opened.here v.job.library.suffix
    (v.job.template.child v.directive.source)

end Visit

/-- The visits of directives, each one in the session that the one before it left. -/
def visitsFrom (job : Generator.Job) : List Text → Session → List Visit
  | [], _ => []
  | raw :: includes, s => ⟨job, raw, s⟩ :: visitsFrom job includes (Visit.after ⟨job, raw, s⟩)

/-- All visits of an operation, if it can be prepared. -/
def Operation.visits (library : Library) (operation : Operation) (s : Session) : List Visit :=
  match (operation.prepare library).result s with
  | .ok (.ok job) =>
      let start := (Storage.ensureDirectory job.target.text).after
        ((operation.prepare library).after s)
      visitsFrom job job.entry.includes { start with journal := .empty }
  | _ => []

variable {s m s' : Session} {v : Visit} {job : Generator.Job} {place : Location}
  {includes : List Text}

/-! ## Courses of visits -/

namespace Visit

/-- How a selected directive starts. -/
structure Opens (v : Visit) : Prop where
  grows : v.before.Grows v.opened
  directories : v.before.tree.AddsDirectories v.opened.tree
  parent : v.opened.tree.look v.opened.here v.target.parent.text true = .ok .directory
  journal : v.opened.journal = v.before.journal.warn v.warnings

/-- A target that is there already: its files are told, and nothing is done to it. -/
structure Preserves (v : Visit) : Prop where
  isThere : ∃ item, v.opened.tree.look v.opened.here v.target.text false = .ok item
  notes : v.opened.Notes v.after
  recorded : ∃ files, expand v.opened.tree v.opened.here v.target = .ok files ∧
    v.after.journal = ⟨v.opened.journal.created, v.opened.journal.existing ++ files,
      v.opened.journal.warnings ++ [preservedWarning (nameOf v.job v.raw)]⟩

/-- A target that is made at a place. -/
structure Makes (v : Visit) (place : Location) : Prop where
  free : v.opened.tree.get? place = none
  region : v.after.tree.Region v.after.here v.target place
  changes : ChangesBelow place v.opened.tree v.after.tree
  agrees : v.opened.Agrees v.after
  manifests : v.after.manifests = v.opened.manifests
  made : Made v.job.library.suffix (v.job.template.child v.directive.source) v.target v.job.vars
    place v.opened v.after

inductive Course (v : Visit) : Prop where
  | skipped (unselected : v.isSelected = false) (looks : v.before.Looks v.after)
  | preserved (selected : v.isSelected = true) (unmade : v.isMade = false) (opens : v.Opens)
      (preserves : v.Preserves)
  | made (isMade : v.isMade = true) (opens : v.Opens) (place : Location)
      (makes : v.Makes place)

theorem grows_of_makes (hopens : v.Opens) (hmakes : v.Makes place) : v.before.Grows v.after :=
  hopens.grows.trans ⟨hmakes.agrees, hmakes.manifests,
    hmakes.changes.isAddedTo hopens.grows.added.well hmakes.free hmakes.region⟩

theorem Course.grows (h : v.Course) (hwell : v.before.tree.WellFormed) :
    v.before.Grows v.after := by
  cases h with
  | skipped _ hlooks => exact hlooks.adds hwell
  | preserved _ _ hopens hpreserves =>
      exact hopens.grows.trans (hpreserves.notes.adds hopens.grows.added.well)
  | made _ hopens place hmakes => exact grows_of_makes hopens hmakes

theorem isProper_target (h : v.job.target.IsProper) : v.target.IsProper := h.child _

/-- The directories above the target are made in the session that the console left. -/
theorem opens_of_ensure (hwell : v.before.tree.WellFormed) (htarget : v.job.target.IsProper)
    (hlooks : v.before.Looks m)
    (hrender : (renderTarget v.directive v.job.vars).Ends v.before
      (.ok (nameOf v.job v.raw, v.warnings)) m)
    (hensure : (Storage.ensureDirectory v.target.parent.text).Ends
      { m with journal := m.journal.warn v.warnings } (.ok ()) s') :
    v.opened = s' ∧ v.Opens := by
  have hopening : v.opening.Ends v.before (.ok ()) s' := by
    refine hrender.bind ?_
    exact Ends.bind (ends_modify.2 ⟨rfl, rfl⟩) hensure
  have hopened : v.opened = s' := hopening.after_eq
  have hensures := follows_storage_ensureDirectory _ _ _ _ hensure
  have hwellM : m.tree.WellFormed := by rwa [hlooks.tree]
  obtain ⟨hwell', hadds⟩ := hensures.adds hwellM
  have hparent := look_of_storage_ensureDirectory
    (s := { m with journal := m.journal.warn v.warnings }) hwellM (isProper_target htarget).parent
    hensure
  refine ⟨hopened, ?_⟩
  rw [← hopened] at hensures hwell' hadds hparent
  refine ⟨⟨hlooks.toAgrees.trans ⟨hensures.here, hensures.faults, hensures.calm⟩,
    hensures.manifests.trans hlooks.manifests, ?_⟩, ?_, hparent, ?_⟩
  · rw [← hlooks.tree]
    exact hadds.isAddedTo hwell'
  · rw [← hlooks.tree]
    exact hadds
  · rw [hensures.journal, hlooks.journal]

/-- The steps of a visit that does not fail. -/
theorem ends_ok (h : (applyDirective v.job v.raw).Ends v.before (.ok ()) s') :
    v.isSelected = false ∧ v.before.Looks s' ∨
      v.isSelected = true ∧ ∃ m made t, v.before.Looks m ∧
        (renderTarget v.directive v.job.vars).Ends v.before
          (.ok (nameOf v.job v.raw, v.warnings)) m ∧
        (Placement.place v.job.library.suffix (v.job.template.child v.directive.source) v.target
          v.job.vars).Ends { m with journal := m.journal.warn v.warnings } (.ok made) t ∧
        (made = true → s' = t) ∧
        (made = false → t.Notes s' ∧
          s'.journal = t.journal.warn [preservedWarning (nameOf v.job v.raw)]) := by
  obtain ⟨_, m, hrender, hnext⟩ := ends_bind_ok.1 h
  obtain ⟨hlooks, hrendered⟩ := ends_renderTarget hrender
  cases hrendered
  dsimp only at hnext
  split at hnext
  case isFalse hskipped =>
    exact .inl ⟨Bool.eq_false_iff.2 hskipped, hlooks.trans (follows_printDetail _ _ _ _ hnext)⟩
  rename_i hselected
  rw [updateJournal, ends_modify_bind] at hnext
  obtain ⟨made, t, hplace, hlast⟩ := ends_bind_ok.1 hnext
  refine .inr ⟨hselected, m, made, t, hlooks, hrender, hplace, ?_⟩
  cases made with
  | true => exact ⟨fun _ => (ends_pure.1 hlast).2, by simp⟩
  | false =>
      obtain ⟨_, u, hprint, hwarn⟩ := ends_bind_ok.1 hlast
      have hshown := follows_printWarning _ _ _ _ hprint
      obtain ⟨-, rfl⟩ := ends_modify.1 hwarn
      refine ⟨by simp, fun _ => ⟨hshown.notes.trans ⟨⟨rfl, rfl, id⟩, rfl, rfl⟩, ?_⟩⟩
      rw [← hshown.journal]
      rfl

/-- If no call is made to fail, a visit that does not fail takes one of three courses. -/
theorem course (hcalm : v.before.IsCalm) (hwell : v.before.tree.WellFormed)
    (htarget : v.job.target.IsProper)
    (h : (applyDirective v.job v.raw).Ends v.before (.ok ()) s') : v.Course := by
  have hafter : v.after = s' := h.after_eq
  rcases ends_ok h with ⟨hskipped, hlooks⟩ |
    ⟨hselected, m, made, t, hlooks, hrender, hplace, hmade, hkept⟩
  · exact .skipped hskipped (hafter ▸ hlooks)
  have hcalm' : Session.IsCalm { m with journal := m.journal.warn v.warnings } :=
    hlooks.isCalm hcalm
  have hwell' : m.tree.WellFormed := by rwa [hlooks.tree]
  obtain ⟨opened, hensure, -, hcases⟩ := ends_place hcalm' hwell' (isProper_target htarget) hplace
  obtain ⟨rfl, hopens⟩ := opens_of_ensure hwell htarget hlooks hrender hensure
  rcases hcases with ⟨rfl, hpreserved⟩ | ⟨rfl, ⟨failure, hfree⟩, hagrees, hmanifests, place,
    hnone, hregion, hchanges, hdone⟩
  · obtain ⟨item, hthere⟩ := hpreserved.isThere
    have hunmade : v.isMade = false := by simp [isMade, isOk_iff.2 ⟨item, hthere⟩]
    obtain ⟨hnotes, hwarned⟩ := hkept rfl
    obtain ⟨files, hfiles, hjournal⟩ := hpreserved.recorded
    refine .preserved hselected hunmade hopens ⟨⟨item, hthere⟩, ?_, files, hfiles, ?_⟩
    · rw [hafter]
      exact hpreserved.looked.trans hnotes
    · rw [hafter, hwarned, hjournal]
      rfl
  · have hismade : v.isMade = true := by
      rw [isMade, hselected, hfree]
      rfl
    rw [← hmade rfl, ← hafter] at hagrees hmanifests hregion hchanges hdone
    exact .made hismade hopens place
      ⟨hnone, hregion, hchanges, hagrees, hmanifests.symm, hdone⟩

end Visit

/-! ## Runs of visits -/

theorem mem_visitsFrom (h : v ∈ visitsFrom job includes s) : v.job = job ∧ v.raw ∈ includes := by
  induction includes generalizing s with
  | nil => cases h
  | cons raw includes ih =>
      rcases List.mem_cons.1 h with rfl | h
      · exact ⟨rfl, List.mem_cons_self⟩
      · exact ⟨(ih h).1, List.mem_cons_of_mem _ (ih h).2⟩

/-- A relation that holds of placing targets holds of applying directives. -/
theorem follows_applyDirective_of {rel : Session → Session → Prop} (hrel : Discipline rel)
    (hnotes : ∀ s s', s.Notes s' → rel s s') {raw : Text}
    (hplace : selects job raw = true → (Placement.place job.library.suffix
      (job.template.child (Directive.parse raw).source) (targetOf job raw) job.vars).Follows rel) :
    (applyDirective job raw).Follows rel := by
  have hlooks : ∀ s s' : Session, s.Looks s' → rel s s' := fun s s' h => hnotes s s' h.notes
  have hrender : (renderTarget (Directive.parse raw) job.vars).Follows Looks :=
    fun _ _ _ h => (ends_renderTarget h).1
  refine hrel.bind_of (hrender.mono hlooks) fun s rendered m hrendered => ?_
  cases (ends_renderTarget hrendered).2
  dsimp only
  split
  · rename_i hselected
    refine hrel.bind ((follows_updateJournal _).mono hnotes) (fun _ => ?_) m
    refine hrel.bind (hplace hselected) fun made => ?_
    split
    · refine hrel.bind ((follows_printWarning _).mono hlooks) fun _ => ?_
      exact (follows_updateJournal _).mono hnotes
    · exact hrel.pure _
  · exact (follows_printDetail _).mono hlooks m

/-- Whatever fails on the way, directives only add to the files. -/
theorem follows_applyDirective (htarget : job.target.IsProper) (raw : Text) :
    (applyDirective job raw).Follows Adds :=
  follows_applyDirective_of discipline_adds (fun _ _ => Notes.adds) fun _ =>
    follows_place (htarget.child _)

theorem follows_applyAll (htarget : job.target.IsProper) :
    (includes.forM (applyDirective job)).Follows Adds :=
  discipline_adds.forM fun raw _ => follows_applyDirective htarget raw

/-- A run without failures is its first visit, and a run from what that left. -/
theorem ends_applyAll_cons
    (h : ((raw :: includes).forM (applyDirective job)).Ends s (.ok ()) s') :
    (applyDirective job raw).Ends s (.ok ()) (Visit.after ⟨job, raw, s⟩) ∧
      (includes.forM (applyDirective job)).Ends (Visit.after ⟨job, raw, s⟩) (.ok ()) s' := by
  obtain ⟨_, m, hfirst, hrest⟩ := ends_bind_ok.1 h
  obtain rfl : Visit.after ⟨job, raw, s⟩ = m := hfirst.after_eq
  exact ⟨hfirst, hrest⟩

theorem course_of_cons (hcalm : s.IsCalm) (hwell : s.tree.WellFormed)
    (htarget : job.target.IsProper)
    (h : ((raw :: includes).forM (applyDirective job)).Ends s (.ok ()) s') :
    Visit.Course ⟨job, raw, s⟩ ∧ s.Grows (Visit.after ⟨job, raw, s⟩) ∧
      (includes.forM (applyDirective job)).Ends (Visit.after ⟨job, raw, s⟩) (.ok ()) s' := by
  obtain ⟨hfirst, hrest⟩ := ends_applyAll_cons h
  have hcourse : Visit.Course ⟨job, raw, s⟩ := Visit.course hcalm hwell htarget hfirst
  exact ⟨hcourse, hcourse.grows hwell, hrest⟩

/-- Every visit of a run without failures finds a calm and well-formed session. -/
theorem course_of_mem (hcalm : s.IsCalm) (hwell : s.tree.WellFormed)
    (htarget : job.target.IsProper)
    (h : (includes.forM (applyDirective job)).Ends s (.ok ()) s')
    (hv : v ∈ visitsFrom job includes s) :
    v.job = job ∧ v.Course ∧ s.Grows v.before ∧ v.after.Grows s' := by
  induction includes generalizing s with
  | nil => cases hv
  | cons raw includes ih =>
      obtain ⟨hcourse, hgrows, hrest⟩ := course_of_cons hcalm hwell htarget h
      rcases List.mem_cons.1 hv with rfl | hv
      · exact ⟨rfl, hcourse, (Looks.refl s).adds hwell,
          follows_applyAll htarget _ _ _ hrest hgrows.added.well⟩
      · obtain ⟨hjob, hlater, hbefore, hafter⟩ :=
          ih (hgrows.isCalm hcalm) hgrows.added.well hrest hv
        exact ⟨hjob, hlater, hgrows.trans hbefore, hafter⟩

end Stencil.Scaffold
