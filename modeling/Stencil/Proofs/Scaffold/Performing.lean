import Stencil.Proofs.Scaffold.Visits

/-!
# Performed operations

Every operation ends with an outcome.  Unless a generator is at work, it only
adds to the files that are there, whichever calls fail.  A success is a run over
all directives of an entry, with a journal of its own.
-/

namespace Stencil

open FileTree Session Action

/-- Everything that was there is kept, and no link is new. -/
def Session.Keeps (s s' : Session) : Prop := s.tree.WellFormed → s.tree.IsAddedTo s'.tree

variable {α : Type} {s m s' : Session}

theorem Session.Adds.keeps (h : s.Adds s') : s.Keeps s' := fun hwell => (h hwell).added

theorem Session.Reads.keeps (h : s.Reads s') : s.Keeps s' := fun hwell => by
  rw [h.tree]
  exact .refl hwell

namespace Action

theorem discipline_keeps : Discipline Keeps where
  refl _ := IsAddedTo.refl
  trans h h' hwell := (h hwell).trans (h' (h hwell).well)

theorem ends_journaled {action : Action α} {r : Except Failure (α × Journal)}
    (h : (journaled action).Ends s r s') :
    ∃ result t, action.Ends { s with journal := .empty } result t ∧
      s' = { t with journal := s.journal } ∧ r = result.map fun a => (a, t.journal) := by
  rw [journaled, ends_get_bind, updateJournal, ends_modify_bind, ends_attempt_bind] at h
  obtain ⟨result, t, hend, hnext⟩ := h
  rw [ends_get_bind, updateJournal, ends_modify_bind] at hnext
  refine ⟨result, t, hend, ?_⟩
  cases result with
  | error failure =>
      rcases ends_bind.1 hnext with ⟨a, u, hlift, -⟩ | ⟨other, hlift, rfl⟩
      · cases (ends_lift.1 hlift).1
      · obtain ⟨hother, rfl⟩ := ends_lift.1 hlift
        cases hother
        exact ⟨rfl, rfl⟩
  | ok a =>
      rw [Ends.bind_iff (ends_lift.2 ⟨rfl, rfl⟩)] at hnext
      obtain ⟨rfl, rfl⟩ := ends_pure.1 hnext
      exact ⟨rfl, rfl⟩

theorem Ends.journaled {action : Action α} {a : α} {t : Session}
    (h : action.Ends { s with journal := .empty } (.ok a) t) :
    (Action.journaled action).Ends s (.ok (a, t.journal)) { t with journal := s.journal } := by
  have hend := Ends.run (Action.journaled action) s
  obtain ⟨result, u, hinner, hafter, hresult⟩ := ends_journaled hend
  obtain ⟨rfl, rfl⟩ := hinner.unique h
  rw [hafter, hresult] at hend
  exact hend

/-- A relation that does not depend on the journal is followed with a journal of its own. -/
theorem Follows.journaled {rel : Session → Session → Prop} {action : Action α}
    (hrel : ∀ s s' before after, rel { s with journal := before } s' →
      rel s { s' with journal := after }) (h : action.Follows rel) :
    (Action.journaled action).Follows rel := by
  intro s r s' hend
  obtain ⟨result, t, hinner, rfl, -⟩ := ends_journaled hend
  exact hrel s t _ _ (h _ result t hinner)

end Action

namespace Scaffold

/-! ## A small library -/

namespace Sample

/-- A library with one template, which has one feature. -/
def library : Library := ⟨.ofText "/t", Settings.default⟩

def feature (target : Text) : FeatureRequest :=
  ⟨target, "w", "e", [("name", .text "{{ x }}")]⟩

def file (text : Text) : FileItem := .file (.bytes (text.flatMap CodePoint.utf8))

def manifest (includes : List Text) : FileItem :=
  file (("features:\n  - name: e\n    includes:\n" : Text) ++
    includes.flatMap fun raw => ("      - \"" : Text) ++ raw ++ ("\"\n" : Text))

/-- A project beside the template, which has a manifest and more items. -/
def session (includes : List Text) (items : List (Location × FileItem)) : Session :=
  .start ⟨(["t"], .directory) :: (["t", "w"], .directory) :: (["p"], .directory) ::
    (["t", "w", "scaffold.yaml"], manifest includes) :: items⟩ []

def rendering : Session :=
  session ["f->g", "d", "f?name=y", "f->k"]
    [(["t", "w", "f.j2"], file "Hi {{ name }}"), (["t", "w", "d"], .directory),
      (["t", "w", "d", "h"], file "{{ name }}"), (["p", "k"], file "old")]

theorem wellFormed_rendering : rendering.tree.WellFormed := by decide +kernel

/-- No file can be written, and one call is interrupted. -/
def failing : Session :=
  { rendering with
    faults := [⟨.write, none, .injected "disk full"⟩]
    interruptions := List.replicate 23 none ++ [some (.injected "no memory")] }

end Sample

variable {library : Library} {operation : Operation} {job : Generator.Job} {kind : Kind}
  {outcome : Outcome}

/-! ## What every operation keeps -/

/-- Whether an operation comes to an entry that names a generator. -/
def Operation.usesGenerator (library : Library) (operation : Operation) (s : Session) : Bool :=
  match (operation.prepare library).result s with
  | .ok (.ok job) => (job.entry.generator.filter fun name => !name.isEmpty).isSome
  | _ => false

theorem applyEntry_of_direct
    (hdirect : operation.usesGenerator library s = false)
    (h : (operation.prepare library).Ends s (.ok (.ok job)) m) :
    applyEntry kind job = applyDirectives kind job := by
  rw [Operation.usesGenerator, h.result_eq] at hdirect
  have hnone : (job.entry.generator.filter fun name => !name.isEmpty) = none :=
    Option.not_isSome_iff_eq_none.1 (Bool.eq_false_iff.1 hdirect)
  rw [applyEntry, hnone]

theorem follows_applyDirectives (htarget : job.target.IsProper) :
    (applyDirectives kind job).Follows Keeps := by
  refine discipline_keeps.bind ((follows_storage_ensureDirectory _).mono fun _ _ h =>
    h.addsAll.keeps) fun _ => ?_
  refine discipline_keeps.bind (.journaled (fun _ _ _ _ => id) ?_) fun _ => discipline_keeps.pure _
  exact (follows_applyAll htarget).mono fun _ _ => Adds.keeps

theorem follows_apply (hdirect : operation.usesGenerator library s = false)
    {r : Except Failure Outcome} (h : (operation.apply library).Ends s r s') : s.Keeps s' := by
  intro hwell
  rcases ends_bind.1 h with ⟨found, m, hprepare, hnext⟩ | ⟨failure, hprepare, -⟩
  case inr => exact (Operation.follows_prepare _ _ _ _ _ hprepare).keeps hwell
  have hreads := (Operation.follows_prepare _ _ _ _ _ hprepare).keeps
  cases found with
  | error message =>
      obtain ⟨-, rfl⟩ := ends_pure.1 hnext
      exact hreads hwell
  | ok job =>
      have htarget := Operation.isProper_target_of_prepare hwell hprepare
      simp only [applyEntry_of_direct hdirect hprepare] at hnext
      exact discipline_keeps.trans hreads (follows_applyDirectives htarget _ _ _ hnext) hwell

/-- An operation without a generator changes and removes nothing, whether or not it succeeds. -/
theorem tree_isKeptBy_perform (library : Library) (operation : Operation) (s : Session)
    (hwell : s.tree.WellFormed) (hdirect : operation.usesGenerator library s = false) :
    s.tree.IsKeptBy ((operation.perform library).after s).tree := by
  obtain ⟨found, m, happly, hnext⟩ :=
    ends_attempt_bind.1 (Ends.run (operation.perform library) s)
  have hkept := (follows_apply hdirect happly hwell).kept
  cases found with
  | error failure => rwa [(ends_pure.1 hnext).2]
  | ok outcome => rwa [(ends_pure.1 hnext).2]

theorem Sample.usesGenerator_rendering :
    (Operation.feature (Sample.feature "/p")).usesGenerator Sample.library Sample.rendering =
      false := by
  decide +kernel

/-- A run in which no file can be written, and which is interrupted half-way. -/
theorem tree_isKeptBy_perform_failing :
    Sample.failing.tree.WellFormed ∧
      (Operation.feature (Sample.feature "/p")).usesGenerator Sample.library Sample.failing =
        false ∧
      Sample.failing.tree.IsKeptBy
        (((Operation.feature (Sample.feature "/p")).perform Sample.library).after
          Sample.failing).tree :=
  ⟨by decide +kernel, by decide +kernel,
    tree_isKeptBy_perform _ _ _ (by decide +kernel) (by decide +kernel)⟩

/-! ## Successes -/

/-- The outcome that an operation ends with. -/
def Operation.outcome? (library : Library) (operation : Operation) (s : Session) :
    Option Outcome :=
  ((operation.perform library).result s).toOption

theorem Operation.outcome?_eq (h : (operation.perform library).Ends s (.ok outcome) m) :
    operation.outcome? library s = some outcome := by
  rw [outcome?, h.result_eq]
  rfl

def Operation.succeeds (library : Library) (operation : Operation) (s : Session) : Bool :=
  (operation.outcome? library s).any Outcome.success

theorem Sample.succeeds_rendering :
    (Operation.feature (Sample.feature "/p")).succeeds Sample.library Sample.rendering = true := by
  decide +kernel

def Operation.outcomeOf (operation : Operation) (job : Generator.Job) (journal : Journal) :
    Outcome :=
  journal.outcome (successMessage operation.kind job.target journal.existing.length
    job.library.settings.installCommand)

/-- The run of an operation that succeeds, from its first directive to its last one. -/
structure Operation.RunsTo (library : Library) (operation : Operation) (s : Session)
    (job : Generator.Job) (start finish : Session) : Prop where
  prepared : ∃ m, (operation.prepare library).Ends s (.ok (.ok job)) m ∧
    (Storage.ensureDirectory job.target.text).Ends m (.ok ()) start
  run : (job.entry.includes.forM (applyDirective job)).Ends { start with journal := .empty }
    (.ok ()) finish
  ended : (operation.perform library).Ends s (.ok (operation.outcomeOf job finish.journal))
    { finish with journal := start.journal }

theorem exists_runsTo (hdirect : operation.usesGenerator library s = false)
    (hsuccess : operation.succeeds library s = true) :
    ∃ job start finish, operation.RunsTo library s job start finish := by
  have hend := Ends.run (operation.perform library) s
  rw [Operation.succeeds, Operation.outcome?] at hsuccess
  cases hresult : (operation.perform library).result s with
  | error failure =>
      rw [hresult] at hsuccess
      cases hsuccess
  | ok outcome =>
      rw [hresult] at hend hsuccess
      have htold : outcome.success = true := hsuccess
      obtain ⟨found, u, happly, hlast⟩ := ends_attempt_bind.1 hend
      cases found with
      | error failure =>
          obtain ⟨houtcome, -⟩ := ends_pure.1 hlast
          cases houtcome
          cases htold
      | ok told =>
          obtain ⟨houtcome, hsame⟩ := ends_pure.1 hlast
          cases houtcome
          rw [hsame] at hend
          obtain ⟨found, m, hprepare, hnext⟩ := ends_bind_ok.1 happly
          cases found with
          | error message =>
              obtain ⟨houtcome, -⟩ := ends_pure.1 hnext
              cases houtcome
              cases htold
          | ok job =>
              simp only [applyEntry_of_direct hdirect hprepare] at hnext
              obtain ⟨_, start, hensure, hrun⟩ := ends_bind_ok.1 hnext
              obtain ⟨⟨_, journal⟩, t, hjournaled, hpure⟩ := ends_bind_ok.1 hrun
              obtain ⟨result, finish, hall, rfl, hresult⟩ := ends_journaled hjournaled
              obtain ⟨houtcome, rfl⟩ := ends_pure.1 hpure
              cases houtcome
              cases result with
              | error failure => cases hresult
              | ok _ =>
                  cases hresult
                  exact ⟨job, start, finish, ⟨m, hprepare, hensure⟩, hall, hend⟩

/-- An operation that is prepared, and whose directives do not fail, runs to its end. -/
theorem Operation.runsTo_of_run {start finish : Session}
    (hdirect : operation.usesGenerator library s = false)
    (hprepare : (operation.prepare library).Ends s (.ok (.ok job)) m)
    (hensure : (Storage.ensureDirectory job.target.text).Ends m (.ok ()) start)
    (hrun : (job.entry.includes.forM (applyDirective job)).Ends { start with journal := .empty }
      (.ok ()) finish) : operation.RunsTo library s job start finish := by
  refine ⟨⟨m, hprepare, hensure⟩, hrun, ?_⟩
  refine ends_attempt_bind.2 ⟨.ok _, _, hprepare.bind ?_, ends_pure.2 ⟨rfl, rfl⟩⟩
  simp only [applyEntry_of_direct hdirect hprepare]
  refine hensure.bind (hrun.journaled.bind (ends_pure.2 ⟨rfl, rfl⟩))

namespace Operation.RunsTo

variable {start finish : Session} (h : operation.RunsTo library s job start finish)
include h

theorem isProper_target (hwell : s.tree.WellFormed) : job.target.IsProper := by
  obtain ⟨m, hprepare, -⟩ := h.prepared
  exact isProper_target_of_prepare hwell hprepare

theorem agrees : s.Agrees start := by
  obtain ⟨m, hprepare, hensure⟩ := h.prepared
  exact (follows_prepare _ _ _ _ _ hprepare).toAgrees.trans
    (follows_storage_ensureDirectory _ _ _ _ hensure).toAgrees

/-- All that was done before the first directive is to make the target. -/
theorem adds (hwell : s.tree.WellFormed) :
    start.tree.WellFormed ∧ s.tree.AddsDirectories start.tree := by
  obtain ⟨m, hprepare, hensure⟩ := h.prepared
  have htree := (follows_prepare _ _ _ _ _ hprepare).tree
  have hadds := (follows_storage_ensureDirectory _ _ _ _ hensure).adds
  rw [htree] at hadds
  exact hadds hwell

theorem grows (hwell : s.tree.WellFormed) :
    Session.Grows { start with journal := .empty } finish :=
  follows_applyAll (h.isProper_target hwell) _ _ _ h.run (h.adds hwell).1

theorem visits_eq :
    operation.visits library s =
      visitsFrom job job.entry.includes { start with journal := .empty } := by
  obtain ⟨m, hprepare, hensure⟩ := h.prepared
  rw [visits, hprepare.result_eq, hprepare.after_eq]
  dsimp only
  rw [hensure.after_eq]

end Operation.RunsTo

end Scaffold

end Stencil
