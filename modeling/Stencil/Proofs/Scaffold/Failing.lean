import Stencil.Proofs.Scaffold.Performing

/-!
# Failed operations

An operation that fails has left the files as they were, or it broke off: its
template passed the check, but then the target could not be made or a directive
failed.  What the directives before that one made is left behind.
-/

namespace Stencil.Scaffold

open FileTree Session Action

variable {library : Library} {operation : Operation} {job : Generator.Job} {kind : Kind}
  {s m s' : Session} {includes : List Text} {raw : Text} {failure : Failure}

/-- Where a run over directives stops: those before the one that fails were applied. -/
structure StopsAt (job : Generator.Job) (includes : List Text) (failure : Failure)
    (s s' : Session) (applied : List Text) (raw : Text) (t : Session) : Prop where
  includes_eq : ∃ rest, includes = applied ++ raw :: rest
  run : (applied.forM (applyDirective job)).Ends s (.ok ()) t
  fails : (applyDirective job raw).Ends t (.error failure) s'

theorem exists_stopsAt (h : (includes.forM (applyDirective job)).Ends s (.error failure) s') :
    ∃ applied raw t, StopsAt job includes failure s s' applied raw t := by
  induction includes generalizing s with
  | nil => cases (ends_pure.1 h).1
  | cons first includes ih =>
      rcases ends_bind.1 h with ⟨_, m, hfirst, hrest⟩ | ⟨other, hfirst, heq⟩
      · obtain ⟨applied, raw, t, ⟨rest, rfl⟩, hrun, hfails⟩ := ih hrest
        exact ⟨first :: applied, raw, t, ⟨rest, rfl⟩, hfirst.bind hrun, hfails⟩
      · cases heq
        exact ⟨[], first, s, ⟨includes, rfl⟩, ends_pure.2 ⟨rfl, rfl⟩, hfirst⟩

/-- A directive that is passed over does not fail. -/
theorem selects_of_fails (h : (applyDirective job raw).Ends s (.error failure) s') :
    selects job raw = true := by
  rcases ends_bind.1 h with ⟨_, m, hrender, hnext⟩ | ⟨_, hrender, -⟩
  case inr => cases (ends_renderTarget hrender).2
  cases (ends_renderTarget hrender).2
  dsimp only at hnext
  split at hnext
  · assumption
  · cases ends_printDetail _ hnext

/-- How an operation breaks off although its template passed the check. -/
inductive BreaksOff (library : Library) (operation : Operation) (s : Session) (failure : Failure)
    (s' : Session) : Prop where
  | target (job : Generator.Job) (m : Session)
      (prepared : (operation.prepare library).Ends s (.ok (.ok job)) m)
      (fails : (Storage.ensureDirectory job.target.text).Ends m (.error failure) s')
  | directive (job : Generator.Job) (m start t finish : Session) (applied : List Text) (raw : Text)
      (prepared : (operation.prepare library).Ends s (.ok (.ok job)) m)
      (ensured : (Storage.ensureDirectory job.target.text).Ends m (.ok ()) start)
      (stops : StopsAt job job.entry.includes failure { start with journal := .empty } finish
        applied raw t)
      (selected : selects job raw = true)
      (sourced : t.tree.HasSource t.here library.suffix job.template (Directive.parse raw).source)
      (left : s' = { finish with journal := start.journal })

def Operation.brokenOff (operation : Operation) (failure : Failure) : Outcome :=
  .failure (("Error scaffolding " : Text) ++ operation.kind.name ++ (": " : Text) ++
    failure.message) []

theorem success_of_applyDirectives {outcome : Outcome}
    (h : (applyDirectives kind job).Ends s (.ok outcome) s') : outcome.success = true := by
  obtain ⟨_, start, -, hrun⟩ := ends_bind_ok.1 h
  obtain ⟨_, t, -, hpure⟩ := ends_bind_ok.1 hrun
  obtain ⟨houtcome, -⟩ := ends_pure.1 hpure
  cases houtcome
  rfl

theorem breaksOff_of_applyDirectives (hwell : s.tree.WellFormed)
    (hprepare : (operation.prepare library).Ends s (.ok (.ok job)) m)
    (h : (applyDirectives kind job).Ends m (.error failure) s') :
    BreaksOff library operation s failure s' := by
  have hreads := Operation.follows_prepare _ _ _ _ _ hprepare
  have hwellM : m.tree.WellFormed := by rwa [hreads.tree]
  have htarget := Operation.isProper_target_of_prepare hwell hprepare
  rcases ends_bind.1 h with ⟨_, start, hensure, hrun⟩ | ⟨_, hensure, heq⟩
  case inr =>
    cases heq
    exact .target job m hprepare hensure
  have hstart := (follows_storage_ensureDirectory _ _ _ _ hensure).addsAll hwellM
  rcases ends_bind.1 hrun with ⟨_, t, -, hpure⟩ | ⟨_, hjournaled, heq⟩
  · cases (ends_pure.1 hpure).1
  cases heq
  obtain ⟨result, finish, hall, rfl, hresult⟩ := ends_journaled hjournaled
  cases result with
  | ok _ => cases hresult
  | error _ =>
      cases hresult
      obtain ⟨applied, raw, t, hstops⟩ := exists_stopsAt hall
      obtain ⟨rest, hincludes⟩ := hstops.includes_eq
      -- the source was there when the template was checked, and nothing is removed
      have hrest := follows_applyAll htarget _ _ _ hstops.run hstart.added.well
      have hgrows : m.Grows t :=
        hstart.trans ⟨⟨hrest.here, hrest.faults, hrest.calm⟩, hrest.manifests, hrest.added⟩
      have hsource := (Operation.checked_of_prepare hprepare).sources raw (by simp [hincludes])
      rw [← hreads.tree, ← hreads.here, ← hgrows.here] at hsource
      exact .directive job m start t finish applied raw hprepare hensure hstops
        (selects_of_fails hstops.fails) (hsource.kept hgrows.added.kept) rfl

namespace Sample

/-- The template holds a link that leads nowhere beside a file. -/
def dangling : Session :=
  session ["f", "l"] [(["t", "w", "f"], file "Hi"), (["t", "w", "l"], .link "nowhere")]

/-- One directive makes a file where the next one needs a directory. -/
def conflicting : Session := session ["f->a", "f->a/b"] [(["t", "w", "f"], file "Hi")]

end Sample

end Stencil.Scaffold
