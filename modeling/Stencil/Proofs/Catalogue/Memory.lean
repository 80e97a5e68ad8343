import Stencil.Catalogue.Features
import Stencil.Proofs.Library.History

/-!
# Courses of requests

Whatever a library is asked for is done by loads of manifests and by work that
nothing is remembered of.  Files may be edited between two requests, and the
memory may be cleared.
-/

namespace Stencil

open Session Action

namespace Manifests

/-! ## What a library can be asked for -/

/-- Every way in which the action ends can be taken apart. -/
def IsTraced {α : Type} (action : Action α) : Prop :=
  ∀ s r s', action.Ends s r s' → ∃ events, Runs action s events r s'

namespace IsTraced

variable {α β : Type}

theorem load (template : FilePath) : IsTraced (Manifests.load template) :=
  fun _ _ _ h => ⟨_, .load h⟩

theorem work {action : Action α} (h : action.Follows Works) : IsTraced action :=
  fun _ _ _ hend => ⟨[], .work (h.mono fun _ _ => Works.manifests) hend⟩

theorem looks {action : Action α} (h : action.Follows Looks) : IsTraced action :=
  fun _ _ _ hend => ⟨[], .work (h.mono fun _ _ => Looks.manifests) hend⟩

theorem pure (a : α) : IsTraced (Pure.pure a : Action α) := work (discipline_works.pure a)

theorem throw (failure : Failure) : IsTraced (MonadExcept.throw failure : Action α) :=
  work (discipline_works.throw failure)

theorem lift (result : Except Failure α) : IsTraced (Action.lift result) :=
  work (discipline_works.lift result)

theorem bind {action : Action α} {next : α → Action β} (h : IsTraced action)
    (hnext : ∀ a, IsTraced (next a)) : IsTraced (action >>= next) := by
  intro s r s' hend
  rcases ends_bind.1 hend with ⟨a, m, hfirst, hrest⟩ | ⟨failure, hfirst, rfl⟩
  · obtain ⟨events, hevents⟩ := h _ _ _ hfirst
    obtain ⟨more, hmore⟩ := hnext a _ _ _ hrest
    exact ⟨events ++ more, .bind hevents hmore⟩
  · obtain ⟨events, hevents⟩ := h _ _ _ hfirst
    exact ⟨events, .fail hevents⟩

theorem attempt {action : Action α} (h : IsTraced action) : IsTraced (Action.attempt action) := by
  intro s r s' hend
  obtain ⟨r', rfl, hend'⟩ := ends_attempt.1 hend
  obtain ⟨events, hevents⟩ := h _ _ _ hend'
  exact ⟨events, .attempt hevents⟩

theorem orElseIf {isCaught : Failure → Bool} {action : Action α} {handle : Failure → Action α}
    (h : IsTraced action) (hhandle : ∀ failure, IsTraced (handle failure)) :
    IsTraced (Action.orElseIf isCaught action handle) := by
  refine h.attempt.bind fun result => ?_
  cases result with
  | ok a => exact .pure a
  | error failure =>
      dsimp only
      split
      · exact hhandle failure
      · exact .throw failure

theorem mapM {f : α → Action β} (items : List α) (h : ∀ item, IsTraced (f item)) :
    IsTraced (items.mapM f) := by
  induction items with
  | nil => exact .pure []
  | cons item items ih =>
      rw [List.mapM_cons]
      exact (h item).bind fun b => ih.bind fun bs => .pure (b :: bs)

theorem ite {condition : Prop} [Decidable condition] {action other : Action α}
    (h : IsTraced action) (hother : IsTraced other) :
    IsTraced (if condition then action else other) := by
  split
  · exact h
  · exact hother

end IsTraced

end Manifests

open Manifests

/-! ## Operations -/

namespace Scaffold

theorem isTraced_findEntry (template : FilePath) (kind : Kind) (name : Text) :
    IsTraced (findEntry template kind name) := by
  refine (IsTraced.load template).bind fun manifest => ?_
  split
  · exact .pure _
  · split <;> exact .pure _

theorem isTraced_preflight (suffix : Text) (template : FilePath) (sectionName : Text)
    (name : Option Text) : IsTraced (preflight suffix template sectionName name) := by
  refine (IsTraced.work (Placement.works_exists? _)).bind fun isThere => ?_
  split
  case isFalse => exact .pure _
  refine (IsTraced.load template).attempt.bind fun found => ?_
  split
  · exact .pure _
  · exact .throw _
  · exact .pure _
  · split
    · exact .pure _
    · exact .bind (.looks (discipline_looks.filterM fun raw _ => follows_isMissing _ _ _))
        fun missing => .pure _

theorem isTraced_perform (library : Library) (operation : Operation) :
    IsTraced (operation.perform library) := by
  have hprepare : IsTraced (operation.prepare library) := by
    have htarget : operation.target.Follows Works :=
      operation.follows_target.mono fun _ _ => .of_eq
    refine (IsTraced.work htarget).bind fun target => ?_
    refine (isTraced_preflight _ _ _ _).bind fun preflight => ?_
    split
    · exact .pure _
    refine (IsTraced.work (works_targetFault? _ _)).bind fun fault => ?_
    split
    · exact .pure _
    refine (isTraced_findEntry _ _ _).bind fun entry => ?_
    split <;> exact .pure _
  refine IsTraced.bind (.attempt (hprepare.bind fun job => ?_)) fun result => ?_
  · cases job with
    | error message => exact .pure _
    | ok job => exact .work (works_applyEntry _ _)
  · cases result <;> exact .pure _

end Scaffold

namespace Catalogue

theorem isTraced_loadListed (template : FilePath) (name : Text) :
    IsTraced (loadListed template name) :=
  (IsTraced.load template).orElseIf fun _ =>
    (IsTraced.work (works_printWarning _)).bind fun _ => .pure _

theorem isTraced_boilerplates (library : Library) : IsTraced (boilerplates library) := by
  refine (IsTraced.looks (Templates.follows_listed _)).bind fun templates => ?_
  refine (IsTraced.mapM templates fun template => ?_).bind fun found => .pure _
  refine (isTraced_loadListed _ _).bind fun manifest => ?_
  split
  · refine .work (discipline_works.filterMapM fun entry _ => ?_)
    unfold listedEntry
    split
    · exact discipline_works.pure _
    · exact discipline_works.bind (works_printWarning _) fun _ =>
        discipline_works.pure _
  · exact .pure _

theorem isTraced_boilerplate? (library : Library) (name : Text) (vars : Option Variables) :
    IsTraced (boilerplate? library name vars) := by
  refine (isTraced_boilerplates library).bind fun found => ?_
  split
  · exact .pure _
  · exact .pure _
  · rename_i found vars _
    refine IsTraced.bind (.work ?_) fun _ => .pure _
    cases found.instruction with
    | none => exact discipline_works.pure _
    | some instruction =>
        exact discipline_works.bind (works_renderIfTemplate _ _) fun _ =>
          discipline_works.pure _

theorem isTraced_make (library : Library) (name : Text) (vars : Variables) :
    IsTraced (make library name vars) := by
  have horder : IsTraced (order library name vars) := by
    refine (isTraced_boilerplates library).bind fun boilerplates => ?_
    split
    · exact .pure _
    refine (IsTraced.lift _).bind fun resolved => ?_
    split
    · exact .pure _
    split
    · exact .pure _
    · exact (IsTraced.lift _).bind fun _ => .pure _
  refine horder.bind fun found => ?_
  split
  · exact .pure _
  refine (Scaffold.isTraced_perform _ _).bind fun outcome => ?_
  split
  case isFalse => exact .pure _
  refine .work (discipline_works.orElseIf ?_ fun failure => ?_)
  · exact discipline_works.bind (Project.works_record _ _ _) fun _ =>
      discipline_works.pure _
  · exact discipline_works.bind (works_printWarning _) fun _ =>
      discipline_works.pure _

theorem isTraced_template? (library : Library) (wanted : Text) :
    IsTraced (template? library wanted) := by
  refine (IsTraced.looks (Templates.follows_listed _)).bind fun templates => ?_
  split
  · exact .pure _
  rename_i hunnamed
  clear hunnamed
  induction templates with
  | nil => exact .pure _
  | cons template others ih =>
      refine (isTraced_loadListed _ _).bind fun manifest => ?_
      cases manifest <;> exact .ite (.pure _) ih

theorem isTraced_template (library : Library) (wanted : Text) :
    IsTraced (template library wanted) := by
  refine (isTraced_template? library wanted).bind fun found => ?_
  split
  · exact .pure _
  · exact .throw _

theorem isTraced_featuresIn (library : Library) (template : Text) :
    IsTraced (featuresIn library template) := by
  refine (IsTraced.load _).bind fun manifest => ?_
  split <;> exact .pure _

theorem isTraced_features (library : Library) (wanted : Text) :
    IsTraced (features library wanted) :=
  (isTraced_template _ _).bind fun _ => isTraced_featuresIn _ _

theorem isTraced_featuresFor (library : Library) (project : FilePath) :
    IsTraced (featuresFor library project) :=
  (IsTraced.work (Project.works_source _)).bind fun _ => isTraced_features _ _

theorem isTraced_apply (library : Library) (project : FilePath) (name : Text) (vars : Variables) :
    IsTraced (apply library project name vars) := by
  refine (IsTraced.work (works_resolve _)).bind fun place => ?_
  refine (IsTraced.work (Project.works_source _)).bind fun source => ?_
  refine (isTraced_template _ _).bind fun template => ?_
  refine (isTraced_featuresIn _ _).bind fun features => ?_
  split
  · exact .throw _
  refine (IsTraced.work (works_printDetail _)).bind fun _ => ?_
  refine (IsTraced.lift _).bind fun request => ?_
  refine (Scaffold.isTraced_perform _ _).bind fun outcome => .work ?_
  unfold instructed
  split
  · split
    · exact discipline_works.bind (works_renderIfTemplate _ _) fun _ =>
        discipline_works.pure _
    · exact discipline_works.pure _
  · exact discipline_works.pure _

end Catalogue

/-! ## Courses of steps -/

namespace Manifests

/-- What can be asked of libraries that share a memory, and what can happen in between. -/
inductive Step where
  | load (template : FilePath)
  | list (library : Library)
  | describe (library : Library) (name : Text) (vars : Option Variables)
  | check (suffix : Text) (template : FilePath) (sectionName : Text) (name : Option Text)
  | perform (library : Library) (operation : Scaffold.Operation)
  | make (library : Library) (name : Text) (vars : Variables)
  | findTemplate (library : Library) (wanted : Text)
  | features (library : Library) (wanted : Text)
  | featuresFor (library : Library) (project : FilePath)
  | apply (library : Library) (project : FilePath) (name : Text) (vars : Variables)
  /-- Files, or anything else but the memory, are changed at will. -/
  | edit (change : Session → Session)
  | clear

def Step.action : Step → Action Unit
  | .load template => do let _ ← Manifests.load template
  | .list library => do let _ ← Catalogue.boilerplates library
  | .describe library name vars => do let _ ← Catalogue.boilerplate? library name vars
  | .check suffix template sectionName name => do
      let _ ← preflight suffix template sectionName name
  | .perform library operation => do let _ ← operation.perform library
  | .make library name vars => do let _ ← Catalogue.make library name vars
  | .findTemplate library wanted => do let _ ← Catalogue.template? library wanted
  | .features library wanted => do let _ ← Catalogue.features library wanted
  | .featuresFor library project => do let _ ← Catalogue.featuresFor library project
  | .apply library project name vars => do let _ ← Catalogue.apply library project name vars
  | .edit change => modify fun s => { change s with manifests := s.manifests }
  | .clear => forgetAll

theorem sameMemory_edit (change : Session → Session) :
    (Step.edit change).action.Follows SameMemory := by
  intro s r s' h
  obtain ⟨-, rfl⟩ := ends_modify.1 h
  rfl

/-- Steps one after the other, whether they fail or not. -/
def course : List Step → Action Unit
  | [] => return
  | step :: steps => do
      let _ ← attempt step.action
      course steps

theorem isTraced_action (step : Step) : IsTraced step.action := by
  have hdone {α : Type} {action : Action α} (h : IsTraced action) :
      IsTraced (do let _ ← action : Action Unit) := h.bind fun _ => .pure ()
  cases step with
  | load template => exact hdone (.load template)
  | list library => exact hdone (Catalogue.isTraced_boilerplates library)
  | describe library name vars => exact hdone (Catalogue.isTraced_boilerplate? library name vars)
  | check suffix template sectionName name =>
      exact hdone (Scaffold.isTraced_preflight suffix template sectionName name)
  | perform library operation => exact hdone (Scaffold.isTraced_perform library operation)
  | make library name vars => exact hdone (Catalogue.isTraced_make library name vars)
  | findTemplate library wanted => exact hdone (Catalogue.isTraced_template? library wanted)
  | features library wanted => exact hdone (Catalogue.isTraced_features library wanted)
  | featuresFor library project => exact hdone (Catalogue.isTraced_featuresFor library project)
  | apply library project name vars =>
      exact hdone (Catalogue.isTraced_apply library project name vars)
  | edit change => exact fun _ _ _ h => ⟨[], .work (sameMemory_edit change) h⟩
  | clear =>
      intro s r s' h
      obtain ⟨rfl, rfl⟩ := ends_modify.1 h
      exact ⟨_, .clear s⟩

theorem isTraced_course (steps : List Step) : IsTraced (course steps) := by
  induction steps with
  | nil => exact .pure ()
  | cons step steps ih => exact (isTraced_action step).attempt.bind fun _ => ih

theorem ends_course {steps : List Step} {s s' : Session} {r : Except Failure Unit}
    (h : (course steps).Ends s r s') : r = .ok () := by
  induction steps generalizing s with
  | nil => exact (ends_pure.1 h).1
  | cons step steps ih =>
      obtain ⟨_, m, -, hrest⟩ := ends_attempt_bind.1 h
      exact ih hrest

def Load.run (template : FilePath) (before : Session) : Load :=
  ⟨template, before, (Manifests.load template).result before,
    (Manifests.load template).after before⟩

theorem Runs.pure {α : Type} (a : α) {s : Session} :
    Runs (Pure.pure a : Action α) s [] (.ok a) s :=
  .work ((discipline_works.pure a).mono fun _ _ => Works.manifests) (ends_pure.2 ⟨rfl, rfl⟩)

theorem Load.runs_run {template : FilePath} {before : Session} {manifest : Manifest}
    (h : (Load.run template before).Returns manifest) :
    Runs (Action.attempt (Step.load template).action) before [.loaded (.run template before)]
      (.ok (.ok ())) (Load.run template before).after := by
  have hresult : (Manifests.load template).result before = .ok (some manifest) := h
  have hload := Ends.run (Manifests.load template) before
  have hrest : Runs (pure () : Action Unit) (Load.run template before).after [] (.ok ())
      (Load.run template before).after := .pure ()
  rw [hresult] at hload
  rw [Load.run, hresult] at hrest ⊢
  exact .attempt (.bind (.load hload) hrest)

theorem Load.exists_returns {load : Load} (h : (load.result.toOption.bind id).isSome = true) :
    ∃ manifest, load.Returns manifest := by
  obtain ⟨template, before, result, after⟩ := load
  rcases result with failure | found | manifest
  · cases h
  · cases h
  · exact ⟨manifest, rfl⟩

namespace Sample

/-- A template, and a link that leads to it. -/
def linked : Session := Scaffold.Sample.session ["f"] [(["l"], .link "/t/w")]

/-- The file of the template holds no manifest any more. -/
def spoil (s : Session) : Session :=
  { s with tree := s.tree.put ["t", "w", "scaffold.yaml"] (Scaffold.Sample.file "no") }

def first : Load := .run (.ofText "/t/w") linked

def last : Load := .run (.ofText "/l") (spoil first.after)

end Sample

theorem Runs.edit (s : Session) (change : Session → Session)
    (hchange : ∀ s, (change s).manifests = s.manifests) :
    Runs (Action.attempt (Step.edit change).action) s [] (.ok (.ok ())) (change s) :=
  .attempt (.work (sameMemory_edit change) (ends_modify.2 ⟨rfl, by rw [← hchange]⟩))

theorem Runs.step {step : Step} {steps : List Step} {s m s' : Session} {events more : List Event}
    {r : Except Failure Unit} (h : Runs (Action.attempt step.action) s events (.ok (.ok ())) m)
    (hrest : Runs (course steps) m more r s') :
    Runs (course (step :: steps)) s (events ++ more) r s' :=
  .bind h hrest

theorem Load.resolvesTo {load : Load} {place : Location}
    (h : (load.before.tree.resolved load.before.here load.template.text).toOption = some place) :
    load.ResolvesTo place := by
  unfold ResolvesTo
  cases hresolved : load.before.tree.resolved load.before.here load.template.text with
  | error failure =>
      rw [hresolved] at h
      cases h
  | ok other =>
      rw [hresolved] at h
      cases h
      rfl

end Manifests

end Stencil
