import Stencil.Proofs.Library.Work

/-!
# What the console tells of targets

The target of a directive is rendered without variables when the entry is
checked, and with all of them when the directive is applied.  Each time the
console tells if the target could not be rendered.
-/

namespace Stencil

open Session Action

/-- Nothing is shown. -/
def Session.Silent (s s' : Session) : Prop := s'.shown = s.shown

variable {α : Type} {s m s' : Session} {suffix : Text} {template : FilePath} {vars : Variables}

theorem Session.Peeks.silent (h : s.Peeks s') : s.Silent s' := h.shown

theorem Session.Silent.of_eq (h : s = s') : s.Silent s' := h ▸ rfl

namespace Action

theorem discipline_silent : Discipline Silent where
  refl _ := rfl
  trans h h' := Eq.trans h' h

theorem silent_of_peeks {action : Action α} (h : action.Follows Peeks) : action.Follows Silent :=
  h.mono fun _ _ => Peeks.silent

/-- The lines that an action shows. -/
def linesOf (action : Action α) (s : Session) : List Text :=
  (action.after s).shown.drop s.shown.length

theorem shown_eq_of_works {action : Action α} (hworks : action.Follows Works)
    {r : Except Failure α} (h : action.Ends s r s') : s'.shown = s.shown ++ action.linesOf s := by
  obtain ⟨more, hmore⟩ := (hworks _ _ _ h).shown
  rw [linesOf, h.after_eq, ← hmore, List.drop_left]

/-! ## Warnings -/

/-- The lines of a warning. -/
def warningLines (message : Text) : List Text :=
  match Markup.render (styled "bold yellow" message) with
  | .ok text => Lines.ofText text
  | .error _ => []

theorem shown_printWarning {message : Text} {r : Except Failure Unit}
    (h : (printWarning message).Ends s r s') : s'.shown = s.shown ++ warningLines message := by
  obtain ⟨-, text, htext, rfl⟩ := (ends_printMarkup_styled (by decide) message).1 h
  rw [warningLines, htext]

end Action

/-- The lines that tell of a target that could not be rendered; there are none if it could. -/
def Directive.unrenderedLines (directive : Directive) (vars : Variables) : List Text :=
  ((directive.place vars).warning?.map warningLines).getD []

namespace Action

theorem shown_renderTarget {directive : Directive} {r : Except Failure (Text × List Text)}
    (h : (renderTarget directive vars).Ends s r s') :
    s'.shown = s.shown ++ directive.unrenderedLines vars := by
  have hrender : ∀ {r}, (render directive.target vars).Ends s r s' →
      s'.shown = s.shown ++ directive.unrenderedLines vars := by
    intro r hend
    rw [render] at hend
    dsimp only at hend
    rw [Directive.unrenderedLines, Directive.place]
    split at hend
    · rename_i warning hwarning
      rw [hwarning]
      obtain ⟨_, hprint, -⟩ := ends_bind_pure.1 hend
      exact shown_printWarning hprint
    · rename_i hwarning
      rw [hwarning]
      obtain ⟨-, rfl⟩ := ends_pure.1 hend
      simp
  obtain ⟨_, hend, -⟩ := ends_bind_pure.1 h
  exact hrender hend

/-! ## Checks -/

theorem silent_hasSource (suffix : Text) (template : FilePath) (source : Text) :
    (Manifests.hasSource suffix template source).Follows Silent := by
  refine discipline_silent.bind (silent_of_peeks (peeks_exists? _)) fun found => ?_
  split
  · exact discipline_silent.pure _
  · exact silent_of_peeks (peeks_exists? _)

theorem shown_isMissing {raw : Text} {r : Except Failure Bool}
    (h : (Manifests.isMissing suffix template raw).Ends s r s') :
    s'.shown = s.shown ++ (Directive.parse raw).unrenderedLines [] := by
  rcases ends_bind.1 h with ⟨_, m, hrender, hnext⟩ | ⟨failure, hrender, -⟩
  case inr => exact shown_renderTarget hrender
  have hsilent : m.Silent s' :=
    discipline_silent.bind (silent_hasSource _ _ _) (fun _ => discipline_silent.pure _) _ _ _ hnext
  rw [hsilent, shown_renderTarget hrender]

theorem shown_filterM {test : α → Action Bool} {lines : α → List Text} {items kept : List α}
    (htest : ∀ item s r s', (test item).Ends s r s' → s'.shown = s.shown ++ lines item)
    (h : (items.filterM test).Ends s (.ok kept) s') :
    s'.shown = s.shown ++ items.flatMap lines := by
  have hall : ∀ {start found t}, (items.filterAuxM test start).Ends t (.ok found) s' →
      s'.shown = t.shown ++ items.flatMap lines := by
    clear h
    induction items with
    | nil =>
        intro start found t hend
        obtain ⟨-, rfl⟩ := ends_pure.1 hend
        simp
    | cons item items ih =>
        intro start found t hend
        obtain ⟨_, m, hfirst, hrest⟩ := ends_bind_ok.1 hend
        rw [ih hrest, htest item _ _ _ hfirst, List.flatMap_cons, List.append_assoc]
  obtain ⟨found, t, hend, hpure⟩ := ends_bind_ok.1 h
  obtain ⟨-, rfl⟩ := ends_pure.1 hpure
  exact hall hend

theorem silent_load (template : FilePath) : (Manifests.load template).Follows Silent := by
  refine discipline_silent.bind (fun _ _ _ h => .of_eq (ends_resolve.1 h).2.symm) fun place => ?_
  refine discipline_silent.bind discipline_silent.get fun s => ?_
  split
  · exact discipline_silent.pure _
  refine discipline_silent.bind (silent_of_peeks (peeks_exists? _)) fun found => ?_
  split
  case isFalse => exact discipline_silent.pure _
  refine discipline_silent.bind ?_ fun manifest => discipline_silent.bind ?_ fun _ =>
    discipline_silent.pure _
  · refine discipline_silent.orElseIf ?_ fun _ => discipline_silent.throw _
    exact discipline_silent.bind (silent_of_peeks (peeks_readText _)) fun _ =>
      discipline_silent.bind (discipline_silent.lift _) fun _ => discipline_silent.lift _
  · intro s r s' h
    obtain ⟨-, rfl⟩ := ends_modify.1 h
    rfl

theorem silent_findEntry (template : FilePath) (kind : Scaffold.Kind) (name : Text) :
    (Scaffold.findEntry template kind name).Follows Silent := by
  refine discipline_silent.bind (silent_load _) fun found => ?_
  split
  · exact discipline_silent.pure _
  · split <;> exact discipline_silent.pure _

/-- A check that passes renders every target once, without variables. -/
theorem shown_preflight {sectionName : Text} {name : Option Text} {report : Preflight}
    (h : (Manifests.preflight suffix template sectionName name).Ends s (.ok report) s')
    (hvalid : report.isValid = true) :
    ∃ place manifest entries, s.tree.resolved s.here template.text = .ok place ∧
      s'.manifests.lookup place = some manifest ∧
      Manifests.selected manifest sectionName name = .ok entries ∧
      s'.shown = s.shown ++ (entries.flatMap (·.includes)).flatMap
        fun raw => (Directive.parse raw).unrenderedLines [] := by
  obtain ⟨m, t, manifest, entries, hexists, hload, hselected, hfilter⟩ :=
    ends_preflight_steps h hvalid
  obtain ⟨place, hresolved, hlookup⟩ := (ends_load hload).2 _ rfl
  have hlooks := (ends_storage_exists? hexists).1
  have hlooks' := discipline_looks.filterM (fun raw _ => follows_isMissing _ _ raw) _ _ _ hfilter
  rw [hlooks.tree, hlooks.here] at hresolved
  refine ⟨place, manifest, entries, hresolved, ?_, hselected, ?_⟩
  · rw [hlooks'.manifests]
    exact hlookup manifest rfl
  · have hsilent : s.Silent t := discipline_silent.trans
      (silent_of_peeks (peeks_exists? _) _ _ _ hexists) (silent_load _ _ _ _ hload)
    rw [shown_filterM (fun _ _ _ _ hend => shown_isMissing hend) hfilter, hsilent]

end Action

namespace Scaffold

variable {library : Library} {operation : Operation} {job : Generator.Job} {raw : Text}
  {includes : List Text}

/-! ## Preparations -/

theorem silent_targetFault? (target : FilePath) (operation : Operation) :
    (operation.targetFault? target).Follows Silent := by
  cases operation <;>
    · refine discipline_silent.bind (silent_of_peeks (peeks_exists? _)) fun found => ?_
      split <;> exact discipline_silent.pure _

/-- All that is shown of a preparation are the targets that do not render without variables. -/
theorem shown_prepare (h : (operation.prepare library).Ends s (.ok (.ok job)) s') :
    s'.shown = s.shown ++ job.entry.includes.flatMap
      fun raw => (Directive.parse raw).unrenderedLines [] := by
  obtain ⟨report, m, m', t, -, hpreflight, hvalid, hfault, hfind, rfl, -⟩ :=
    Operation.ends_prepare h
  obtain ⟨place, checked, entries, hresolved, hlookup, hselected, hshown⟩ :=
    shown_preflight hpreflight hvalid
  obtain ⟨place', manifest, hresolved', hlookup', hentries, hentry⟩ :=
    (Operation.checked_of_prepare h).manifest
  cases hresolved.symm.trans hresolved'
  have hlooks := Operation.follows_targetFault? _ _ _ _ _ hfault
  obtain rfl : checked = manifest := by
    have hkept := (follows_findEntry _ _ _ _ _ _ hfind).remembered place checked
      (by rwa [hlooks.manifests])
    exact Option.some.inj (hkept.symm.trans hlookup')
  have hentries' : entries = [job.entry] :=
    Except.ok.inj (hselected.symm.trans (selected_of_find? hentries hentry))
  have hsilent := discipline_silent.trans (silent_targetFault? _ _ _ _ _ hfault)
    (silent_findEntry _ _ _ _ _ _ hfind)
  rw [hsilent, hshown, hentries']
  simp

/-! ## Runs -/

/-- What is done for a directive once its target is rendered. -/
def finish (job : Generator.Job) (raw target : Text) (warnings : List Text) : Action Unit := do
  if (Directive.parse raw).conditions.hold job.vars then
    updateJournal fun journal => journal.warn warnings
    let isMade ← Placement.place job.library.suffix
      (job.template.child (Directive.parse raw).source) (job.target.child target) job.vars
    if !isMade then
      printWarning (preservedWarning target)
      updateJournal fun journal => journal.warn [preservedWarning target]
  else
    printDetail (("Skipping '" : Text) ++ raw ++ ("': conditions not met" : Text))

theorem applyDirective_eq (job : Generator.Job) (raw : Text) :
    applyDirective job raw = renderTarget (Directive.parse raw) job.vars >>= fun rendered =>
      finish job raw rendered.1 rendered.2 :=
  rfl

theorem works_finish (job : Generator.Job) (raw target : Text) (warnings : List Text) :
    (finish job raw target warnings).Follows Works := by
  unfold finish
  split
  · refine discipline_works.bind (works_updateJournal _) fun _ => ?_
    refine discipline_works.bind (Placement.works_place _ _ _ _) fun made => ?_
    split
    · exact discipline_works.bind (works_printWarning _) fun _ => works_updateJournal _
    · exact discipline_works.pure _
  · exact works_printDetail _

namespace Visit

/-- The lines that tell of the target of a directive when it is applied. -/
def targetLines (v : Visit) : List Text := v.directive.unrenderedLines v.job.vars

/-- What is shown of a directive after its target was rendered. -/
def furtherLines (v : Visit) : List Text :=
  (finish v.job v.raw (nameOf v.job v.raw) v.warnings).linesOf
    ((renderTarget v.directive v.job.vars).after v.before)

end Visit

theorem shown_applyDirective {v : Visit} {r : Except Failure Unit}
    (h : (applyDirective v.job v.raw).Ends v.before r s') :
    s'.shown = v.before.shown ++ (v.targetLines ++ v.furtherLines) := by
  rw [applyDirective_eq] at h
  rcases ends_bind.1 h with ⟨_, m, hrender, hnext⟩ | ⟨failure, hrender, -⟩
  case inr => cases (ends_renderTarget hrender).2
  cases (ends_renderTarget hrender).2
  have hrest := shown_eq_of_works (works_finish _ _ _ _) hnext
  have hafter : (renderTarget v.directive v.job.vars).after v.before = m := hrender.after_eq
  rw [hrest, shown_renderTarget hrender, Visit.furtherLines, hafter, List.append_assoc]
  rfl

theorem raw_visitsFrom (job : Generator.Job) (includes : List Text) (s : Session) :
    (visitsFrom job includes s).map (·.raw) = includes := by
  induction includes generalizing s with
  | nil => rfl
  | cons raw includes ih => rw [visitsFrom, List.map_cons, ih]

/-- A run shows what it shows of its directives, one after the other, up to the one that fails. -/
theorem shown_applyAll {r : Except Failure Unit}
    (h : (includes.forM (applyDirective job)).Ends s r s') :
    ∃ count, (r = .ok () → count = includes.length) ∧
      s'.shown = s.shown ++ ((visitsFrom job includes s).take count).flatMap
        fun v => v.targetLines ++ v.furtherLines := by
  induction includes generalizing s with
  | nil =>
      obtain ⟨-, rfl⟩ := ends_pure.1 h
      exact ⟨0, fun _ => rfl, by simp⟩
  | cons raw includes ih =>
      rcases ends_bind.1 h with ⟨_, m, hfirst, hrest⟩ | ⟨failure, hfirst, rfl⟩
      · obtain ⟨count, hcount, hshown⟩ := ih hrest
        refine ⟨count + 1, fun hr => by rw [hcount hr, List.length_cons], ?_⟩
        have hafter : Visit.after ⟨job, raw, s⟩ = m := hfirst.after_eq
        rw [hshown, @shown_applyDirective m ⟨job, raw, s⟩ _ hfirst, visitsFrom, hafter,
          List.take_succ_cons, List.flatMap_cons]
        simp
      · refine ⟨1, by simp, ?_⟩
        rw [@shown_applyDirective s' ⟨job, raw, s⟩ _ hfirst, visitsFrom]
        simp

/-! ## Operations -/

theorem silent_ensureDirectory (path : Text) : (Storage.ensureDirectory path).Follows Silent := by
  refine discipline_silent.guarded_of (fun _ _ => Peeks.silent)
    (discipline_silent.ensureNames fun front _ s r s' h => ?_)
  rcases ends_makeDirectory h with ⟨_, -, -, rfl⟩ | ⟨_, _, -, -, -, rfl⟩ | ⟨_, -, -, -, rfl⟩ <;> rfl

theorem shown_applyDirectives {kind : Kind} {r : Except Failure Outcome}
    (h : (applyDirectives kind job).Ends s r s') :
    ∃ count, ((∃ outcome, r = .ok outcome) → count = job.entry.includes.length) ∧
      s'.shown = s.shown ++ ((visitsFrom job job.entry.includes
        { (Storage.ensureDirectory job.target.text).after s with journal := .empty }).take
          count).flatMap fun v => v.targetLines ++ v.furtherLines := by
  rcases ends_bind.1 h with ⟨_, start, hensure, hrun⟩ | ⟨failure, hensure, rfl⟩
  case inr =>
    refine ⟨0, by simp, ?_⟩
    rw [silent_ensureDirectory _ _ _ _ hensure]
    simp
  have hall : ∃ result t, (job.entry.includes.forM (applyDirective job)).Ends
      { start with journal := .empty } result t ∧ s'.shown = t.shown ∧
        ((∃ outcome, r = .ok outcome) → result = .ok ()) := by
    rcases ends_bind.1 hrun with ⟨told, u, hjournaled, hpure⟩ | ⟨failure, hjournaled, rfl⟩
    · obtain ⟨result, t, hall, rfl, hresult⟩ := ends_journaled hjournaled
      obtain ⟨-, rfl⟩ := ends_pure.1 hpure
      refine ⟨result, t, hall, rfl, fun _ => ?_⟩
      cases result with
      | error failure => cases hresult
      | ok done => rfl
    · obtain ⟨result, t, hall, rfl, -⟩ := ends_journaled hjournaled
      exact ⟨result, t, hall, rfl, by simp⟩
  obtain ⟨result, t, hend, hshown, hdone⟩ := hall
  obtain ⟨count, hcount, hlines⟩ := shown_applyAll hend
  refine ⟨count, fun hok => hcount (hdone hok), ?_⟩
  have hsilent : start.shown = s.shown := silent_ensureDirectory _ _ _ _ hensure
  rw [hshown, hlines, hensure.after_eq, ← hsilent]

/-- A prepared operation has rendered the target of every directive without variables, and its run
renders each of them once more, with all variables, as it comes to them.  Every time the console
tells of the targets that cannot be rendered. -/
theorem targets_rendered_twice (library : Library) (operation : Operation) (s : Session)
    {job : Generator.Job} {m : Session} (hprepare : (operation.prepare library).Ends s (.ok (.ok job)) m)
    (hdirect : operation.usesGenerator library s = false) :
    m.shown = s.shown ++ job.entry.includes.flatMap
        (fun raw => (Directive.parse raw).unrenderedLines []) ∧
      (operation.visits library s).map (·.raw) = job.entry.includes ∧
      ∃ count, (operation.succeeds library s = true → count = job.entry.includes.length) ∧
        ((operation.perform library).after s).shown =
          m.shown ++ ((operation.visits library s).take count).flatMap fun v =>
            v.directive.unrenderedLines (operation.vars job.target) ++ v.furtherLines := by
  have hvisits : operation.visits library s = visitsFrom job job.entry.includes
      { (Storage.ensureDirectory job.target.text).after m with journal := .empty } := by
    rw [Operation.visits, hprepare.result_eq, hprepare.after_eq]
  have hvars : ∀ v ∈ operation.visits library s, v.targetLines =
      v.directive.unrenderedLines (operation.vars job.target) := by
    intro v hv
    obtain ⟨-, -, -, -, -, -, -, -, -, -, hjob⟩ := Operation.ends_prepare hprepare
    rw [Visit.targetLines, (mem_visitsFrom (hvisits ▸ hv)).1]
    exact congrArg (fun job : Generator.Job => v.directive.unrenderedLines job.vars) hjob
  refine ⟨shown_prepare hprepare, by rw [hvisits, raw_visitsFrom], ?_⟩
  have hend := Ends.run (operation.perform library) s
  obtain ⟨found, u, happly, hlast⟩ := ends_attempt_bind.1 hend
  have hrun := hprepare.bind_iff.1 happly
  simp only [applyEntry_of_direct hdirect hprepare] at hrun
  obtain ⟨count, hcount, hshown⟩ := shown_applyDirectives hrun
  have hlines : u.shown = m.shown ++ ((operation.visits library s).take count).flatMap fun v =>
      v.directive.unrenderedLines (operation.vars job.target) ++ v.furtherLines := by
    rw [hshown, ← hvisits]
    refine congrArg (m.shown ++ ·) (List.flatMap_congr fun v hv => ?_)
    rw [hvars v (List.mem_of_mem_take hv)]
  refine ⟨count, fun hsuccess => hcount ?_, ?_⟩
  · cases found with
    | ok outcome => exact ⟨outcome, rfl⟩
    | error failure =>
        obtain ⟨houtcome, -⟩ := ends_pure.1 hlast
        rw [houtcome] at hend
        rw [Operation.succeeds, Operation.outcome?_eq hend] at hsuccess
        cases hsuccess
  · cases found <;>
      · rw [← hlines, (ends_pure.1 hlast).2]

/-- An entry with a target that renders only if its variable is given. -/
def Sample.shouting : Session :=
  Sample.session ["f->\x7b\x7b name.upper() \x7d\x7d"] [(["t", "w", "f"], Sample.file "hi")]

theorem targets_rendered_twice_shouting :
    ∃ job m, ((Operation.feature (Sample.feature "/p")).prepare Sample.library).Ends Sample.shouting
        (.ok (.ok job)) m ∧
      (Operation.feature (Sample.feature "/p")).usesGenerator Sample.library Sample.shouting =
        false ∧
      m.shown = job.entry.includes.flatMap
        fun raw => (Directive.parse raw).unrenderedLines [] := by
  have hprepared : (((Operation.feature (Sample.feature "/p")).prepare Sample.library).result
      Sample.shouting).toOption.any (fun found => found.toOption.isSome) = true := by
    decide +kernel
  obtain ⟨found, m, hend, hfound⟩ := exists_ends_of_result hprepared
  cases found with
  | error message => cases hfound
  | ok job =>
      have hdirect : (Operation.feature (Sample.feature "/p")).usesGenerator Sample.library
          Sample.shouting = false := by decide +kernel
      exact ⟨job, m, hend, hdirect, (targets_rendered_twice _ _ _ hend hdirect).1⟩

/-- The target renders with the variables of the operation, and the console still tells that it
could not be rendered. -/
theorem rendered_target_is_told_of :
    let operation := Operation.feature (Sample.feature "/p")
    let directive := Directive.parse "f->\x7b\x7b name.upper() \x7d\x7d"
    operation.succeeds Sample.library Sample.shouting = true ∧
      (directive.place (operation.vars (.ofText "/p"))).warning? = none ∧
      ((operation.perform Sample.library).after Sample.shouting).shown =
        ["Template rendering error: 'name' is undefined"] := by
  decide +kernel

end Scaffold

end Stencil
