import Stencil.Proofs.CommandLine.Escaping

/-!
# How command lines end

Searching a library ends with little but paths that lead nowhere, and an
operation ends with an outcome whatever happens.  So a command line ends with a
code, or with one of a few kinds of failures: which ones, depends on its command.
-/

namespace Stencil

open FileTree Session Action

/-! ## Searching a library -/

namespace Manifests

theorem onlyFails_readFrom (path : Text) :
    (readFrom path).OnlyFails fun failure => failure.isOfScalar ∨ failure.isOfManifest := by
  have htext : (Storage.readText path).OnlyFails fun failure =>
      (failure.isOfSystem || failure.isOfValue) ∨ (∃ fault, failure = .yaml fault) ∨
        failure.isOfManifest := by
    refine .guarded ((onlyFails_readText _).mono ?_)
    rintro failure (haccess | hcode)
    · exact .inl (Failure.isOfSystem_or_isOfValue_of_isOfAccess haccess)
    · cases failure <;> first | exact .inl rfl | cases hcode
  refine .orElseIf (.bind htext fun text => .bind (.liftMap fun fault => .inr (.inl ⟨fault, rfl⟩))
    fun value => .liftMap fun fault => .inr (.inr ?_)) (fun _ _ => .throw (.inr rfl)) ?_
  · cases fault <;> rfl
  · intro failure hfailure huncaught
    obtain ⟨hread, hdocument⟩ := Bool.or_eq_false_iff.1 huncaught
    rcases hfailure with hcaught | ⟨fault, rfl⟩ | hmanifest
    · rw [hread] at hcaught
      cases hcaught
    · refine .inl ?_
      have hvalue : fault.isOfValue = false := hread
      have hdoc : fault.isOfDocument = false := hdocument
      simp [Failure.isOfScalar, hvalue, hdoc]
    · exact .inr hmanifest

theorem onlyFails_load (template : FilePath) :
    (load template).OnlyFails fun failure => failure.isOfSearch ∨ failure.isOfManifest := by
  refine .bind ((onlyFails_resolve _).mono fun failure h => ?_) fun place => .bind .get fun s => ?_
  · exact .inl (Bool.or_eq_true_iff.2 (.inl h))
  split
  · exact .pure _
  refine .bind (onlyFails_exists? _) fun found => ?_
  split
  case isFalse => exact .pure _
  refine .bind ((onlyFails_readFrom _).mono ?_) fun manifest => ?_
  · rintro failure (hscalar | hmanifest)
    · exact .inl (Bool.or_eq_true_iff.2 (.inr hscalar))
    · exact .inr hmanifest
  · exact .bind (.modify fun _ => ⟨rfl, rfl, id⟩) fun _ => .pure _

theorem onlyFails_loadListed (template : FilePath) (name : Text) :
    (loadListed template name).OnlyFails (·.isOfSearch) := by
  refine .orElseIf (onlyFails_load template) (fun failure _ => ?_) ?_
  · exact .bind (onlyFails_printWarning _) fun _ => .pure _
  · rintro failure (hsearch | hmanifest) huncaught
    · exact hsearch
    · rw [huncaught] at hmanifest
      cases hmanifest

end Manifests

namespace Templates

theorem onlyFails_listedBelow {descend : FilePath → List Text → Action (List Text)}
    (hdescend : ∀ directory path, (descend directory path).OnlyFails (·.isOfAccess))
    (directory : FilePath) (path : List Text) :
    (listedBelow descend directory path).OnlyFails (·.isOfAccess) := by
  refine .attempt_bind (.bind (onlyFails_namesIn _) fun names => .filterM names fun name =>
    onlyFails_passes _ _) (fun names => ?_) fun failure hfailure => ?_
  · refine .bind (.mapM fun name _ => .bind (onlyFails_passes _ _) fun found => ?_) fun _ => .pure _
    split
    · exact .pure _
    · exact hdescend _ _
  · dsimp only
    split
    · exact .bind (onlyFails_printWarning _) fun _ => .pure _
    · exact .throw hfailure

theorem onlyFails_listed (root : FilePath) : (listed root).OnlyFails (·.isOfAccess) := by
  have hbelow : ∀ depth directory path,
      (below depth directory path).OnlyFails (·.isOfAccess) := by
    intro depth
    induction depth with
    | zero => exact onlyFails_listedBelow fun _ _ => .pure _
    | succ depth ih => exact onlyFails_listedBelow ih
  refine .bind (onlyFails_passes _ _) fun found => ?_
  split
  · exact hbelow _ _ _
  · exact .pure _

end Templates

theorem Failure.isOfSearch_of_isOfAccess {failure : Failure} (h : failure.isOfAccess = true) :
    failure.isOfSearch = true :=
  Bool.or_eq_true_iff.2 (.inl (isOfPath_of_isOfAccess h))

namespace Catalogue

theorem onlyFails_boilerplates (library : Library) :
    (boilerplates library).OnlyFails (·.isOfSearch) := by
  have hentry : ∀ template entry, (listedEntry template entry).OnlyFails (·.isOfSearch) := by
    intro template entry
    unfold listedEntry
    split
    · exact .pure _
    · exact .bind (onlyFails_printWarning _) fun _ => .pure _
  refine .bind ((Templates.onlyFails_listed _).mono fun _ => Failure.isOfSearch_of_isOfAccess) ?_
  refine fun templates => .bind (.mapM fun template _ => ?_) fun _ => .pure _
  refine .bind (Manifests.onlyFails_loadListed _ _) fun found => ?_
  split
  · exact .filterMapM _ (hentry template)
  · exact .pure _

theorem onlyFails_template (library : Library) (wanted : Text) :
    (template library wanted).OnlyFails fun failure => failure.isOfSearch ∨ CommandLine.isTold failure := by
  have hfirst : ∀ templates, (firstWithBoilerplate library wanted templates).OnlyFails
      fun failure => failure.isOfSearch ∨ CommandLine.isTold failure := by
    intro templates
    induction templates with
    | nil => exact .pure _
    | cons template templates ih =>
        refine .bind ((Manifests.onlyFails_loadListed _ _).mono fun _ => .inl) fun found => ?_
        cases found <;> dsimp only <;> split <;> first | exact .pure _ | exact ih
  refine .bind (.bind ((Templates.onlyFails_listed _).mono fun _ h => .inl
    (Failure.isOfSearch_of_isOfAccess h)) fun templates => ?_) fun found => ?_
  · split
    · exact .pure _
    · exact hfirst _
  · split
    · exact .pure _
    · exact .throw (.inr rfl)

theorem onlyFails_featuresIn (library : Library) (template : Text) :
    (featuresIn library template).OnlyFails fun failure =>
      failure.isOfSearch ∨ CommandLine.isTold failure := by
  refine .bind ((Manifests.onlyFails_load _).mono ?_) fun found => ?_
  · rintro failure (hsearch | hmanifest)
    · exact .inl hsearch
    · cases failure <;> first | exact .inr rfl | cases hmanifest
  · split <;> exact .pure _

theorem onlyFails_features (library : Library) (wanted : Text) :
    (features library wanted).OnlyFails fun failure =>
      failure.isOfSearch ∨ CommandLine.isTold failure :=
  .bind (onlyFails_template library wanted) fun _ => onlyFails_featuresIn library _

end Catalogue

/-! ## Projects -/

namespace Project

theorem onlyFails_sourceIn (file : Text) (value : Value) :
    (sourceIn file value).OnlyFails fun failure => failure.isInvalid "ProjectConfig" := by
  unfold sourceIn
  split
  · exact .pure _
  · split
    · exact .pure _
    · exact .throw (by simp [Failure.isInvalid])

theorem onlyFails_source (directory : FilePath) :
    (source directory).OnlyFails fun failure =>
      failure.isOfPath ∨ failure.isInvalid "ProjectConfig" ∨ CommandLine.isTold failure := by
  have hfile : ∀ path, (isFile path).OnlyFails fun failure =>
      failure.isOfPath ∨ failure.isInvalid "ProjectConfig" ∨ CommandLine.isTold failure := fun path =>
    (onlyFails_passes _ path).mono fun _ h => .inl (Failure.isOfPath_of_isOfAccess h)
  have hsourceIn : ∀ file value, (sourceIn file value).OnlyFails fun failure =>
      failure.isOfPath ∨ failure.isInvalid "ProjectConfig" ∨ CommandLine.isTold failure :=
    fun file value => (onlyFails_sourceIn file value).mono fun _ h => .inr (.inl h)
  refine .bind ((onlyFails_resolve _).mono fun _ => .inl) fun root => ?_
  refine .bind (.bind (hfile _) fun found => ?_) fun own => ?_
  · split
    case isFalse => exact .pure _
    refine .bind (.orElseIf (onlyFails_readJson _) (fun _ _ => .throw (.inr (.inr rfl))) ?_)
      fun entries => hsourceIn _ _
    intro failure hread huncaught
    rw [hread] at huncaught
    cases huncaught
  split
  · exact .pure _
  refine .bind (.bind (hfile _) fun found => ?_) fun shared => ?_
  · split
    case isFalse => exact .pure _
    refine .bind (.orElseIf (onlyFails_readYaml _) (fun _ _ => .throw (.inr (.inr rfl))) ?_)
      fun value => hsourceIn _ _
    intro failure _ huncaught
    cases huncaught
  · split
    · exact .pure _
    · exact .throw (.inr (.inr rfl))

/-- What keeps the template from being recorded is caught by those who record it. -/
theorem onlyFails_record (folder name template : Text) :
    (record folder name template).OnlyFails fun failure =>
      (failure.isOfSystem || failure.isOfValue) = true := by
  have haccess := fun failure => @Failure.isOfSystem_or_isOfValue_of_isOfAccess failure
  have hwrite : ∀ path value, (DataFiles.writeJson path value).OnlyFails fun failure =>
      (failure.isOfSystem || failure.isOfValue) = true :=
    fun _ _ => (onlyFails_writeFile _ _).mono haccess
  refine .bind ((onlyFails_passes _ _).mono haccess) fun found => ?_
  split
  · exact .bind (onlyFails_readJson _) fun _ => .bind (hwrite _ _) fun _ => .pure _
  · exact .bind (.pure _) fun _ => .bind (hwrite _ _) fun _ => .pure _

end Project

/-! ## Operations -/

/-- Whatever happens while a target is made is told by an outcome. -/
theorem Scaffold.Operation.onlyFails_perform (library : Library) (operation : Operation) :
    (operation.perform library).OnlyFails fun _ => False := by
  have happly : (operation.apply library).Follows Agrees := by
    refine discipline_agrees.bind ((follows_prepare library operation).mono fun _ _ => Reads.toAgrees) ?_
    intro prepared
    split
    · exact discipline_agrees.pure _
    · exact (works_applyEntry _ _).mono fun _ _ => Works.toAgrees
  refine .attempt_bind (.of_agrees happly fun _ failure _ _ _ => (trivial : True))
    (fun outcome => .pure _) fun failure _ => .pure _

namespace Catalogue

theorem onlyFails_recorded (boilerplate : Boilerplate) (folder : Text) (outcome : Outcome) :
    (recorded boilerplate folder outcome).OnlyFails fun _ => False := by
  refine .orElseIf (.bind (Project.onlyFails_record _ _ _) fun _ => .pure _) (fun failure _ => ?_) ?_
  · exact .bind (onlyFails_printWarning _) fun _ => .pure _
  · intro failure hfailure huncaught
    rw [hfailure] at huncaught
    cases huncaught

theorem onlyFails_make (library : Library) (name : Text) (vars : Variables) :
    (make library name vars).OnlyFails fun failure => failure.isOfSearch ∨ failure.isOfSchema ∨
      failure.isInvalid ProjectRequest.recordName := by
  refine .bind (.bind ((onlyFails_boilerplates library).mono fun _ => .inl) fun boilerplates => ?_)
    fun ordered => ?_
  · split
    · exact .pure _
    refine .bind (.liftMap fun _ => .inr (.inl rfl)) fun resolved => ?_
    split
    · exact .pure _
    split
    · exact .pure _
    · exact .bind (.liftMap fun _ => .inr (.inr (by simp [Failure.isInvalid]))) fun _ => .pure _
  · split
    · exact .pure _
    refine .bind ((Scaffold.Operation.onlyFails_perform library _).mono fun _ => False.elim) ?_
    intro outcome
    split
    · exact (onlyFails_recorded _ _ _).mono fun _ => False.elim
    · exact .pure _

/-- What looking for the features of a project can end with. -/
def EndsFinding (failure : Failure) : Prop :=
  failure.isOfSearch ∨ failure.isInvalid "ProjectConfig" ∨ CommandLine.isTold failure

theorem endsFinding_of_source {failure : Failure}
    (h : failure.isOfPath ∨ failure.isInvalid "ProjectConfig" ∨ CommandLine.isTold failure) :
    EndsFinding failure :=
  h.imp (fun hpath => Bool.or_eq_true_iff.2 (.inl hpath)) id

theorem endsFinding_of_search {failure : Failure}
    (h : failure.isOfSearch ∨ CommandLine.isTold failure) : EndsFinding failure :=
  h.imp id .inr

theorem onlyFails_featuresFor (library : Library) (project : FilePath) :
    (featuresFor library project).OnlyFails EndsFinding :=
  .bind ((Project.onlyFails_source project).mono fun _ => endsFinding_of_source) fun _ =>
    (onlyFails_features library _).mono fun _ => endsFinding_of_search

theorem onlyFails_instructed (entry : Entry) (vars : Variables) (outcome : Outcome) :
    (instructed entry vars outcome).OnlyFails fun _ => False := by
  have hrender : ∀ text, (renderIfTemplate text vars).OnlyFails fun _ => False := by
    intro text
    unfold renderIfTemplate
    split
    · refine .bind ?_ fun _ => .pure _
      unfold render
      dsimp only
      split
      · exact .bind (onlyFails_printWarning _) fun _ => .pure _
      · exact .pure _
    · exact .pure _
  unfold instructed
  split
  · split
    · exact .bind (hrender _) fun _ => .pure _
    · exact .pure _
  · exact .pure _

theorem onlyFails_apply (library : Library) (project : FilePath) (name : Text) (vars : Variables) :
    (apply library project name vars).OnlyFails fun failure =>
      EndsFinding failure ∨ failure.isInvalid FeatureRequest.recordName := by
  refine .bind ((onlyFails_resolve _).mono fun _ h => .inl (endsFinding_of_source (.inl h)))
    fun place => ?_
  refine .bind ((Project.onlyFails_source _).mono fun _ h => .inl (endsFinding_of_source h))
    fun source => ?_
  refine .bind ((onlyFails_template _ _).mono fun _ h => .inl (endsFinding_of_search h))
    fun template => ?_
  refine .bind ((onlyFails_featuresIn _ _).mono fun _ h => .inl (endsFinding_of_search h))
    fun features => ?_
  split
  · exact .throw (.inl (.inr (.inr rfl)))
  refine .bind (onlyFails_printDetail _) fun _ => ?_
  refine .bind (.liftMap fun _ => .inr (by simp [Failure.isInvalid])) fun request => ?_
  refine .bind ((Scaffold.Operation.onlyFails_perform library _).mono fun _ => False.elim) ?_
  exact fun outcome => (onlyFails_instructed _ _ _).mono fun _ => False.elim

end Catalogue

/-! ## Tables -/

namespace Action

theorem onlyFails_styled {style : Text} (hstyle : Markup.IsStyle style) (message : Text) :
    (printMarkup (styled style message)).OnlyFails fun _ => False :=
  .of_agrees (fun _ _ _ h => (follows_printMarkup _ _ _ _ h).toAgrees) fun _ _ _ _ h => by
    cases ((ends_printMarkup_styled hstyle message).1 h).1

/-- A table can be shown if its title and its cells can. -/
theorem onlyFails_printTable {test : Failure → Prop} (table : Table)
    (h : ∀ text, text = table.title ∨ text = [] ∨ (∃ row ∈ table.rows, text ∈ row) →
      ∀ fault, Markup.render text = .error fault → test (.markup fault)) :
    (printTable table).OnlyFails test := by
  have hrendered : ∀ text, (text = table.title ∨ text = [] ∨ ∃ row ∈ table.rows, text ∈ row) →
      (rendered text).OnlyFails test := by
    refine fun text htext => .lift fun failure hfailure => ?_
    cases hrender : Markup.render text with
    | ok shown => rw [hrender] at hfailure; cases hfailure
    | error fault =>
        rw [hrender] at hfailure
        cases hfailure
        exact h text htext fault hrender
  have hrows : (renderedRows table.header.length table.rows).OnlyFails test := by
    refine .bind (.mapM fun column _ => .mapM fun row hrow => hrendered _ (.inr ?_)) fun _ => .pure _
    rw [List.getD_eq_getElem?_getD]
    cases hcell : row[column]? with
    | none => exact .inl rfl
    | some cell => exact .inr ⟨row, hrow, List.mem_of_getElem? hcell⟩
  refine .bind hrows fun rows => .bind (hrendered _ (.inl rfl)) fun title => ?_
  exact .modify fun _ => ⟨rfl, rfl, id⟩

/-- The paths of files are escaped, so files can always be told of. -/
theorem onlyFails_printFileTable (created preserved : List Text) :
    (printFileTable filesTitle created preserved).OnlyFails fun _ => False := by
  have hshown : ∀ text, (∃ shown, Markup.render text = .ok shown) →
      ∀ fault, Markup.render text = .error fault → False := by
    rintro text ⟨shown, hok⟩ fault herror
    rw [hok] at herror
    cases herror
  refine .bind (onlyFails_printTable _ ?_) fun _ => .modify fun _ => ⟨rfl, rfl, id⟩
  rintro text (rfl | rfl | ⟨row, hrow, hcell⟩)
  · exact hshown _ ⟨_, by rfl⟩
  · exact hshown _ ⟨_, by rfl⟩
  · obtain ⟨status, hstatus, path, rfl⟩ : ∃ status : Text,
        (status = "created" ∨ status = "preserved") ∧
          ∃ path, row = [status, Markup.escape path] := by
      rcases List.mem_append.1 hrow with hrow | hrow
      · obtain ⟨path, -, rfl⟩ := List.mem_map.1 hrow
        exact ⟨_, .inl rfl, path, rfl⟩
      · obtain ⟨path, -, rfl⟩ := List.mem_map.1 hrow
        exact ⟨_, .inr rfl, path, rfl⟩
    rcases List.mem_pair.1 hcell with rfl | rfl
    · rcases hstatus with rfl | rfl
      · exact hshown _ ⟨_, by rfl⟩
      · exact hshown _ ⟨_, by rfl⟩
    · exact hshown _ (Markup.render_escape path)

end Action

/-! ## Commands -/

namespace CommandLine

theorem onlyFails_report (outcome : Outcome) : (report outcome).OnlyFails fun _ => False := by
  unfold report
  split
  · split
    · exact .bind (onlyFails_printFileTable _ _) fun _ =>
        .bind (onlyFails_styled (by decide) _) fun _ => .pure _
    · exact .bind (onlyFails_styled (by decide) _) fun _ => .pure _
  · exact .bind (onlyFails_styled (by decide) _) fun _ => .pure _

theorem onlyFails_showFeatures (features : List Entry) :
    (showFeatures features).OnlyFails fun failure => failure.isOfMarkup := by
  unfold showFeatures
  split
  · exact .bind (onlyFails_printWarning _) fun _ => .pure _
  · exact .bind (onlyFails_printTable _ fun _ _ _ _ => rfl) fun _ => .pure _

/-- What a command can end with that is told of nowhere.  A template or a project whose name is
not known is told of, and so is all that happens while files are made. -/
def Command.escapes : Command → Failure → Bool
  | .list, failure => failure.isOfSearch || failure.isOfMarkup
  | .create _ _, failure =>
      failure.isOfSearch || failure.isOfSchema || failure.isInvalid ProjectRequest.recordName
  | .extend _ _ _, failure =>
      failure.isOfSearch || failure.isInvalid "ProjectConfig" ||
        failure.isInvalid FeatureRequest.recordName
  | .featuresOf _, failure =>
      failure.isOfSearch || failure.isInvalid "ProjectConfig" || failure.isOfMarkup
  | .featuresIn _, failure => failure.isOfSearch || failure.isOfMarkup

theorem Command.onlyFails_run (library : Library) (command : Command) :
    (command.run library).OnlyFails fun failure => isTold failure ∨ command.escapes failure := by
  have hreport : ∀ outcome, (report outcome).OnlyFails fun failure =>
      isTold failure ∨ command.escapes failure :=
    fun outcome => (onlyFails_report outcome).mono fun _ => False.elim
  cases command with
  | list =>
      refine .bind ((Catalogue.onlyFails_boilerplates library).mono fun failure h => .inr ?_) ?_
      · simp [escapes, h]
      intro found
      split
      · exact .bind (onlyFails_printWarning _) fun _ => .pure _
      · exact .bind (onlyFails_printTable _ fun _ _ _ _ => .inr (by simp [escapes, Failure.isOfMarkup]))
          fun _ => .pure _
  | create name vars =>
      refine .bind ((Catalogue.onlyFails_make library name vars).mono fun failure h => .inr ?_) hreport
      simpa [escapes, or_assoc] using h
  | extend name project vars =>
      refine .bind ((Catalogue.onlyFails_apply library _ name vars).mono fun failure h => ?_) hreport
      rcases h with (hsearch | hproject | htold) | hrequest
      · exact .inr (by simp [escapes, hsearch])
      · exact .inr (by simp [escapes, hproject])
      · exact .inl htold
      · exact .inr (by simp [escapes, hrequest])
  | featuresOf project =>
      refine .bind ((Catalogue.onlyFails_featuresFor library _).mono fun failure h => ?_)
        fun features => (onlyFails_showFeatures features).mono fun failure h => .inr ?_
      · rcases h with hsearch | hproject | htold
        · exact .inr (by simp [escapes, hsearch])
        · exact .inr (by simp [escapes, hproject])
        · exact .inl htold
      · simp [escapes, h]
  | featuresIn template =>
      refine .bind ((Catalogue.onlyFails_features library _).mono fun failure h => ?_)
        fun features => (onlyFails_showFeatures features).mono fun failure h => .inr ?_
      · rcases h with hsearch | htold
        · exact .inr (by simp [escapes, hsearch])
        · exact .inl htold
      · simp [escapes, h]

/-- Looking for the templates comes before the command. -/
def Invocation.escapes (invocation : Invocation) (failure : Failure) : Bool :=
  failure.isOfPath || failure.isOfWorkspace || invocation.command.escapes failure

theorem onlyFails_templatesFor (given : Settings) (start : FilePath) :
    (Workspace.templatesFor given start).OnlyFails fun failure =>
      isTold failure ∨ failure.isOfPath ∨ failure.isOfWorkspace := by
  have hpasses : ∀ check path, (passes check path).OnlyFails fun failure =>
      isTold failure ∨ failure.isOfPath ∨ failure.isOfWorkspace := fun check path =>
    (onlyFails_passes check path).mono fun _ h => .inr (.inl (Failure.isOfPath_of_isOfAccess h))
  have hresolve : ∀ path, (resolve path).OnlyFails fun failure =>
      isTold failure ∨ failure.isOfPath ∨ failure.isOfWorkspace :=
    fun path => (onlyFails_resolve path).mono fun _ h => .inr (.inl h)
  have habove : ∀ names, (Workspace.rootAbove names).OnlyFails fun failure =>
      isTold failure ∨ failure.isOfPath ∨ failure.isOfWorkspace := by
    intro names
    induction names with
    | nil => exact .bind (hpasses _ _) fun _ => .pure _
    | cons name above ih =>
        refine .bind (hpasses _ _) fun found => ?_
        split
        · exact .pure _
        · exact ih
  have hsettings : ∀ root, (Workspace.settings root).OnlyFails fun failure =>
      isTold failure ∨ failure.isOfPath ∨ failure.isOfWorkspace := by
    refine fun root => .bind (hpasses _ _) fun found => ?_
    split
    · refine .bind ((onlyFails_readYaml _).mono fun _ => .inr) fun value => ?_
      split <;> exact .pure _
    · exact .pure _
  unfold Workspace.templatesFor
  split
  · refine .bind (hresolve _) fun place => .bind (hpasses _ _) fun found => ?_
    split
    · exact .pure _
    · exact .throw (.inl rfl)
  · refine .bind (.bind (hresolve _) fun names => habove _) fun root =>
      .bind (hsettings _) fun settings => ?_
    split
    · unfold Workspace.configured
      split
      · refine .bind (hpasses _ _) fun found => ?_
        split
        · exact .pure _
        · exact .throw (.inl rfl)
      · exact .throw (.inr (.inr rfl))
    · refine .bind (hpasses _ _) fun found => ?_
      split
      · exact .pure _
      · exact .throw (.inl rfl)

theorem Invocation.onlyFails_run (invocation : Invocation) (environment : List (Text × Text)) :
    (invocation.run environment).OnlyFails fun failure => invocation.escapes failure := by
  have htemplates : (Workspace.templatesFor (invocation.settings environment) (.ofText [])).OnlyFails
      fun failure => isTold failure ∨ invocation.escapes failure :=
    (onlyFails_templatesFor _ _).mono fun failure h => h.imp_right fun hfound => by
      rcases hfound with hpath | hworkspace
      · simp [escapes, hpath]
      · simp [escapes, hworkspace]
  have hcommand : ∀ library, (invocation.command.run library).OnlyFails
      fun failure => isTold failure ∨ invocation.escapes failure := fun library =>
    (invocation.command.onlyFails_run library).mono fun failure h => h.imp_right fun hescapes => by
      simp [escapes, hescapes]
  refine .bind (.modify fun _ => ⟨rfl, rfl, id⟩) fun _ =>
    .orElseIf (htemplates.bind fun root => hcommand _) (fun failure _ => ?_) ?_
  · exact .bind ((onlyFails_styled (by decide) _).mono fun _ => False.elim) fun _ => .pure _
  · rintro failure (htold | hescapes) huntold
    · rw [huntold] at htold
      cases htold
    · exact hescapes

/-! ## Endings -/

/-- An action that is run apart ends as it does where nothing is planned. -/
theorem ends_apart {α : Type} {action : Action α} {s s' : Session} {r : Except Failure α}
    (h : (apart action).Ends s r s') :
    ∃ m t, m.IsCalm ∧ action.Ends m r t := by
  rw [apart, ends_get_bind, ends_modify_bind, ends_attempt_bind] at h
  obtain ⟨found, t, haction, hnext⟩ := h
  rw [ends_modify_bind, ends_lift] at hnext
  exact ⟨_, t, ⟨rfl, rfl⟩, hnext.1 ▸ haction⟩

/-- What a command line is answered with: a refusal by its fault, and all others by a code. -/
def Ending.Answers (ending : Ending) (arguments : List Text) : Prop :=
  match Invocation.read arguments with
  | .error (.help _) => ending = ⟨0, none⟩
  | .error (.usage program fault) =>
      ending = ⟨2, some (program ++ (": error: " : Text) ++ fault.message)⟩
  | .error (.value _) => False
  | .ok _ => ending.code ≤ 1 ∧ ending.complaint = none

/-- What a command line can end with instead of a code. -/
def Escapes (arguments : List Text) (failure : Failure) : Prop :=
  match Invocation.read arguments with
  | .error (.value fault) => failure = .yaml fault
  | .error _ => False
  | .ok invocation => invocation.escapes failure = true

/-- The failures that the program tells of are not among them. -/
theorem isTold_eq_false_of_escapes {arguments : List Text} {failure : Failure}
    (h : Escapes arguments failure) : isTold failure = false := by
  unfold Escapes at h
  split at h
  · rw [h]
    rfl
  · cases h
  · rename_i invocation _
    cases failure <;> first
      | rfl
      | (cases hcommand : invocation.command <;>
          simp [Invocation.escapes, hcommand, Command.escapes, Failure.isOfPath,
            Failure.isOfAccess, Failure.isOfWorkspace, Failure.isOfSearch, Failure.isOfScalar,
            Failure.isOfMarkup, Failure.isOfSchema, Failure.isInvalid] at h)

namespace Sample

open Scaffold.Sample (file)

/-- A workspace whose file is no document. -/
def unread : Session := .start ⟨[([".git"], .directory), (["toolkit.yaml"], file "a: [")]⟩ []

/-- A workspace with one boilerplate, for packages of any name. -/
def packages : Session :=
  .start ⟨[([".git"], .directory), (["templates"], .directory), (["templates", "w"], .directory),
    (["templates", "w", "scaffold.yaml"],
      file (("boilerplate:\n  - name: e\n    targetFolder: apps\n" : Text) ++
        ("    variables_schema:\n      properties:\n" : Text) ++
        ("        packageName:\n          type: string\n" : Text))),
    (["templates", "w", "f"], file "hi")]⟩ []

end Sample

end CommandLine

end Stencil
