import Stencil.CommandLine.Run
import Stencil.Proofs.Library.Work

/-!
# What ends a command line

A command line ends with a code, unless a failure ends it that is told of nowhere
on the way.  Which failures can do so depends on what the command line asks for;
nothing that happens while a target is made is among them.
-/

namespace Stencil

open FileTree Session Action

/-! ## Kinds of failures -/

namespace Failure

/-- What the use of a file by its path can end with. -/
def isOfAccess : Failure → Bool
  | .system _ _ | .value _ | .unencodable _ => true
  | _ => false

/-- What finding a way through the files can end with. -/
def isOfPath : Failure → Bool
  | .lostDirectory | .linkLoop _ => true
  | failure => failure.isOfAccess

/-- A scalar of a document that counts neither as a wrong value nor as a wrong document. -/
def isOfScalar : Failure → Bool
  | .yaml fault => !fault.isOfValue && !fault.isOfDocument
  | _ => false

/-- What searching a library can end with. -/
def isOfSearch (failure : Failure) : Bool := failure.isOfPath || failure.isOfScalar

def isOfMarkup : Failure → Bool
  | .markup _ => true
  | _ => false

def isOfSchema : Failure → Bool
  | .schema _ => true
  | _ => false

/-- Whether a record could not be made. -/
def isInvalid (record : Text) : Failure → Bool
  | .invalid other _ => decide (other = record)
  | _ => false

/-- What reading the file of a workspace can end with. -/
def isOfWorkspace : Failure → Bool
  | .undecodable _ | .yaml _ | .noPath _ => true
  | _ => false

variable {failure : Failure}

theorem isOfPath_of_isOfAccess (h : failure.isOfAccess = true) : failure.isOfPath = true := by
  cases failure <;> first | rfl | cases h

theorem isOfSystem_or_isOfValue_of_isOfAccess (h : failure.isOfAccess = true) :
    (failure.isOfSystem || failure.isOfValue) = true := by
  cases failure <;> first | rfl | cases h

/-- A path is wrong itself, or the files that it leads through are. -/
theorem isOfAccess_of_error {path : Text}
    (h : PathText.fault? path = some failure ∨ ∃ cause, failure = .system cause path) :
    failure.isOfAccess = true := by
  rcases h with hfault | ⟨cause, rfl⟩
  · unfold PathText.fault? at hfault
    split at hfault
    · cases hfault
      rfl
    · split at hfault <;> cases hfault
      rfl
  · rfl

end Failure

namespace Action

variable {α β : Type} {test more : Failure → Prop}

/-- If no call is made to fail, all failures of an action pass a test, and none is planned. -/
def OnlyFails (action : Action α) (test : Failure → Prop) : Prop :=
  ∀ s r s', s.IsCalm → action.Ends s r s' → s'.IsCalm ∧ ∀ failure, r = .error failure → test failure

theorem discipline_agrees : Discipline Agrees := ⟨Agrees.refl, Agrees.trans⟩

namespace OnlyFails

theorem of_agrees {action : Action α} (hagrees : action.Follows Agrees)
    (h : ∀ s failure s', s.IsCalm → action.Ends s (.error failure) s' → test failure) :
    action.OnlyFails test := by
  intro s r s' hcalm hend
  refine ⟨(hagrees _ _ _ hend).isCalm hcalm, ?_⟩
  rintro failure rfl
  exact h s failure s' hcalm hend

theorem mono {action : Action α} (h : action.OnlyFails test)
    (hmore : ∀ failure, test failure → more failure) : action.OnlyFails more := by
  intro s r s' hcalm hend
  obtain ⟨hcalm', hfails⟩ := h s r s' hcalm hend
  exact ⟨hcalm', fun failure hr => hmore failure (hfails failure hr)⟩

theorem pure (a : α) : (Pure.pure a : Action α).OnlyFails test :=
  of_agrees (discipline_agrees.pure a) fun _ _ _ _ h => by cases (ends_pure.1 h).1

theorem throw {failure : Failure} (h : test failure) :
    (MonadExcept.throw failure : Action α).OnlyFails test :=
  of_agrees (discipline_agrees.throw failure) fun _ _ _ _ hend => by
    cases (ends_throw.1 hend).1
    exact h

theorem lift {result : Except Failure α} (h : ∀ failure, result = .error failure → test failure) :
    (Action.lift result).OnlyFails test :=
  of_agrees (discipline_agrees.lift result) fun _ failure _ _ hend =>
    h failure (ends_lift.1 hend).1.symm

theorem liftMap {ε : Type} {f : ε → Failure} {result : Except ε α} (h : ∀ error, test (f error)) :
    (Action.lift (result.mapError f)).OnlyFails test :=
  of_agrees (discipline_agrees.lift _) fun _ _ _ _ hend => by
    obtain ⟨⟨error, -, rfl⟩, -⟩ := ends_lift_mapError_error.1 hend
    exact h error

theorem bind {action : Action α} {next : α → Action β} (h : action.OnlyFails test)
    (hnext : ∀ a, (next a).OnlyFails test) : (action >>= next).OnlyFails test := by
  intro s r s' hcalm hend
  rcases ends_bind.1 hend with ⟨a, m, hfirst, hrest⟩ | ⟨failure, hfirst, rfl⟩
  · exact hnext a m r s' (h s _ m hcalm hfirst).1 hrest
  · obtain ⟨hcalm', hfails⟩ := h s _ s' hcalm hfirst
    refine ⟨hcalm', ?_⟩
    rintro _ ⟨⟩
    exact hfails failure rfl

/-- What is caught is handled, and the rest passes the test. -/
theorem orElseIf {isCaught : Failure → Bool} {action : Action α} {handle : Failure → Action α}
    (h : action.OnlyFails more) (hhandle : ∀ failure, more failure → (handle failure).OnlyFails test)
    (hrest : ∀ failure, more failure → isCaught failure = false → test failure) :
    (Action.orElseIf isCaught action handle).OnlyFails test := by
  intro s r s' hcalm hend
  rcases ends_orElseIf.1 hend with ⟨a, hfirst, rfl⟩ | ⟨failure, m, hfirst, -, hlast⟩ |
    ⟨failure, hfirst, huncaught, rfl⟩
  · exact ⟨(h s _ s' hcalm hfirst).1, by simp⟩
  · obtain ⟨hcalm', hfails⟩ := h s _ m hcalm hfirst
    exact hhandle failure (hfails failure rfl) m r s' hcalm' hlast
  · obtain ⟨hcalm', hfails⟩ := h s _ s' hcalm hfirst
    refine ⟨hcalm', ?_⟩
    rintro _ ⟨⟩
    exact hrest failure (hfails failure rfl) huncaught

theorem attempt_bind {action : Action α} {next : Except Failure α → Action β}
    (h : action.OnlyFails more) (hok : ∀ a, (next (.ok a)).OnlyFails test)
    (herror : ∀ failure, more failure → (next (.error failure)).OnlyFails test) :
    (attempt action >>= next).OnlyFails test := by
  intro s r s' hcalm hend
  obtain ⟨found, m, hfirst, hrest⟩ := ends_attempt_bind.1 hend
  obtain ⟨hcalm', hfails⟩ := h s _ m hcalm hfirst
  cases found with
  | ok a => exact hok a m r s' hcalm' hrest
  | error failure => exact herror failure (hfails failure rfl) m r s' hcalm' hrest

theorem mapM {f : α → Action β} {items : List α} (h : ∀ item ∈ items, (f item).OnlyFails test) :
    (items.mapM f).OnlyFails test := by
  induction items with
  | nil => exact .pure []
  | cons item items ih =>
      rw [List.mapM_cons]
      refine (h item List.mem_cons_self).bind fun b => .bind (ih ?_) fun bs => .pure (b :: bs)
      exact fun other hother => h other (List.mem_cons_of_mem _ hother)

theorem filterM {f : α → Action Bool} (items : List α) (h : ∀ item, (f item).OnlyFails test) :
    (items.filterM f).OnlyFails test := by
  have hall : ∀ kept, (items.filterAuxM f kept).OnlyFails test := by
    induction items with
    | nil => exact fun kept => .pure kept
    | cons item items ih => exact fun kept => (h item).bind fun passed => ih _
  exact (hall []).bind fun kept => .pure _

theorem filterMapM {f : α → Action (Option β)} (items : List α)
    (h : ∀ item, (f item).OnlyFails test) : (items.filterMapM f).OnlyFails test := by
  have hall : ∀ found, (List.filterMapM.loop f items found).OnlyFails test := by
    induction items with
    | nil => exact fun found => .pure _
    | cons item items ih => exact fun found => (h item).bind fun result => by cases result <;> exact ih _
  exact hall []

theorem get : (MonadState.get : Action Session).OnlyFails test :=
  of_agrees discipline_agrees.get fun _ _ _ _ h => by cases (ends_get.1 h).1

theorem modify {f : Session → Session} (h : ∀ s : Session, s.Agrees (f s)) :
    (modify f : Action PUnit).OnlyFails test :=
  of_agrees (fun s _ _ hend => (ends_modify.1 hend).2 ▸ h s) fun _ _ _ _ hend => by
    cases (ends_modify.1 hend).1

/-- In a calm session, the calls to the storage are the steps that they are for. -/
theorem guarded {operation : FileOperation} {path : Text} {action : Action α}
    (h : action.OnlyFails test) : (Storage.guarded operation path action).OnlyFails test :=
  fun s r s' hcalm hend => h s r s' hcalm (hcalm.ends_guarded.1 hend)

end OnlyFails

/-! ## Steps on files -/

theorem onlyFails_locate (path : Text) (followLast : Bool) :
    (locate path followLast).OnlyFails (·.isOfAccess) :=
  .bind .get fun _ => .lift fun _ h => Failure.isOfAccess_of_error (locate_eq_error h)

theorem onlyFails_look (path : Text) : (look path).OnlyFails (·.isOfAccess) :=
  .bind .get fun _ => .lift fun _ h => Failure.isOfAccess_of_error (look_eq_error h)

theorem onlyFails_passes (check : FileItem → Bool) (path : Text) :
    (passes check path).OnlyFails (·.isOfAccess) := by
  refine .bind .get fun s => ?_
  split
  · exact .pure _
  · split
    · exact .pure _
    · exact .throw rfl
  · exact .pure _

theorem onlyFails_resolve (path : Text) : (resolve path).OnlyFails (·.isOfPath) := by
  refine .bind .get fun s => .bind (.lift fun failure hreal => ?_) fun place => ?_
  · unfold realPlace at hreal
    split at hreal
    · rename_i fault hfault
      cases hreal
      exact Failure.isOfPath_of_isOfAccess (Failure.isOfAccess_of_error (.inl hfault))
    · split at hreal <;> cases hreal
      rfl
  · dsimp only
    split
    · exact .throw rfl
    · exact .pure _

theorem onlyFails_readText (path : Text) :
    (readText path).OnlyFails fun failure => failure.isOfAccess ∨ failure.isUndecodable := by
  refine .bind (.bind ((onlyFails_look path).mono fun _ => .inl) fun item => ?_) fun content => ?_
  · cases item with
    | directory => exact .throw (.inl rfl)
    | file content => exact .pure _
    | link target => exact .throw (.inl rfl)
  · cases content with
    | program program => exact .pure _
    | bytes bytes => exact .bind (.liftMap fun _ => .inr rfl) fun _ => .pure _

theorem onlyFails_namesIn (path : Text) : (namesIn path).OnlyFails (·.isOfAccess) :=
  .of_agrees (fun _ _ _ h => (ends_namesIn.1 h).2 ▸ .refl _) fun _ _ _ _ h =>
    Failure.isOfAccess_of_error (namesAt_eq_error (ends_namesIn.1 h).1.symm)

theorem onlyFails_makeDirectory (path : Text) : (makeDirectory path).OnlyFails (·.isOfAccess) := by
  refine .bind (onlyFails_locate path false) fun place => .bind .get fun s => ?_
  split
  · exact .throw rfl
  · exact .bind .get fun s => .modify fun _ => ⟨rfl, rfl, id⟩

theorem onlyFails_ensureNames (anchor : Anchor) (names : List Text) :
    (ensureNames anchor names).OnlyFails (·.isOfAccess) := by
  have hmakeOr : ∀ path unlessAbove,
      (∀ failure : Failure, failure.isOfAccess → (unlessAbove failure).OnlyFails (·.isOfAccess)) →
      (makeOr path unlessAbove).OnlyFails (·.isOfAccess) := by
    intro path unlessAbove habove
    refine .orElseIf (onlyFails_makeDirectory path) (fun failure hfailure => ?_) fun _ h _ => h
    split
    · exact habove failure hfailure
    · refine .bind (onlyFails_passes _ _) fun found => ?_
      split
      · exact .throw hfailure
      · exact .pure _
  induction names with
  | nil => exact hmakeOr _ _ fun _ h => .throw h
  | cons name above ih =>
      exact hmakeOr _ _ fun _ _ => .bind ih fun _ => hmakeOr _ _ fun _ h => .throw h

theorem onlyFails_writeFile (path : FilePath) (text : Text) :
    (writeFile path text).OnlyFails (·.isOfAccess) := by
  have hput : ∀ place content, (putContent place content).OnlyFails (·.isOfAccess) :=
    fun place content => .bind .get fun _ => .modify fun _ => ⟨rfl, rfl, id⟩
  refine .bind (onlyFails_ensureNames _ _) fun _ => .bind ?_ fun place => ?_
  · refine .bind (onlyFails_locate _ _) fun place => .bind .get fun s => ?_
    split
    · exact .throw rfl
    · exact .pure _
  · exact .bind (hput _ _) fun _ => .bind (.liftMap fun _ => rfl) fun _ => hput _ _

theorem onlyFails_exists? (path : Text) : (Storage.exists? path).OnlyFails test := by
  refine .of_agrees (fun _ _ _ h => (ends_storage_exists? h).1.toAgrees) ?_
  intro s failure s' hcalm h
  cases (ends_storage_exists? h).2.2 hcalm

theorem onlyFails_printWarning (message : Text) : (printWarning message).OnlyFails test :=
  .of_agrees (fun _ _ _ h => (follows_printWarning _ _ _ _ h).toAgrees) fun _ _ _ _ h => by
    cases ends_printWarning _ h

theorem onlyFails_printDetail (message : Text) : (printDetail message).OnlyFails test :=
  .of_agrees (fun _ _ _ h => (follows_printDetail _ _ _ _ h).toAgrees) fun _ _ _ _ h => by
    cases ends_printDetail _ h

theorem onlyFails_readYaml (path : FilePath) :
    (DataFiles.readYaml path).OnlyFails fun failure => failure.isOfPath ∨ failure.isOfWorkspace := by
  refine .bind ((onlyFails_readText _).mono ?_) fun text => .liftMap fun _ => .inr rfl
  rintro failure (haccess | hcode)
  · exact .inl (Failure.isOfPath_of_isOfAccess haccess)
  · cases failure <;> first | exact .inr rfl | cases hcode

theorem onlyFails_readJson (path : FilePath) :
    (DataFiles.readJson path).OnlyFails fun failure =>
      (failure.isOfSystem || failure.isOfValue) = true := by
  refine .bind ((onlyFails_readText _).mono ?_) fun text => .bind (.liftMap fun _ => rfl) fun value => ?_
  · rintro failure (haccess | hcode)
    · exact Failure.isOfSystem_or_isOfValue_of_isOfAccess haccess
    · cases failure <;> first | rfl | cases hcode
  · split <;> exact .pure _

end Action

end Stencil
