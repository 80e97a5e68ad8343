import Stencil.Proofs.Session.Copy
import Stencil.Proofs.Session.Storage
import Stencil.Session.Rendering

/-!
# Work

Copying, writing and whatever else is done to files leaves the manifests that
are remembered as they were, however it ends, and what the console shows is
added to what it showed before.  Looking around shows nothing at all.
-/

namespace Stencil

open Session Action

namespace Session

/-- What is left after looking around in silence. -/
structure Peeks (s s' : Session) : Prop extends s.Looks s' where
  shown : s'.shown = s.shown

/-- What is left after any work. -/
structure Works (s s' : Session) : Prop extends s.Agrees s' where
  manifests : s'.manifests = s.manifests
  shown : s.shown <+: s'.shown

variable {s m s' : Session}

theorem Peeks.of_eq (h : s = s') : s.Peeks s' := h ▸ ⟨.refl s, rfl⟩

theorem Peeks.works (h : s.Peeks s') : s.Works s' := ⟨h.toAgrees, h.manifests, h.shown ▸ List.prefix_rfl⟩

theorem Works.of_eq (h : s = s') : s.Works s' := (Peeks.of_eq h).works

end Session

namespace Action

variable {α : Type}

theorem discipline_peeks : Discipline Peeks where
  refl _ := .of_eq rfl
  trans h h' := ⟨h.toLooks.trans h'.toLooks, h'.shown.trans h.shown⟩

theorem discipline_works : Discipline Works where
  refl _ := .of_eq rfl
  trans h h' := ⟨h.toAgrees.trans h'.toAgrees, h'.manifests.trans h.manifests,
    h.shown.trans h'.shown⟩

/-- A call does what it is for, or it fails and does nothing; neither is shown. -/
theorem ends_interruptible_peeks {action : Action α} {s s' : Session} {r : Except Failure α}
    (h : (Storage.interruptible action).Ends s r s') :
    s.Peeks s' ∨ ∃ m, s.Peeks m ∧ action.Ends m r s' := by
  have hpeeks : s.Peeks s.answered := ⟨s.looks_answered, rfl⟩
  rcases ends_interruptible_answered h with ⟨-, -, -, rfl⟩ | hend
  · exact .inl hpeeks
  · exact .inr ⟨_, hpeeks, hend⟩

section Calls

variable {rel : Session → Session → Prop} {action : Action α} {operation : FileOperation}
  {path : Text}

theorem Discipline.interruptible_of (hrel : Discipline rel) (hpeeks : ∀ s s', Peeks s s' → rel s s')
    (h : action.Follows rel) : (Storage.interruptible action).Follows rel := by
  intro s r s' hend
  rcases ends_interruptible_peeks hend with hpeek | ⟨m, hpeek, hend⟩
  · exact hpeeks s s' hpeek
  · exact hrel.trans (hpeeks s m hpeek) (h m r s' hend)

theorem Discipline.guarded_of (hrel : Discipline rel) (hpeeks : ∀ s s', Peeks s s' → rel s s')
    (h : action.Follows rel) : (Storage.guarded operation path action).Follows rel := by
  refine hrel.interruptible_of hpeeks (hrel.bind hrel.get fun s => ?_)
  split
  · exact hrel.throw _
  · exact h

theorem works_guarded (h : action.Follows Works) :
    (Storage.guarded operation path action).Follows Works :=
  discipline_works.guarded_of (fun _ _ => Peeks.works) h

theorem peeks_guarded (h : action.Follows Eq) :
    (Storage.guarded operation path action).Follows Peeks :=
  discipline_peeks.guarded_of (fun _ _ => id) (h.mono fun _ _ => .of_eq)

end Calls

/-! ## Looking around -/

theorem peeks_exists? (path : Text) : (Storage.exists? path).Follows Peeks :=
  discipline_peeks.interruptible_of (fun _ _ => id) fun _ _ _ h => .of_eq (ends_exists?.1 h).2.symm

theorem peeks_isDirectory (path : Text) : (Storage.isDirectory path).Follows Peeks :=
  discipline_peeks.interruptible_of (fun _ _ => id) ((follows_isDirectory path).mono fun _ _ => .of_eq)

theorem peeks_item (path : Text) : (Storage.item path).Follows Peeks :=
  peeks_guarded fun _ _ _ h => (ends_look.1 h).2.symm

theorem peeks_names (path : Text) : (Storage.names path).Follows Peeks :=
  peeks_guarded fun _ _ _ h => (ends_namesIn.1 h).2.symm

theorem peeks_readText (path : Text) : (Storage.readText path).Follows Peeks :=
  peeks_guarded (follows_readText _)

theorem works_of_peeks {action : Action α} (h : action.Follows Peeks) : action.Follows Works :=
  h.mono fun _ _ => Peeks.works

theorem works_passes (test : FileItem → Bool) (path : Text) : (passes test path).Follows Works :=
  fun _ _ _ h => .of_eq (ends_passes.1 h).2.symm

theorem works_resolve (path : Text) : (resolve path).Follows Works := by
  refine discipline_works.bind discipline_works.get fun s => ?_
  refine discipline_works.bind (discipline_works.lift _) fun place => ?_
  dsimp only
  split
  · exact discipline_works.throw _
  · exact discipline_works.pure _

theorem works_readContent (path : Text) : (readContent path).Follows Works :=
  fun _ _ _ h => .of_eq (ends_readContent h).1.symm

theorem works_readText (path : Text) : (readText path).Follows Works :=
  (follows_readText path).mono fun _ _ => .of_eq

/-! ## Showing -/

theorem works_printMarkup (markup : Text) : (printMarkup markup).Follows Works := by
  refine discipline_works.bind (discipline_works.lift _) fun text s r s' h => ?_
  obtain ⟨-, rfl⟩ := ends_modify.1 h
  exact ⟨⟨rfl, rfl, id⟩, rfl, List.prefix_append _ _⟩

theorem works_printWarning (message : Text) : (printWarning message).Follows Works :=
  works_printMarkup _

theorem works_printDetail (message : Text) : (printDetail message).Follows Works := by
  refine discipline_works.bind discipline_works.get fun s => ?_
  split
  · exact works_printMarkup _
  · exact discipline_works.pure _

theorem works_render (template : Text) (vars : Variables) :
    (render template vars).Follows Works := by
  unfold render
  dsimp only
  split
  · exact discipline_works.bind (works_printWarning _) fun _ => discipline_works.pure _
  · exact discipline_works.pure _

theorem works_renderText (template : Text) (vars : Variables) :
    (renderText template vars).Follows Works :=
  discipline_works.bind (works_render _ _) fun _ => discipline_works.pure _

theorem works_renderIfTemplate (text : Text) (vars : Variables) :
    (renderIfTemplate text vars).Follows Works := by
  unfold renderIfTemplate
  split
  · exact works_renderText _ _
  · exact discipline_works.pure _

theorem works_renderTarget (directive : Directive) (vars : Variables) :
    (renderTarget directive vars).Follows Works :=
  discipline_works.bind (works_render _ _) fun _ => discipline_works.pure _

/-! ## The journal -/

theorem works_updateJournal (update : Journal → Journal) :
    (updateJournal update).Follows Works := by
  intro s r s' h
  obtain ⟨-, rfl⟩ := ends_modify.1 h
  exact ⟨⟨rfl, rfl, id⟩, rfl, List.prefix_rfl⟩

theorem works_journaled {action : Action α} (h : action.Follows Works) :
    (journaled action).Follows Works := by
  refine discipline_works.bind discipline_works.get fun s => ?_
  refine discipline_works.bind (works_updateJournal _) fun _ => ?_
  refine discipline_works.bind h.attempt fun result => ?_
  refine discipline_works.bind discipline_works.get fun s' => ?_
  refine discipline_works.bind (works_updateJournal _) fun _ => ?_
  exact discipline_works.bind (discipline_works.lift _) fun _ => discipline_works.pure _

/-! ## Writing and copying -/

theorem works_putContent (place : Location) (content : Content) :
    (putContent place content).Follows Works := by
  intro s r s' h
  obtain ⟨-, rfl⟩ := ends_putContent.1 h
  exact ⟨⟨rfl, rfl, id⟩, rfl, List.prefix_rfl⟩

theorem works_openForWriting (path : Text) : (openForWriting path).Follows Works :=
  fun _ _ _ h => .of_eq (ends_openForWriting h).1.symm

theorem works_makeDirectory (path : Text) : (makeDirectory path).Follows Works := by
  intro s r s' h
  rcases ends_makeDirectory h with ⟨_, -, -, rfl⟩ | ⟨_, _, -, -, -, rfl⟩ | ⟨_, -, -, -, rfl⟩
  · exact .of_eq rfl
  · exact .of_eq rfl
  · exact ⟨⟨rfl, rfl, id⟩, rfl, List.prefix_rfl⟩

theorem works_ensureDirectories (path : FilePath) : (ensureDirectories path).Follows Works :=
  discipline_works.ensureNames fun _ _ => works_makeDirectory _

theorem works_writeFile (path : FilePath) (text : Text) :
    (writeFile path text).Follows Works := by
  refine discipline_works.bind (works_ensureDirectories _) fun _ => ?_
  refine discipline_works.bind (works_openForWriting _) fun place => ?_
  refine discipline_works.bind (works_putContent _ _) fun _ => ?_
  refine discipline_works.bind (discipline_works.lift _) fun bytes => ?_
  exact works_putContent _ _

theorem works_copyFile (source target : CopyPath) :
    (copyFile source target).Follows Works := by
  have honto : ∀ target, (copyOnto source target).Follows Works := by
    intro target
    refine discipline_works.bind ((follows_isSamePlace _ _).mono fun _ _ => .of_eq) ?_
    intro same
    split
    · exact discipline_works.throw _
    refine discipline_works.bind (works_readContent _) fun content => ?_
    exact discipline_works.bind (works_openForWriting _) fun place =>
      works_putContent _ _
  refine discipline_works.bind (fun _ _ _ h => .of_eq (ends_leadsToDirectory h).1.symm) ?_
  intro found
  split
  · exact honto _
  · exact honto _

theorem works_makeTarget (path : Text) : (makeTarget path).Follows Works := by
  refine discipline_works.orElseIf
    (works_makeDirectory path) fun failure => ?_
  refine discipline_works.bind (fun _ _ _ h => .of_eq (ends_leadsToDirectory h).1.symm) ?_
  intro found
  split
  · exact discipline_works.throw _
  · exact discipline_works.pure _

theorem works_copyItems {descend : Text → Text → Action Unit}
    (hdescend : ∀ source target, (descend source target).Follows Works)
    (source target : Text) : (copyItems descend source target).Follows Works := by
  have hitem : ∀ name, (copyItem descend source target name).Follows Works := by
    intro name
    refine discipline_works.bind (Follows.attempt ?_) fun copied => ?_
    · refine discipline_works.bind ((follows_isDirectoryItem _).mono fun _ _ => .of_eq) ?_
      intro found
      split
      · exact hdescend _ _
      · exact works_copyFile _ _
    · cases copied with
      | ok done => exact discipline_works.pure _
      | error failure =>
          dsimp only
          split
          · exact discipline_works.pure _
          · exact discipline_works.throw _
  refine discipline_works.bind (fun _ _ _ h => .of_eq (ends_namesIn.1 h).2.symm) ?_
  intro names
  refine discipline_works.bind (works_makeTarget _) fun _ => ?_
  refine discipline_works.bind (discipline_works.mapM fun name _ => hitem name) ?_
  intro errors
  split
  · exact discipline_works.pure _
  · exact discipline_works.throw _

theorem works_copyDirectory (depth : Nat) (source target : Text) :
    (copyDirectory depth source target).Follows Works := by
  induction depth generalizing source target with
  | zero => exact works_copyItems (fun _ _ => discipline_works.throw _) _ _
  | succ depth ih => exact works_copyItems ih _ _

theorem works_copy (source target : FilePath) : (copy source target).Follows Works := by
  refine discipline_works.bind (works_ensureDirectories _) fun _ => ?_
  refine discipline_works.bind (works_passes _ _) fun found => ?_
  split
  · exact works_copyDirectory _ _ _
  · exact works_copyFile _ _

end Action

end Stencil
