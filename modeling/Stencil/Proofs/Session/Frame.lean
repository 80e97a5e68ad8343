import Stencil.Proofs.Console.Markup
import Stencil.Session.Storage

/-!
# What actions leave as it is

`Follows` says of an action that every ending of it keeps to a relation between
sessions.  If the relation is reflexive and transitive, compound actions follow
it as soon as their steps do.
-/

namespace Stencil

namespace Session

variable {s m s' : Session}

/-- No call is made to fail. -/
def IsCalm (s : Session) : Prop := s.faults = [] ∧ s.interruptions = []

/-- What no operation on files changes. -/
structure Agrees (s s' : Session) : Prop where
  here : s'.here = s.here
  faults : s'.faults = s.faults
  calm : s.interruptions = [] → s'.interruptions = []

/-- What is left after looking around, which the console may tell of. -/
structure Looks (s s' : Session) : Prop extends Agrees s s' where
  tree : s'.tree = s.tree
  journal : s'.journal = s.journal
  manifests : s'.manifests = s.manifests

theorem Agrees.refl (s : Session) : s.Agrees s := ⟨rfl, rfl, id⟩

theorem Agrees.trans (h : s.Agrees m) (h' : m.Agrees s') : s.Agrees s' :=
  ⟨h'.here.trans h.here, h'.faults.trans h.faults, h'.calm ∘ h.calm⟩

theorem Agrees.isCalm (h : s.Agrees s') (hcalm : s.IsCalm) : s'.IsCalm :=
  ⟨h.faults.trans hcalm.1, h.calm hcalm.2⟩

/-- The session in which the next call was answered. -/
def answered (s : Session) : Session := { s with interruptions := s.interruptions.tail }

theorem looks_answered (s : Session) : s.Looks s.answered :=
  ⟨⟨rfl, rfl, fun hnil => by simp [answered, hnil]⟩, rfl, rfl, rfl⟩

theorem Looks.refl (s : Session) : s.Looks s := ⟨.refl s, rfl, rfl, rfl⟩

theorem Looks.trans (h : s.Looks m) (h' : m.Looks s') : s.Looks s' :=
  ⟨h.toAgrees.trans h'.toAgrees, h'.tree.trans h.tree, h'.journal.trans h.journal,
    h'.manifests.trans h.manifests⟩

end Session

namespace Action

open Session

variable {α β : Type} {s s' : Session} {rel : Session → Session → Prop}

def Follows (action : Action α) (rel : Session → Session → Prop) : Prop :=
  ∀ s r s', action.Ends s r s' → rel s s'

structure Discipline (rel : Session → Session → Prop) : Prop where
  refl : ∀ s, rel s s
  trans : ∀ {s m s'}, rel s m → rel m s' → rel s s'

theorem Follows.mono {action : Action α} {more : Session → Session → Prop}
    (h : action.Follows rel) (hmore : ∀ s s', rel s s' → more s s') : action.Follows more :=
  fun s r s' hend => hmore s s' (h s r s' hend)

theorem Follows.attempt {action : Action α} (h : action.Follows rel) :
    (Action.attempt action).Follows rel := by
  intro s r s' hend
  obtain ⟨r', -, hend⟩ := ends_attempt.1 hend
  exact h s r' s' hend

/-! ## Compound actions -/

namespace Discipline

variable (hrel : Discipline rel)
include hrel

theorem pure (a : α) : (Pure.pure a : Action α).Follows rel := by
  intro s r s' h
  obtain ⟨-, rfl⟩ := ends_pure.1 h
  exact hrel.refl _

theorem throw (failure : Failure) : (MonadExcept.throw failure : Action α).Follows rel := by
  intro s r s' h
  obtain ⟨-, rfl⟩ := ends_throw.1 h
  exact hrel.refl _

theorem get : (MonadState.get : Action Session).Follows rel := by
  intro s r s' h
  obtain ⟨-, rfl⟩ := ends_get.1 h
  exact hrel.refl _

theorem lift (result : Except Failure α) : (Action.lift result).Follows rel := by
  intro s r s' h
  obtain ⟨-, rfl⟩ := ends_lift.1 h
  exact hrel.refl _

/-- What follows the first step may rely on how that ended. -/
theorem bind_of {action : Action α} {next : α → Action β} (h : action.Follows rel)
    (hnext : ∀ s a m, action.Ends s (.ok a) m → ∀ r s', (next a).Ends m r s' → rel m s') :
    (action >>= next).Follows rel := by
  intro s r s' hend
  rcases ends_bind.1 hend with ⟨a, m, hfirst, hrest⟩ | ⟨failure, hfirst, -⟩
  · exact hrel.trans (h s _ m hfirst) (hnext s a m hfirst r s' hrest)
  · exact h s _ s' hfirst

theorem bind {action : Action α} {next : α → Action β} (h : action.Follows rel)
    (hnext : ∀ a, (next a).Follows rel) : (action >>= next).Follows rel :=
  hrel.bind_of h fun _ a m _ r s' hend => hnext a m r s' hend

theorem orElseIf {isCaught : Failure → Bool} {action : Action α} {handle : Failure → Action α}
    (h : action.Follows rel) (hhandle : ∀ failure, (handle failure).Follows rel) :
    (Action.orElseIf isCaught action handle).Follows rel := by
  intro s r s' hend
  rcases ends_orElseIf.1 hend with ⟨a, hend, -⟩ | ⟨failure, m, hend, -, hlast⟩ |
    ⟨failure, hend, -, -⟩
  · exact h s _ s' hend
  · exact hrel.trans (h s _ m hend) (hhandle failure m r s' hlast)
  · exact h s _ s' hend

/-- What is not caught is thrown on. -/
theorem orThrow {isCaught : Prop} [Decidable isCaught] {action : Action α} {failure : Failure}
    (h : action.Follows rel) :
    (if isCaught then action else MonadExcept.throw failure).Follows rel := by
  split
  · exact h
  · exact hrel.throw failure

theorem mapM {f : α → Action β} {items : List α} (h : ∀ item ∈ items, (f item).Follows rel) :
    (items.mapM f).Follows rel := by
  induction items with
  | nil => exact hrel.pure _
  | cons item items ih =>
      rw [List.mapM_cons]
      refine hrel.bind (h item List.mem_cons_self) fun b => hrel.bind ?_ fun bs => hrel.pure _
      exact ih fun other hother => h other (List.mem_cons_of_mem _ hother)

theorem forM {f : α → Action Unit} {items : List α} (h : ∀ item ∈ items, (f item).Follows rel) :
    (items.forM f).Follows rel := by
  induction items with
  | nil => exact hrel.pure _
  | cons item items ih =>
      exact hrel.bind (h item List.mem_cons_self) fun _ =>
        ih fun other hother => h other (List.mem_cons_of_mem _ hother)

end Discipline

/-! ## Looking and showing -/

theorem discipline_looks : Discipline Looks := ⟨Looks.refl, Looks.trans⟩

theorem follows_showLines (lines : List Text) : (showLines lines).Follows Looks := by
  intro s r s' h
  obtain ⟨-, rfl⟩ := ends_modify.1 h
  exact ⟨⟨rfl, rfl, id⟩, rfl, rfl, rfl⟩

theorem follows_printMarkup (markup : Text) : (printMarkup markup).Follows Looks :=
  discipline_looks.bind (discipline_looks.lift _) fun _ => follows_showLines _

theorem follows_printWarning (message : Text) : (printWarning message).Follows Looks :=
  follows_printMarkup _

theorem follows_printDetail (message : Text) : (printDetail message).Follows Looks := by
  refine discipline_looks.bind discipline_looks.get fun s => ?_
  split
  · exact follows_printMarkup _
  · exact discipline_looks.pure _

/-- Printing does not fail. -/
theorem ends_printWarning {r : Except Failure Unit} (message : Text)
    (h : (printWarning message).Ends s r s') : r = .ok () :=
  ((ends_printMarkup_styled (by decide) message).1 h).1

theorem ends_printDetail {r : Except Failure Unit} (message : Text)
    (h : (printDetail message).Ends s r s') : r = .ok () := by
  rw [printDetail, ends_get_bind] at h
  split at h
  · exact ((ends_printMarkup_styled (by decide) message).1 h).1
  · exact (ends_pure.1 h).1

/-! ## Calls that can be made to fail -/

/-- Every call uses up one interruption, and what follows is the action itself. -/
theorem ends_interruptible_answered {action : Action α} {r : Except Failure α}
    (h : (Storage.interruptible action).Ends s r s') :
    (∃ failure, s.interruptions.head? = some (some failure) ∧ r = .error failure ∧
        s' = s.answered) ∨ action.Ends s.answered r s' := by
  rw [Storage.interruptible, Storage.nextInterruption] at h
  obtain ⟨tree, here, faults, interruptions, manifests, journal, isVerbose, shown⟩ := s
  cases interruptions with
  | nil =>
      simp only [bind_assoc, ends_get_bind, pure_bind] at h
      exact .inr h
  | cons next rest =>
      simp only [bind_assoc, ends_get_bind, ends_modify_bind, pure_bind] at h
      cases next with
      | none => exact .inr h
      | some failure =>
          obtain ⟨rfl, rfl⟩ := ends_throw.1 h
          exact .inl ⟨failure, rfl, rfl, rfl⟩

/-- A call does what it is for, or it fails and does nothing. -/
theorem ends_interruptible {action : Action α} {r : Except Failure α}
    (h : (Storage.interruptible action).Ends s r s') :
    (∃ failure, r = .error failure ∧ s.Looks s') ∨ ∃ m, s.Looks m ∧ action.Ends m r s' := by
  rcases ends_interruptible_answered h with ⟨failure, -, hr, rfl⟩ | hend
  · exact .inl ⟨failure, hr, s.looks_answered⟩
  · exact .inr ⟨_, s.looks_answered, hend⟩

theorem ends_guarded {operation : FileOperation} {path : Text} {action : Action α}
    {r : Except Failure α} (h : (Storage.guarded operation path action).Ends s r s') :
    (∃ failure, r = .error failure ∧ s.Looks s') ∨ ∃ m, s.Looks m ∧ action.Ends m r s' := by
  rcases ends_interruptible h with hfailed | ⟨m, hlooks, h⟩
  · exact .inl hfailed
  · rw [ends_get_bind] at h
    split at h
    · rename_i fault _
      obtain ⟨rfl, rfl⟩ := ends_throw.1 h
      exact .inl ⟨_, rfl, hlooks⟩
    · exact .inr ⟨m, hlooks, h⟩

theorem Discipline.interruptible (hrel : Discipline rel) (hlooks : ∀ s s', Looks s s' → rel s s')
    {action : Action α} (h : action.Follows rel) :
    (Storage.interruptible action).Follows rel := by
  intro s r s' hend
  rcases ends_interruptible hend with ⟨_, -, hlook⟩ | ⟨m, hlook, hend⟩
  · exact hlooks s s' hlook
  · exact hrel.trans (hlooks s m hlook) (h m r s' hend)

theorem Discipline.guarded (hrel : Discipline rel) (hlooks : ∀ s s', Looks s s' → rel s s')
    {operation : FileOperation} {path : Text} {action : Action α} (h : action.Follows rel) :
    (Storage.guarded operation path action).Follows rel := by
  intro s r s' hend
  rcases ends_guarded hend with ⟨_, -, hlook⟩ | ⟨m, hlook, hend⟩
  · exact hlooks s s' hlook
  · exact hrel.trans (hlooks s m hlook) (h m r s' hend)

end Action

namespace Session.IsCalm

variable {α : Type} {s s' : Session} {action : Action α} {r : Except Failure α}

theorem ends_interruptible (hcalm : s.IsCalm) :
    (Storage.interruptible action).Ends s r s' ↔ action.Ends s r s' := by
  simp [Storage.interruptible, Storage.nextInterruption, hcalm.2]

theorem ends_guarded (hcalm : s.IsCalm) {operation : FileOperation} {path : Text} :
    (Storage.guarded operation path action).Ends s r s' ↔ action.Ends s r s' := by
  rw [Storage.guarded, hcalm.ends_interruptible]
  simp [hcalm.1]

end Session.IsCalm

end Stencil
