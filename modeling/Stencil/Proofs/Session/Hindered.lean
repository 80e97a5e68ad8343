import Stencil.Proofs.Session.Storage
import Stencil.Session.Rendering

/-!
# Calls that are made to fail

A call fails because of the files, or because a failure was planned for it.
Planned failures are used up from the front and none is ever added, so what
hinders a later call was planned from the start.
-/

namespace Stencil

open FileTree Session Action

namespace Session

/-- A failure was planned for a call: by a fault that concerns it, or by an interruption. -/
def Plans (s : Session) (operation : FileOperation) (path : Text) (failure : Failure) : Prop :=
  some failure ∈ s.interruptions ∨
    ∃ fault ∈ s.faults, fault.concerns operation path = true ∧ fault.failure = failure

/-- What planned failures are there for: those of the system, and no others. -/
def PlansSystemFailures (s : Session) : Prop :=
  (∀ failure, some failure ∈ s.interruptions → failure.isOfSystem = true) ∧
    ∀ fault ∈ s.faults, fault.failure.isOfSystem = true

/-- What is left after looking around, with fewer calls to be interrupted. -/
structure Glances (s s' : Session) : Prop extends s.Looks s' where
  coming : s'.interruptions <:+ s.interruptions

variable {s m s' : Session} {operation : FileOperation} {path : Text} {failure : Failure}

theorem Plans.isOfSystem (h : s.Plans operation path failure) (hplans : s.PlansSystemFailures) :
    failure.isOfSystem = true := by
  rcases h with hnext | ⟨fault, hfault, -, rfl⟩
  · exact hplans.1 failure hnext
  · exact hplans.2 fault hfault

theorem Plans.of_later (hfaults : s'.faults = s.faults)
    (hcoming : s'.interruptions <:+ s.interruptions) (h : s'.Plans operation path failure) :
    s.Plans operation path failure :=
  h.imp (hcoming.subset ·) (hfaults ▸ id)

theorem IsCalm.not_plans (h : s.IsCalm) : ¬ s.Plans operation path failure := by
  simp [Plans, h.1, h.2]

theorem Glances.refl (s : Session) : s.Glances s := ⟨.refl s, List.suffix_rfl⟩

theorem Glances.trans (h : s.Glances m) (h' : m.Glances s') : s.Glances s' :=
  ⟨h.toLooks.trans h'.toLooks, h'.coming.trans h.coming⟩

theorem Glances.plans (h : s.Glances m) (hplans : m.Plans operation path failure) :
    s.Plans operation path failure :=
  hplans.of_later h.faults h.coming

theorem glances_answered (s : Session) : s.Glances s.answered :=
  ⟨s.looks_answered, List.tail_suffix _⟩

end Session

variable {α : Type} {s s' : Session} {operation : FileOperation} {path : Text}
  {action : Action α} {r : Except Failure α}

namespace Action

theorem discipline_glances : Discipline Glances := ⟨Glances.refl, Glances.trans⟩

theorem glances_printWarning (message : Text) : (printWarning message).Follows Glances := by
  refine discipline_glances.bind (discipline_glances.lift _) fun lines => ?_
  intro s r s' h
  obtain ⟨-, rfl⟩ := ends_modify.1 h
  exact ⟨⟨⟨rfl, rfl, id⟩, rfl, rfl, rfl⟩, List.suffix_rfl⟩

/-- A call does what it is for, or a failure was planned for it and it does nothing. -/
theorem ends_guarded_planned (h : (Storage.guarded operation path action).Ends s r s') :
    (∃ failure, s.Plans operation path failure ∧ r = .error failure ∧ s.Glances s') ∨
      ∃ m, s.Glances m ∧ action.Ends m r s' := by
  rcases ends_interruptible_answered h with ⟨failure, hnext, rfl, rfl⟩ | hend
  · exact .inl ⟨failure, .inl (List.mem_of_head? hnext), rfl, s.glances_answered⟩
  · rw [ends_get_bind] at hend
    split at hend
    · rename_i fault hfound
      obtain ⟨rfl, rfl⟩ := ends_throw.1 hend
      exact .inl ⟨_, .inr ⟨fault, List.mem_of_find?_eq_some hfound,
        by simpa using List.find?_some hfound, rfl⟩, rfl, s.glances_answered⟩
    · exact .inr ⟨_, s.glances_answered, hend⟩

/-- Calls that only look around tell what the files say, unless they were planned to fail. -/
theorem ends_guarded_told {told : Session → Except Failure α}
    (haction : ∀ {s r s'}, action.Ends s r s' → r = told s ∧ s' = s)
    (htold : ∀ {s s' : Session}, s.Looks s' → told s' = told s)
    (h : (Storage.guarded operation path action).Ends s r s') :
    s.Glances s' ∧ (r = told s ∨ ∃ failure, s.Plans operation path failure ∧ r = .error failure) := by
  rcases ends_guarded_planned h with ⟨failure, hplans, hr, hglances⟩ | ⟨m, hglances, hend⟩
  · exact ⟨hglances, .inr ⟨failure, hplans, hr⟩⟩
  · obtain ⟨hr, rfl⟩ := haction hend
    exact ⟨hglances, .inl (hr.trans (htold hglances.toLooks))⟩

theorem ends_item_planned {r : Except Failure FileItem} (h : (Storage.item path).Ends s r s') :
    s.Glances s' ∧ (r = s.tree.look s.here path true ∨
      ∃ failure, s.Plans .stat path failure ∧ r = .error failure) :=
  ends_guarded_told ends_look.1 (fun hlooks => by rw [hlooks.tree, hlooks.here]) h

theorem ends_names_planned {r : Except Failure (List Text)}
    (h : (Storage.names path).Ends s r s') :
    s.Glances s' ∧ (r = namesAt s.tree s.here path ∨
      ∃ failure, s.Plans .list path failure ∧ r = .error failure) :=
  ends_guarded_told ends_namesIn.1 (fun hlooks => by rw [hlooks.tree, hlooks.here]) h

theorem ends_readText_planned {content : Content} {r : Except Failure Text}
    (hlook : s.tree.look s.here (Storage.plain path) true = .ok (.file content))
    (h : (Storage.readText path).Ends s r s') :
    s.Glances s' ∧ (r = textOf content ∨
      ∃ failure, s.Plans .read path failure ∧ r = .error failure) := by
  rcases ends_guarded_planned h with ⟨failure, hplans, hr, hglances⟩ | ⟨m, hglances, hend⟩
  · exact ⟨hglances, .inr ⟨failure, hplans, hr⟩⟩
  · rw [← hglances.tree, ← hglances.here] at hlook
    obtain ⟨hr, rfl⟩ := ends_readText hlook hend
    exact ⟨hglances, .inl hr⟩

/-- Rendering tells of what could not be rendered, and does nothing else. -/
theorem ends_render_glances {text : Text} {vars : Variables} {r : Except Failure Template.Rendered}
    (h : (render text vars).Ends s r s') :
    s.Glances s' ∧ r = .ok (Template.renderOrKeep text vars) := by
  rw [render] at h
  dsimp only at h
  split at h
  · rcases ends_bind.1 h with ⟨_, m, hprint, hlast⟩ | ⟨other, hprint, -⟩
    · obtain ⟨rfl, rfl⟩ := ends_pure.1 hlast
      exact ⟨glances_printWarning _ _ _ _ hprint, rfl⟩
    · cases ends_printWarning _ hprint
  · obtain ⟨rfl, rfl⟩ := ends_pure.1 h
    exact ⟨.refl _, rfl⟩

theorem ends_render {text : Text} {vars : Variables} {r : Except Failure Template.Rendered}
    (h : (render text vars).Ends s r s') :
    s.Looks s' ∧ r = .ok (Template.renderOrKeep text vars) :=
  (ends_render_glances h).imp_left Glances.toLooks

end Action

end Stencil
