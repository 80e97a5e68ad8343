import Stencil.Proofs.Session.Storage

/-!
# Actions that end alike

`Carries` compares two runs of an action: in related sessions it ends with the
same result, and it leaves related sessions.  Compound actions carry a relation
as soon as their steps do.
-/

namespace Stencil

open FileTree Session Action

namespace Action

variable {α β : Type} {rel : Session → Session → Prop} {s t m s' : Session}

/-- What an action does in one session it does in another one. -/
def CarriesFrom (action : Action α) (rel : Session → Session → Prop) (s t : Session) : Prop :=
  ∀ r s', action.Ends s r s' → ∃ t', action.Ends t r t' ∧ rel s' t'

def Carries (action : Action α) (rel : Session → Session → Prop) : Prop :=
  ∀ s t, rel s t → action.CarriesFrom rel s t

namespace Carries

theorem pure (a : α) : (Pure.pure a : Action α).Carries rel := by
  intro s t hrel r s' h
  obtain ⟨rfl, rfl⟩ := ends_pure.1 h
  exact ⟨t, ends_pure.2 ⟨rfl, rfl⟩, hrel⟩

theorem throw (failure : Failure) : (MonadExcept.throw failure : Action α).Carries rel := by
  intro s t hrel r s' h
  obtain ⟨rfl, rfl⟩ := ends_throw.1 h
  exact ⟨t, ends_throw.2 ⟨rfl, rfl⟩, hrel⟩

theorem lift (result : Except Failure α) : (Action.lift result).Carries rel := by
  intro s t hrel r s' h
  obtain ⟨rfl, rfl⟩ := ends_lift.1 h
  exact ⟨t, ends_lift.2 ⟨rfl, rfl⟩, hrel⟩

/-- An action that only tells something carries a relation of sessions where it tells the same. -/
theorem of_told {action : Action α} (told : Session → Except Failure α)
    (haction : ∀ {s r s'}, action.Ends s r s' ↔ r = told s ∧ s' = s)
    (htold : ∀ s t, rel s t → told t = told s) : action.Carries rel := by
  intro s t hrel r s' h
  obtain ⟨rfl, rfl⟩ := haction.1 h
  exact ⟨t, haction.2 ⟨(htold _ t hrel).symm, rfl⟩, hrel⟩

end Carries

/-- What follows the first step may rely on how that ended. -/
theorem CarriesFrom.bind {action : Action α} {next : α → Action β}
    (h : action.CarriesFrom rel s t)
    (hnext : ∀ a m m', action.Ends s (.ok a) m → rel m m' → (next a).CarriesFrom rel m m') :
    (action >>= next).CarriesFrom rel s t := by
  intro r s' hend
  rcases ends_bind.1 hend with ⟨a, m, hfirst, hrest⟩ | ⟨failure, hfirst, rfl⟩
  · obtain ⟨m', hfirst', hm⟩ := h _ _ hfirst
    obtain ⟨t', hrest', ht⟩ := hnext a m m' hfirst hm r s' hrest
    exact ⟨t', hfirst'.bind hrest', ht⟩
  · obtain ⟨t', hfirst', ht⟩ := h _ _ hfirst
    exact ⟨t', ends_bind.2 (.inr ⟨failure, hfirst', rfl⟩), ht⟩

namespace Carries

theorem bind {action : Action α} {next : α → Action β} (h : action.Carries rel)
    (hnext : ∀ a, (next a).Carries rel) : (action >>= next).Carries rel :=
  fun s t hrel => (h s t hrel).bind fun a m m' _ hm => hnext a m m' hm

theorem attempt {action : Action α} (h : action.Carries rel) :
    (Action.attempt action).Carries rel := by
  intro s t hrel r s' hend
  obtain ⟨r', rfl, hfirst⟩ := ends_attempt.1 hend
  obtain ⟨t', hend', ht⟩ := h s t hrel r' s' hfirst
  exact ⟨t', ends_attempt.2 ⟨r', rfl, hend'⟩, ht⟩

theorem orElseIf {isCaught : Failure → Bool} {action : Action α} {handle : Failure → Action α}
    (h : action.Carries rel) (hhandle : ∀ failure, (handle failure).Carries rel) :
    (Action.orElseIf isCaught action handle).Carries rel := by
  refine h.attempt.bind fun result => ?_
  cases result with
  | ok value => exact .pure value
  | error failure =>
      dsimp only
      split
      · exact hhandle failure
      · exact .throw failure

theorem mapM {f : α → Action β} {items : List α} (h : ∀ item ∈ items, (f item).Carries rel) :
    (items.mapM f).Carries rel := by
  induction items with
  | nil => exact .pure _
  | cons item items ih =>
      rw [List.mapM_cons]
      refine (h item List.mem_cons_self).bind fun b => .bind ?_ fun bs => .pure _
      exact ih fun other hother => h other (List.mem_cons_of_mem _ hother)

theorem forM {f : α → Action Unit} {items : List α} (h : ∀ item ∈ items, (f item).Carries rel) :
    (items.forM f).Carries rel := by
  induction items with
  | nil => exact .pure _
  | cons item items ih =>
      exact (h item List.mem_cons_self).bind fun _ =>
        ih fun other hother => h other (List.mem_cons_of_mem _ hother)

/-- If no call is made to fail, calls carry what their actions carry. -/
theorem interruptible (hcalm : ∀ s t, rel s t → s.IsCalm ∧ t.IsCalm) {action : Action α}
    (h : action.Carries rel) : (Storage.interruptible action).Carries rel := by
  intro s t hrel r s' hend
  obtain ⟨t', hend', ht⟩ := h s t hrel r s' ((hcalm s t hrel).1.ends_interruptible.1 hend)
  exact ⟨t', (hcalm s t hrel).2.ends_interruptible.2 hend', ht⟩

theorem guarded (hcalm : ∀ s t, rel s t → s.IsCalm ∧ t.IsCalm) {operation : FileOperation}
    {path : Text} {action : Action α} (h : action.Carries rel) :
    (Storage.guarded operation path action).Carries rel := by
  intro s t hrel r s' hend
  obtain ⟨t', hend', ht⟩ := h s t hrel r s' ((hcalm s t hrel).1.ends_guarded.1 hend)
  exact ⟨t', (hcalm s t hrel).2.ends_guarded.2 hend', ht⟩

/-- A relation that is carried by making a directory is carried by making it where it is missing. -/
theorem makeOr {path : Text} {unlessAbove : Failure → Action Unit}
    (hmake : (makeDirectory path).Carries rel) (hlook : (isDirectory path).Carries rel)
    (h : ∀ failure, (unlessAbove failure).Carries rel) : (makeOr path unlessAbove).Carries rel := by
  refine .orElseIf hmake fun failure => ?_
  split
  · exact h failure
  · refine hlook.bind fun found => ?_
    split
    · exact .throw failure
    · exact .pure ()

end Carries

end Action

/-- A directory is made in two sessions if its place is the same, and as free. -/
theorem Action.CarriesFrom.makeDirectory {rel : Session → Session → Prop} {s t : Session}
    {path : Text} (hrel : rel s t)
    (hlocate : t.tree.locate t.here path false = s.tree.locate s.here path false)
    (hget : ∀ place, s.tree.locate s.here path false = .ok place →
      t.tree.get? place = s.tree.get? place)
    (hput : ∀ place, s.tree.locate s.here path false = .ok place → s.tree.get? place = none →
      rel { s with tree := s.tree.put place .directory }
        { t with tree := t.tree.put place .directory }) :
    (Action.makeDirectory path).CarriesFrom rel s t := by
  intro r s' hend
  rcases ends_makeDirectory hend with ⟨failure, herror, rfl, rfl⟩ |
    ⟨place, item, hplace, hitem, rfl, rfl⟩ | ⟨place, hplace, hnone, rfl, rfl⟩
  · exact ⟨t, makeDirectory_unlocated (hlocate.trans herror), hrel⟩
  · exact ⟨t, makeDirectory_taken (hlocate.trans hplace) ((hget place hplace).trans hitem), hrel⟩
  · exact ⟨_, makeDirectory_free (hlocate.trans hplace) ((hget place hplace).trans hnone),
      hput place hplace hnone⟩

/-! ## Sessions with the same files -/

/-- Two sessions in the same place of the same files, in which no call is made to fail. -/
structure Session.SameFiles (s t : Session) : Prop where
  tree : t.tree = s.tree
  here : t.here = s.here
  calm : s.IsCalm ∧ t.IsCalm

theorem Session.SameFiles.symm {s t : Session} (h : s.SameFiles t) : t.SameFiles s :=
  ⟨h.tree.symm, h.here.symm, h.calm.symm⟩

namespace Action

theorem carries_storage_exists?_sameFiles (path : Text) :
    (Storage.exists? path).Carries SameFiles :=
  .interruptible (fun _ _ h => h.calm) <| .of_told
    (fun s => .ok (s.tree.look s.here path false).isOk) ends_exists? fun s t h => by
      rw [h.tree, h.here]

theorem carries_isDirectory_sameFiles (path : Text) : (isDirectory path).Carries SameFiles :=
  .of_told (fun s => judged FileItem.isDirectory (s.tree.look s.here path true)) ends_isDirectory
    fun s t h => by rw [h.tree, h.here]

theorem carries_absolute_sameFiles (path : FilePath) : (absolute path).Carries SameFiles := by
  have hcurrent : currentDirectory.Carries SameFiles := by
    refine .of_told (fun s => if (s.tree.get? s.here).any FileItem.isDirectory then
      .ok s.here.path else .error .lostDirectory) (fun {s r s'} => ?_) fun s t h => by
        rw [h.tree, h.here]
    rw [currentDirectory, ends_get_bind]
    split
    · exact ends_pure
    · exact ends_throw
  unfold absolute
  split
  · exact .pure _
  · exact hcurrent.bind fun _ => .pure _

theorem carries_makeDirectory_sameFiles (path : Text) : (makeDirectory path).Carries SameFiles :=
  fun s t h => .makeDirectory h (by rw [h.tree, h.here]) (fun _ _ => by rw [h.tree])
    fun _ _ _ => ⟨by rw [h.tree], h.here, h.calm⟩

theorem carries_ensureDirectories_sameFiles (path : FilePath) :
    (ensureDirectories path).Carries SameFiles := by
  have hmake : ∀ {path : Text} {unlessAbove : Failure → Action Unit},
      (∀ failure, (unlessAbove failure).Carries SameFiles) →
        (makeOr path unlessAbove).Carries SameFiles :=
    .makeOr (carries_makeDirectory_sameFiles _) (carries_isDirectory_sameFiles _)
  unfold ensureDirectories
  induction path.parts.reverse with
  | nil => exact hmake fun failure => .throw failure
  | cons name above ih =>
      exact hmake fun _ => ih.bind fun _ => hmake fun failure => .throw failure

theorem carries_storage_ensureDirectory_sameFiles (path : Text) :
    (Storage.ensureDirectory path).Carries SameFiles :=
  .guarded (fun _ _ h => h.calm) (carries_ensureDirectories_sameFiles _)

end Action

end Stencil
