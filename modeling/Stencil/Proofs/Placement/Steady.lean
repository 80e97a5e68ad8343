import Stencil.Proofs.Placement.Missing

/-!
# Targets that are walked twice

A target that was made is filled first and recorded then.  If no call is
interrupted, both walks are answered alike: filling changes what files hold and
nothing else.  So what recording leaves out has been left out by filling.
-/

namespace Stencil

open FileTree Session Action Placement

/-- A session without interruptions, with some faults and a tree of a shape. -/
structure Session.IsSteady (tree : FileTree) (here : Location) (faults : List PlannedFault)
    (s : Session) : Prop extends HasShape tree here s where
  faults_eq : s.faults = faults
  quiet : s.interruptions = []

/-- What a call that looks around is answered: the first fault that concerns it, or what the files
say. -/
def PlannedFault.answer {α : Type} (faults : List PlannedFault) (operation : FileOperation)
    (path : Text) (told : Except Failure α) : Except Failure α :=
  match faults.find? (·.concerns operation path) with
  | some fault => .error fault.failure
  | none => told

variable {α β : Type} {s m t t' s' : Session} {tree later : FileTree} {here : Location}
  {faults : List PlannedFault} {operation : FileOperation} {called name : Text} {path : FilePath}
  {names warnings before after : List Text} {failure : Failure} {vars : Variables} {depth : Nat}
  {note : Journal → Text → Journal} {miss : Miss}

/-! ## Answers -/

namespace Action

theorem ends_guarded_of_quiet {action : Action α} {told r : Except Failure α}
    (hquiet : s.interruptions = []) (haction : ∀ {r s'}, action.Ends s r s' ↔ r = told ∧ s' = s) :
    (Storage.guarded operation called action).Ends s r s' ↔
      r = PlannedFault.answer s.faults operation called told ∧ s' = s := by
  rw [Storage.guarded, Storage.interruptible, Storage.nextInterruption]
  simp only [bind_assoc, ends_get_bind, hquiet, pure_bind]
  rw [PlannedFault.answer]
  cases s.faults.find? (·.concerns operation called) with
  | some fault => exact ends_throw
  | none => exact haction

end Action

theorem FileTree.SameShape.namesAt_error (h : tree.SameShape later)
    (hnames : namesAt tree here called = .error failure) :
    namesAt later here called = .error failure := by
  unfold namesAt at hnames ⊢
  rw [h.locate_eq]
  cases hlocate : tree.locate here called true with
  | error other => rwa [hlocate] at hnames
  | ok place =>
      rw [hlocate] at hnames
      dsimp only at hnames ⊢
      cases hget : tree.get? place with
      | none =>
          rw [hget] at hnames
          rwa [h.get?_eq (by simp [hget]), hget]
      | some item =>
          rw [hget] at hnames
          obtain ⟨other, hother, houtline⟩ := h.isExtendedBy _ _ hget
          rw [hother]
          cases item with
          | directory => cases hnames
          | file content =>
              obtain ⟨more, rfl⟩ := FileItem.outline_eq_file.1 houtline
              exact hnames
          | link target =>
              obtain rfl := FileItem.outline_eq_link.1 houtline
              exact hnames

namespace Session.IsSteady

theorem of_agrees (h : s.IsSteady tree here faults) (hagrees : s.Agrees s')
    (hshape : s'.HasShape tree here) : s'.IsSteady tree here faults :=
  ⟨hshape, hagrees.faults.trans h.faults_eq, hagrees.calm h.quiet⟩

theorem of_notes (h : s.IsSteady tree here faults) (hnotes : s.Notes s') :
    s'.IsSteady tree here faults :=
  h.of_agrees hnotes.toAgrees
    ⟨hnotes.tree ▸ h.shape, hnotes.here.trans h.here, hnotes.tree ▸ h.well⟩

theorem of_glances (h : s.IsSteady tree here faults) (hglances : s.Glances s') :
    s'.IsSteady tree here faults :=
  h.of_notes hglances.notes

variable (hs : s.IsSteady tree here faults) (ht : t.IsSteady tree here faults)
include hs

theorem ends_item {r : Except Failure FileItem} : (Storage.item called).Ends s r s' ↔
    r = PlannedFault.answer faults .stat called (s.tree.look here called true) ∧ s' = s := by
  rw [← hs.faults_eq, ← hs.here]
  exact ends_guarded_of_quiet hs.quiet ends_look

theorem ends_names {r : Except Failure (List Text)} : (Storage.names called).Ends s r s' ↔
    r = PlannedFault.answer faults .list called (namesAt s.tree here called) ∧ s' = s := by
  rw [← hs.faults_eq, ← hs.here]
  exact ends_guarded_of_quiet hs.quiet ends_namesIn

include ht

theorem sameShape : t.tree.SameShape s.tree := ht.shape.symm.trans hs.shape

/-- Directories and failures are found alike. -/
theorem ends_item_alike {r : Except Failure FileItem}
    (hr : r = .ok .directory ∨ ∃ failure, r = .error failure)
    (h : (Storage.item called).Ends t r t') : (Storage.item called).Ends s r s := by
  obtain ⟨htold, -⟩ := ht.ends_item.1 h
  refine hs.ends_item.2 ⟨?_, rfl⟩
  rw [PlannedFault.answer] at htold ⊢
  split
  · rename_i fault hfault
    rwa [hfault] at htold
  · rename_i hnone
    rw [hnone] at htold
    dsimp only at htold
    rcases hr with rfl | ⟨failure, rfl⟩
    · exact ((hs.sameShape ht).look_directory htold.symm).symm
    · exact ((hs.sameShape ht).look_error htold.symm).symm

theorem fails_names (h : (Storage.names called).Ends t (.error failure) t') :
    (Storage.names called).Ends s (.error failure) s := by
  obtain ⟨htold, -⟩ := ht.ends_names.1 h
  refine hs.ends_names.2 ⟨?_, rfl⟩
  rw [PlannedFault.answer] at htold ⊢
  split
  · rename_i fault hfault
    rwa [hfault] at htold
  · rename_i hnone
    rw [hnone] at htold
    exact ((hs.sameShape ht).namesAt_error htold.symm).symm

theorem lists_names (h : (Storage.names called).Ends t (.ok names) t') :
    ∃ others, (Storage.names called).Ends s (.ok others) s ∧ ∀ name ∈ names, name ∈ others := by
  obtain ⟨htold, -⟩ := ht.ends_names.1 h
  rw [PlannedFault.answer] at htold
  split at htold
  · cases htold
  · rename_i hnone
    obtain ⟨place, hlocate, hget, rfl⟩ := namesAt_eq_ok_iff.1 htold.symm
    have hshape := hs.sameShape ht
    have hnames : namesAt s.tree here called = .ok (s.tree.names place) :=
      namesAt_eq_ok_iff.2
        ⟨place, hshape.locate_eq.trans hlocate, hshape.isExtendedBy.directory hget, rfl⟩
    refine ⟨s.tree.names place, hs.ends_names.2 ⟨?_, rfl⟩, fun name hname => ?_⟩
    · rw [PlannedFault.answer, hnone]
      exact hnames.symm
    · exact (hshape.mem_names_iff ht.well hs.well).2 hname

end Session.IsSteady

/-! ## Filling keeps the shape -/

namespace Placement

/-- A session stays steady. -/
def StaysSteady (tree : FileTree) (here : Location) (faults : List PlannedFault)
    (s s' : Session) : Prop :=
  s.IsSteady tree here faults → s'.IsSteady tree here faults

theorem discipline_steady : Discipline (StaysSteady tree here faults) :=
  ⟨fun _ => id, fun h h' => h' ∘ h⟩

theorem steady_printWarning (message : Text) :
    (printWarning message).Follows (StaysSteady tree here faults) :=
  fun _ _ _ h hs => hs.of_glances (glances_printWarning _ _ _ _ h)

theorem steady_fillFile {r : Except Failure (List Text)} {content : Content}
    (hs : s.IsSteady tree here faults) (hproper : path.IsProper)
    (hlook : s.tree.look s.here path.text true = .ok (.file content))
    (h : (fillFile path.text vars).Ends s r s') : s'.IsSteady tree here faults := by
  obtain ⟨place, hlocate, hget⟩ := look_eq_ok_iff.1 hlook
  have hplain : Storage.plain path.text = path.text := congrArg FilePath.text hproper.ofText_text
  obtain ⟨ending, later, -, -, hsets⟩ :=
    Action.ends_fillFile_of_locate hs.well (by rwa [hplain]) hget h
  exact hs.of_agrees hsets.toAgrees (hs.toHasShape.of_sets hget hsets)

theorem steady_fillItem {descend : Text → Action (List Text)}
    (hdescend : ∀ called, (descend called).Follows (StaysSteady tree here faults))
    (hproper : path.IsProper) (name : Text) :
    (fillItem descend path vars name).Follows (StaysSteady tree here faults) := by
  intro s r s' h hs
  obtain ⟨found, m, hitem, hnext⟩ := ends_attempt_bind.1 h
  have hm := hs.of_glances (ends_item_planned hitem).1
  obtain ⟨hlooks, htold, -⟩ := ends_storage_item hitem
  cases found with
  | error failure =>
      exact discipline_steady.orThrow
        (follows_skipped_of discipline_steady steady_printWarning _ _ _) _ _ _ hnext hm
  | ok item =>
      cases item with
      | directory => exact hdescend _ _ _ _ hnext hm
      | link target => exact discipline_steady.pure _ _ _ _ hnext hm
      | file content =>
          have hlook := htold _ rfl
          rw [← hlooks.tree, ← hlooks.here] at hlook
          exact steady_fillFile hm (hproper.child name) hlook hnext

theorem steady_fillDirectory (depth : Nat) (called : Text) :
    (fillDirectory vars depth called).Follows (StaysSteady tree here faults) :=
  follows_fillDirectory_of discipline_steady (fun _ _ hpeeks hs => hs.of_notes hpeeks.notes)
    steady_printWarning (fun _ hdescend _ hproper name => steady_fillItem hdescend hproper name)
    depth called

theorem steady_fillStep (hproper : path.IsProper) (name : Text) :
    (fillStep vars depth path name).Follows (StaysSteady tree here faults) := by
  refine steady_fillItem (fun called => ?_) hproper name
  cases depth with
  | zero => exact discipline_steady.pure _
  | succ depth => exact steady_fillDirectory depth called

theorem steady_recordStep (name : Text) :
    (recordStep note depth path name).Follows (StaysSteady tree here faults) :=
  (gathers_recordStep depth path name).mono fun _ _ hgathers hs => hs.of_notes hgathers.toNotes

/-- Filling what is there at a path keeps the shape. -/
theorem steady_fill {r : Except Failure (List Text)} (hs : s.IsSteady tree here faults)
    (hproper : path.IsProper) (hthere : ∃ item, s.tree.look s.here path.text true = .ok item)
    (h : (fill path.text vars).Ends s r s') : s'.IsSteady tree here faults := by
  rw [fill, hproper.ofText_text] at h
  rcases ends_bind.1 h with ⟨found, m, hdirectory, hnext⟩ | ⟨failure, hdirectory, -⟩
  case inr => exact hs.of_notes (ends_storage_isDirectory hdirectory).1.notes
  obtain ⟨hlooks, htold, -⟩ := ends_storage_isDirectory hdirectory
  have hm := hs.of_notes hlooks.notes
  obtain ⟨item, hlook⟩ := hthere
  have hfound := htold found rfl
  rw [hlook] at hfound
  cases hfound
  cases item with
  | directory => exact steady_fillDirectory _ _ _ _ _ hnext hm
  | link target => exact absurd hlook (look_not_link hs.well target)
  | file content =>
      exact steady_fillFile hm hproper (by rwa [hlooks.tree, hlooks.here]) hnext

/-! ## Both walks leave out the same -/

/-- Both walks come to a name, and then they are answered alike. -/
theorem exists_through_fillStep (hs : s.IsSteady tree here faults)
    (ht : t.IsSteady tree here faults) (hproper : path.IsProper)
    (hnames : (Storage.names path.text).Ends t (.ok (before ++ name :: after)) m)
    (hearlier : Through (recordStep note depth path) before m t')
    (h : (fillDirectory vars depth path.text).Ends s (.ok warnings) s') :
    ∃ front back u, (Storage.names path.text).Ends s (.ok (front ++ name :: back)) s ∧
      Through (fillStep vars depth path) front s u ∧
      u.IsSteady tree here faults ∧ t'.IsSteady tree here faults := by
  -- only which names there are is known to be kept, so others may come before this one
  obtain ⟨others, hothers, hmem⟩ := hs.lists_names ht hnames
  obtain ⟨front, back, rfl⟩ :=
    List.append_of_mem (hmem name (List.mem_append_right _ List.mem_cons_self))
  rw [fillDirectory_eq, hproper.ofText_text] at h
  obtain ⟨found, m', hfound, hnext⟩ := ends_attempt_bind.1 h
  obtain ⟨rfl, rfl⟩ := hfound.unique hothers
  obtain ⟨results, v, hmapped, -⟩ := ends_bind_ok.1 hnext
  obtain ⟨u, hthrough⟩ := exists_through_mapM hmapped
  exact ⟨front, back, u, hothers, hthrough,
    hthrough.follows discipline_steady (fun name _ => steady_fillStep hproper name) hs,
    hearlier.follows discipline_steady (fun name _ => steady_recordStep name)
      (ht.of_glances (ends_names_planned hnames).1)⟩

/-- What recording leaves out, filling leaves out in a session alike. -/
theorem misses_fillStep (hmiss : Misses (recordStep note) depth path t miss)
    (ht : t.IsSteady tree here faults) (hs : s.IsSteady tree here faults)
    (hproper : path.IsProper)
    (h : (fillDirectory vars depth path.text).Ends s (.ok warnings) s') :
    Misses (fillStep vars) depth path s miss := by
  induction hmiss generalizing s s' warnings with
  | directory fails => exact .directory (hs.fails_names ht fails)
  | item names earlier fails =>
      obtain ⟨front, back, u, hnames, hthrough, hu, ht'⟩ :=
        exists_through_fillStep hs ht hproper names earlier h
      exact .item hnames hthrough (hu.ends_item_alike ht' (.inr ⟨_, rfl⟩) fails)
  | inner names earlier item misses ih =>
      obtain ⟨front, back, u, hnames, hthrough, hu, ht'⟩ :=
        exists_through_fillStep hs ht hproper names earlier h
      have hitem := hu.ends_item_alike ht' (.inl rfl) item
      obtain ⟨own, u', hown, -⟩ := exists_fillStep hproper h hnames hthrough
      obtain ⟨found, m', hfound, hnext⟩ := ends_attempt_bind.1 hown
      obtain ⟨rfl, rfl⟩ := hfound.unique hitem
      exact .inner hnames hthrough hitem
        (ih (ht'.of_glances (ends_item_planned item).1) hu (hproper.child _) hnext)

theorem missedFrom_fillStep (hs : s.IsSteady tree here faults) (ht : t.IsSteady tree here faults)
    (hproper : path.IsProper) (h : (fill path.text vars).Ends s (.ok warnings) s')
    (hmiss : MissedFrom (recordStep note) path t miss) :
    MissedFrom (fillStep vars) path s miss := by
  obtain ⟨t', htold, hmisses⟩ := hmiss
  rw [fill, hproper.ofText_text] at h
  obtain ⟨found, m, hdirectory, hnext⟩ := ends_bind_ok.1 h
  obtain ⟨hlooks, hfound, -⟩ := ends_storage_isDirectory hdirectory
  obtain ⟨hlooks', htold, -⟩ := ends_storage_isDirectory htold
  have hlook : s.tree.look s.here path.text true = .ok .directory := by
    rw [hs.here, ← ht.here]
    exact (hs.sameShape ht).look_directory (judged_isDirectory.1 (htold _ rfl))
  obtain rfl : found = true := by
    have hjudged := hfound found rfl
    rw [hlook] at hjudged
    exact (Except.ok.inj hjudged).symm
  exact ⟨m, hdirectory, misses_fillStep hmisses (ht.of_notes hlooks'.notes)
    (hs.of_notes hlooks.notes) hproper hnext⟩

end Placement

end Stencil
