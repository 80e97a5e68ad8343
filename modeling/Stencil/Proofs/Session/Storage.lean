import Stencil.Proofs.Session.Files

/-!
# Looking around in storage

What the calls that only look around tell when they succeed, and that they tell
it if no call is made to fail.
-/

namespace Stencil.Action

open FileTree Session

variable {α : Type} {s m s' : Session} {path : Text} {content : Content}

theorem looks_of_eq (h : s = s') : s.Looks s' := h ▸ .refl s

/-- Calls that only look around tell what the files say, or fail. -/
theorem ends_interruptible_of_pure {action : Action α} (told : Session → Except Failure α)
    (haction : ∀ {s r s'}, action.Ends s r s' → r = told s ∧ s' = s)
    (htold : ∀ {s s' : Session}, s.Looks s' → told s' = told s) {r : Except Failure α}
    (h : (Storage.interruptible action).Ends s r s') :
    s.Looks s' ∧ (∀ a, r = .ok a → told s = .ok a) ∧ (s.IsCalm → r = told s) := by
  refine ⟨?_, ?_, fun hcalm => (haction (hcalm.ends_interruptible.1 h)).1⟩
  · exact discipline_looks.interruptible (fun _ _ => id)
      (fun _ _ _ hend => looks_of_eq (haction hend).2.symm) _ _ _ h
  · rintro a rfl
    rcases ends_interruptible h with ⟨_, hr, -⟩ | ⟨m, hlooks, hend⟩
    · cases hr
    · rw [← htold hlooks, ← (haction hend).1]

theorem ends_guarded_of_pure {operation : FileOperation} {action : Action α}
    {told : Session → Except Failure α}
    (haction : ∀ {s r s'}, action.Ends s r s' → r = told s ∧ s' = s)
    (htold : ∀ {s s' : Session}, s.Looks s' → told s' = told s) {r : Except Failure α}
    (h : (Storage.guarded operation path action).Ends s r s') :
    s.Looks s' ∧ (∀ a, r = .ok a → told s = .ok a) ∧ (s.IsCalm → r = told s) := by
  refine ⟨?_, ?_, fun hcalm => (haction (hcalm.ends_guarded.1 h)).1⟩
  · exact discipline_looks.guarded (fun _ _ => id)
      (fun _ _ _ hend => looks_of_eq (haction hend).2.symm) _ _ _ h
  · rintro a rfl
    rcases ends_guarded h with ⟨_, hr, -⟩ | ⟨m, hlooks, hend⟩
    · cases hr
    · rw [← htold hlooks, ← (haction hend).1]

theorem ends_storage_exists? {r : Except Failure Bool}
    (h : (Storage.exists? path).Ends s r s') :
    s.Looks s' ∧ (∀ found, r = .ok found → (s.tree.look s.here path false).isOk = found) ∧
      (s.IsCalm → r = .ok (s.tree.look s.here path false).isOk) := by
  obtain ⟨hlooks, hok, hcalm⟩ := ends_interruptible_of_pure
    (fun s => .ok (s.tree.look s.here path false).isOk) ends_exists?.1
    (fun hlooks => by rw [hlooks.tree, hlooks.here]) h
  exact ⟨hlooks, fun found hr => Except.ok.inj (hok found hr), hcalm⟩

theorem ends_storage_exists?_of_look (hcalm : s.IsCalm)
    (h : (s.tree.look s.here path false).isOk = true) :
    (Storage.exists? path).Ends s (.ok true) s := by
  rw [Storage.exists?, hcalm.ends_interruptible, ends_exists?, h]
  exact ⟨rfl, rfl⟩

theorem ends_storage_isDirectory {r : Except Failure Bool}
    (h : (Storage.isDirectory path).Ends s r s') :
    s.Looks s' ∧ (∀ found, r = .ok found →
        judged FileItem.isDirectory (s.tree.look s.here path true) = .ok found) ∧
      (s.IsCalm → r = judged FileItem.isDirectory (s.tree.look s.here path true)) :=
  ends_interruptible_of_pure (fun s => judged FileItem.isDirectory (s.tree.look s.here path true))
    ends_isDirectory.1 (fun hlooks => by rw [hlooks.tree, hlooks.here]) h

theorem ends_storage_item {r : Except Failure FileItem} (h : (Storage.item path).Ends s r s') :
    s.Looks s' ∧ (∀ item, r = .ok item → s.tree.look s.here path true = .ok item) ∧
      (s.IsCalm → r = s.tree.look s.here path true) :=
  ends_guarded_of_pure ends_look.1 (fun hlooks => by rw [hlooks.tree, hlooks.here]) h

theorem ends_storage_names {r : Except Failure (List Text)}
    (h : (Storage.names path).Ends s r s') :
    s.Looks s' ∧ (∀ names, r = .ok names → namesAt s.tree s.here path = .ok names) ∧
      (s.IsCalm → r = namesAt s.tree s.here path) :=
  ends_guarded_of_pure ends_namesIn.1 (fun hlooks => by rw [hlooks.tree, hlooks.here]) h

/-! ## Reading -/

/-- What reading a file gives if nothing keeps it from being read. -/
def textOf : Content → Except Failure Text
  | .bytes bytes => ((Text.decode bytes).mapError .undecodable).map Text.unifyLineEnds
  | .program _ => .ok []

theorem ends_readText {r : Except Failure Text}
    (hlook : s.tree.look s.here path true = .ok (.file content))
    (h : (readText path).Ends s r s') : r = textOf content ∧ s' = s := by
  have hread : (readContent path).Ends s (.ok content) s := by
    have hrun := Ends.run (readContent path) s
    obtain ⟨hsame, hcontent⟩ := ends_readContent hrun
    rwa [(hcontent content).2 hlook, hsame] at hrun
  rw [readText, hread.bind_iff] at h
  cases content with
  | program program => exact ends_pure.1 h
  | bytes bytes =>
      dsimp only at h
      cases hdecode : Text.decode bytes with
      | ok text =>
          rw [hdecode, Except.mapError, Ends.bind_iff (ends_lift.2 ⟨rfl, rfl⟩)] at h
          simpa [textOf, hdecode, Except.mapError, Except.map] using ends_pure.1 h
      | error error =>
          rw [hdecode] at h
          rcases ends_bind.1 h with ⟨text, t, hlift, -⟩ | ⟨failure, hlift, rfl⟩
          · cases (ends_lift.1 hlift).1
          · obtain ⟨hr, rfl⟩ := ends_lift.1 hlift
            cases hr
            simp [textOf, hdecode, Except.mapError, Except.map]

theorem follows_readText (path : Text) : (readText path).Follows Eq := by
  refine discipline_eq.bind (fun _ _ _ h => (ends_readContent h).1.symm) fun content => ?_
  cases content with
  | program program => exact discipline_eq.pure _
  | bytes bytes => exact discipline_eq.bind (discipline_eq.lift _) fun _ => discipline_eq.pure _

theorem follows_storage_readText (path : Text) : (Storage.readText path).Follows Looks :=
  discipline_looks.guarded (fun _ _ => id) ((follows_readText _).mono fun _ _ => looks_of_eq)

end Stencil.Action
