import Stencil.Proofs.FileTree.Shape
import Stencil.Proofs.Session.Changes
import Stencil.Proofs.Session.Hindered

/-!
# Writing to files that are there

Writing a text to a file changes that file and nothing else.  The directories
above it are there already, and the shape of the tree stays the same.
-/

namespace Stencil

open FileTree Session Action

/-- One file holds a content, and nothing else is done to the files. -/
structure Session.Sets (place : Location) (content : Content) (s s' : Session) : Prop
    extends s.Agrees s' where
  journal : s'.journal = s.journal
  manifests : s'.manifests = s.manifests
  coming : s'.interruptions <:+ s.interruptions
  well : s.tree.WellFormed → s'.tree.WellFormed
  held : s'.tree.get? place = some (.file content)
  others : ∀ other, other ≠ place → s'.tree.get? other = s.tree.get? other

variable {s m s' : Session} {place rest : Location} {path : FilePath} {text : Text}
  {content old : Content}

namespace Session

theorem Glances.sets (h : s.Glances s') (hget : s.tree.get? place = some (.file content)) :
    s.Sets place content s' :=
  ⟨h.toAgrees, h.journal, h.manifests, h.coming, fun hwell => h.tree ▸ hwell, h.tree ▸ hget,
    fun _ _ => h.tree ▸ rfl⟩

theorem Sets.trans (h : s.Sets place old m) (h' : m.Sets place content s') :
    s.Sets place content s' :=
  ⟨h.toAgrees.trans h'.toAgrees, h'.journal.trans h.journal, h'.manifests.trans h.manifests,
    h'.coming.trans h.coming, h'.well ∘ h.well, h'.held,
    fun other hother => (h'.others other hother).trans (h.others other hother)⟩

theorem Glances.sets_trans (h : s.Glances m) (h' : m.Sets place content s') :
    s.Sets place content s' :=
  ⟨h.toAgrees.trans h'.toAgrees, h'.journal.trans h.journal, h'.manifests.trans h.manifests,
    h'.coming.trans h.coming, fun hwell => h'.well (h.tree ▸ hwell), h'.held,
    fun other hother => (h'.others other hother).trans (h.tree ▸ rfl)⟩

theorem Sets.plans {operation : FileOperation} {called : Text} {failure : Failure}
    (h : s.Sets place content m) (hplans : m.Plans operation called failure) :
    s.Plans operation called failure :=
  hplans.of_later h.faults h.coming

theorem Sets.sameShape (h : s.Sets place content s')
    (hget : s.tree.get? place = some (.file old)) : s.tree.SameShape s'.tree :=
  .of_written hget h.held h.others

theorem Sets.changes (h : s.Sets place content s')
    (hget : s.tree.get? place = some (.file old)) : Changes place s s' :=
  ⟨h.toAgrees, h.journal, h.manifests, (h.sameShape hget).isExtendedBy, fun other hother =>
    h.others other fun heq => hother (heq ▸ List.prefix_rfl)⟩

theorem Sets.region {base : Location} (h : s.Sets place content s')
    (hget : s.tree.get? place = some (.file old)) (hregion : s.tree.Region s.here path base) :
    s'.tree.Region s'.here path base := by
  rw [h.here]
  exact hregion.of_sameShape (h.sameShape hget) (h.well hregion.well)

/-- What is put where a file is takes its place. -/
theorem sets_put (hwell : s.tree.WellFormed) (hget : s.tree.get? place = some (.file old))
    (content : Content) :
    s.Sets place content { s with tree := s.tree.put place (.file content) } := by
  have hne : place ≠ [] := ne_nil_of_get? (show s.tree.get? place ≠ _ by simp [hget])
  refine ⟨⟨rfl, rfl, id⟩, rfl, rfl, List.suffix_rfl, fun _ => ?_, by simp [get?_put hne],
    fun other hother => by simp [get?_put hne, hother]⟩
  exact hwell.put (hwell.hasRoom hne hget) (fun hdirectory => by simp [hget] at hdirectory) rfl

end Session

namespace Action

/-- A file takes the text that is written to it, and a text that cannot be encoded empties it. -/
theorem ends_writeFile_of_locate {r : Except Failure Unit} (hwell : s.tree.WellFormed)
    (hproper : path.IsProper) (hlocate : s.tree.locate s.here path.text true = .ok place)
    (hget : s.tree.get? place = some (.file old)) (h : (writeFile path text).Ends s r s') :
    (∃ bytes, Text.encode text = .ok bytes ∧ r = .ok () ∧ s.Sets place (.bytes bytes) s') ∨
      ∃ error, Text.encode text = .error error ∧ r = .error (.unencodable error) ∧
        s.Sets place (.bytes []) s' := by
  have hnamed : path.parts ≠ [] := FilePath.named_of_locate (by simp [hget]) hlocate
  have hparent := FilePath.look_parent hwell hproper hnamed hlocate
  have hopen : (openForWriting path.text).Ends s (.ok place) s := by
    have hrun := Ends.run (openForWriting path.text) s
    obtain ⟨hsame, hopened⟩ := ends_openForWriting hrun
    rwa [(hopened _).2 ⟨hlocate, by simp [hget]⟩, hsame] at hrun
  rw [writeFile, ((ends_ensureDirectories_of_look hparent).2 ⟨rfl, rfl⟩).bind_iff, writeText,
    hopen.bind_iff, (ends_putContent.2 ⟨rfl, rfl⟩).bind_iff] at h
  have hemptied := sets_put hwell hget (.bytes [])
  rcases ends_bind.1 h with ⟨bytes, t, hlift, hput⟩ | ⟨other, hlift, rfl⟩
  · obtain ⟨hencode, rfl⟩ := ends_lift_mapError_ok.1 hlift
    obtain ⟨rfl, rfl⟩ := ends_putContent.1 hput
    exact .inl ⟨bytes, hencode, rfl,
      hemptied.trans (sets_put (hemptied.well hwell) hemptied.held (.bytes bytes))⟩
  · obtain ⟨⟨error, hencode, rfl⟩, rfl⟩ := ends_lift_mapError_error.1 hlift
    exact .inr ⟨error, hencode, rfl, hemptied⟩

/-- A failure was planned for the call, or the file is written to. -/
theorem ends_storage_write_planned {called : Text} {r : Except Failure Unit}
    (hwell : s.tree.WellFormed)
    (hlocate : s.tree.locate s.here (Storage.plain called) true = .ok place)
    (hget : s.tree.get? place = some (.file old)) (h : (Storage.write called text).Ends s r s') :
    (∃ failure, s.Plans .write called failure ∧ r = .error failure ∧ s.Glances s') ∨
      (∃ bytes, Text.encode text = .ok bytes ∧ r = .ok () ∧ s.Sets place (.bytes bytes) s') ∨
      ∃ error, Text.encode text = .error error ∧ r = .error (.unencodable error) ∧
        s.Sets place (.bytes []) s' := by
  rcases ends_guarded_planned h with hplanned | ⟨m, hglances, hwrite⟩
  · exact .inl hplanned
  · rw [← hglances.tree, ← hglances.here] at hlocate
    rw [← hglances.tree] at hget hwell
    refine .inr ((ends_writeFile_of_locate hwell (FilePath.isProper_ofText called) hlocate hget
      hwrite).imp ?_ ?_)
    · rintro ⟨bytes, hencode, hr, hsets⟩
      exact ⟨bytes, hencode, hr, hglances.sets_trans hsets⟩
    · rintro ⟨error, hencode, hr, hsets⟩
      exact ⟨error, hencode, hr, hglances.sets_trans hsets⟩

end Action

end Stencil
