import Stencil.Proofs.Placement.Filling
import Stencil.Proofs.Placement.Recording
import Stencil.Proofs.Session.Copy

/-!
# Placed targets

A target is made at a free place, and what is there already is preserved.
Whatever fails on the way, nothing that was there before is changed or removed.
-/

namespace Stencil

open FileTree Session Action Placement

/-! ## Adding -/

/-- Everything is kept and no link is new. -/
structure FileTree.IsAddedTo (tree later : FileTree) : Prop where
  well : later.WellFormed
  kept : tree.IsKeptBy later
  unlinked : ∀ place target, later.get? place = some (.link target) →
    tree.get? place = some (.link target)

/-- What placing does to a session at most. -/
structure Session.Grows (s s' : Session) : Prop extends s.Agrees s' where
  manifests : s'.manifests = s.manifests
  added : s.tree.IsAddedTo s'.tree

def Session.Adds (s s' : Session) : Prop := s.tree.WellFormed → s.Grows s'

variable {s m s' : Session} {tree later : FileTree} {here place : Location}
  {suffix text : Text} {source target path : FilePath} {vars : Variables}

namespace FileTree

theorem IsAddedTo.refl (hwell : tree.WellFormed) : tree.IsAddedTo tree :=
  ⟨hwell, .refl tree, fun _ _ => id⟩

theorem IsAddedTo.trans {latest : FileTree} (h : tree.IsAddedTo later)
    (h' : later.IsAddedTo latest) : tree.IsAddedTo latest :=
  ⟨h'.well, h.kept.trans h'.kept, fun place target hlink =>
    h.unlinked place target (h'.unlinked place target hlink)⟩

/-- Below a place that was free there are no links. -/
theorem IsAddedTo.unlinked_below (h : tree.IsAddedTo later) (hwell : tree.WellFormed)
    (hfree : tree.get? place = none) (below : Location) (target : Text) :
    later.get? (place ++ below) ≠ some (.link target) := by
  intro hlink
  have hold := h.unlinked _ _ hlink
  rw [hwell.get?_below hfree below] at hold
  cases hold

theorem AddsDirectories.isAddedTo (h : tree.AddsDirectories later) (hwell : later.WellFormed) :
    tree.IsAddedTo later := by
  refine ⟨hwell, h.kept, fun place target hlink => ?_⟩
  rcases h.added _ _ hlink with hold | ⟨-, hitem⟩
  · exact hold
  · cases hitem

/-- A region that was put at a free place. -/
theorem ChangesBelow.isAddedTo (h : ChangesBelow place tree later) (hwell : tree.WellFormed)
    (hfree : tree.get? place = none) (hregion : later.Region here path place) :
    tree.IsAddedTo later := by
  refine ⟨hregion.well, h.isKeptBy hwell hfree, fun other target hlink => ?_⟩
  by_cases hprefix : place <+: other
  · obtain ⟨rest, rfl⟩ := hprefix
    exact absurd hlink (hregion.unlinked rest target)
  · rwa [h.outside other hprefix] at hlink

end FileTree

namespace Session

theorem Notes.adds (h : s.Notes s') : s.Adds s' :=
  fun hwell => ⟨h.toAgrees, h.manifests, by rw [h.tree]; exact .refl hwell⟩

theorem Looks.adds (h : s.Looks s') : s.Adds s' := h.notes.adds

theorem Grows.trans (h : s.Grows m) (h' : m.Grows s') : s.Grows s' :=
  ⟨h.toAgrees.trans h'.toAgrees, h'.manifests.trans h.manifests, h.added.trans h'.added⟩

theorem Adds.refl (s : Session) : s.Adds s := (Looks.refl s).adds

theorem Adds.trans (h : s.Adds m) (h' : m.Adds s') : s.Adds s' :=
  fun hwell => (h hwell).trans (h' (h hwell).added.well)

end Session

namespace Action

theorem discipline_adds : Discipline Adds := ⟨Adds.refl, Adds.trans⟩

theorem Ensures.addsAll (h : Ensures s s') : s.Adds s' :=
  fun hwell => ⟨h.toAgrees, h.manifests, (h.adds hwell).2.isAddedTo (h.adds hwell).1⟩

/-! ## Ensuring directories -/

theorem follows_storage_ensureDirectory (path : Text) :
    (Storage.ensureDirectory path).Follows Ensures :=
  discipline_ensures.guarded (fun _ _ h => ⟨h.toAgrees, h.journal, h.manifests,
    fun hwell => ⟨by rwa [h.tree], by rw [h.tree]; exact .refl _⟩⟩) (follows_ensureDirectories _)

theorem look_of_storage_ensureDirectory (hwell : s.tree.WellFormed) (hproper : path.IsProper)
    (h : (Storage.ensureDirectory path.text).Ends s (.ok ()) s') :
    s'.tree.look s'.here path.text true = .ok .directory := by
  rcases ends_guarded h with ⟨_, hr, -⟩ | ⟨m, hlooks, hensure⟩
  · cases hr
  · rw [hproper.ofText_text] at hensure
    exact look_of_ensureDirectories (by rwa [hlooks.tree]) hensure

/-- Nothing is left to do for a directory that is there. -/
theorem ends_storage_ensureDirectory_of_look (hcalm : s.IsCalm) (hproper : path.IsProper)
    (hlook : s.tree.look s.here path.text true = .ok .directory) {r : Except Failure Unit} :
    (Storage.ensureDirectory path.text).Ends s r s' ↔ r = .ok () ∧ s' = s := by
  rw [Storage.ensureDirectory, hcalm.ends_guarded, hproper.ofText_text,
    ends_ensureDirectories_of_look hlook]

/-! ## Sources -/

end Action

namespace Placement

/-- The source that a name stands for: its own path, or the one with the suffix. -/
def sourceIn (tree : FileTree) (here : Location) (suffix : Text) (source : FilePath) : FilePath :=
  if (tree.look here source.text false).isOk then .ofText source.text
  else .ofText (source.text ++ suffix)

end Placement

namespace Action

theorem ends_findSource {r : Except Failure FilePath}
    (h : (findSource suffix source).Ends s r s') :
    s.Looks s' ∧ ∀ found, r = .ok found →
      FilePath.ofText found.text = sourceIn s.tree s.here suffix source := by
  rcases ends_bind.1 h with ⟨isThere, m, hexists, hnext⟩ | ⟨failure, hexists, rfl⟩
  case inr => exact ⟨(ends_storage_exists? hexists).1, by simp⟩
  obtain ⟨hlooks, htold, -⟩ := ends_storage_exists? hexists
  have hthere := htold isThere rfl
  cases isThere with
  | true =>
      obtain ⟨rfl, rfl⟩ := ends_pure.1 hnext
      refine ⟨hlooks, ?_⟩
      rintro found ⟨⟩
      rw [sourceIn, if_pos hthere]
  | false =>
      rcases ends_bind.1 hnext with ⟨isThere, m', hexists', hlast⟩ | ⟨failure, hexists', rfl⟩
      case inr => exact ⟨hlooks.trans (ends_storage_exists? hexists').1, by simp⟩
      have hlooks' := hlooks.trans (ends_storage_exists? hexists').1
      split at hlast
      · obtain ⟨rfl, rfl⟩ := ends_pure.1 hlast
        refine ⟨hlooks', ?_⟩
        rintro found ⟨⟩
        rw [sourceIn, if_neg (by simp [hthere]), (FilePath.isProper_ofText _).ofText_text]
      · obtain ⟨rfl, rfl⟩ := ends_throw.1 hlast
        exact ⟨hlooks', by simp⟩

/-! ## Making a target -/

/-- What making a target did, if no call was made to fail. -/
structure Made (suffix : Text) (source target : FilePath) (vars : Variables) (place : Location)
    (s s' : Session) : Prop where
  isThere : (s'.tree.get? place).isSome
  recorded : ∃ warnings files, s'.tree.ListsFiles place files ∧
    s'.journal = ⟨s.journal.created ++ files.map fun file => (target.below file).text,
      s.journal.existing, s.journal.warnings ++ warnings⟩
  filled : ∀ rest content, Location.IsProper rest →
    s.tree.HoldsFile s.here (sourceIn s.tree s.here suffix source).text
      ((sourceIn s.tree s.here suffix source).parts ++ rest) content →
    ∃ later, Placement.filled vars (target.below rest) content = .ok later ∧
      s'.tree.get? (place ++ rest) = some (.file later)

theorem foldl_create (paths : List Text) (journal : Journal) :
    paths.foldl Journal.create journal = { journal with created := journal.created ++ paths } := by
  induction paths generalizing journal with
  | nil => simp
  | cons path paths ih => simp [ih, Journal.create]

theorem foldl_preserve (paths : List Text) (journal : Journal) :
    paths.foldl Journal.preserve journal =
      { journal with existing := journal.existing ++ paths } := by
  induction paths generalizing journal with
  | nil => simp
  | cons path paths ih => simp [ih, Journal.preserve]

/-- What the journal gets of a target that was made, whichever calls failed. -/
def Reported (target : FilePath) (s s' : Session) : Prop :=
  ∃ warnings files : List Text,
    s'.journal = ⟨s.journal.created ++ files, s.journal.existing, s.journal.warnings ++ warnings⟩ ∧
    ∀ file ∈ files, s'.tree.HasBelow s'.here target file

/-- A copy fills the free place of its target, unless it is made to fail and does nothing. -/
theorem ends_storage_copy {r : Except Failure Unit} {failure : Failure} (hwell : s.tree.WellFormed)
    (htarget : target.IsProper)
    (hparent : s.tree.look s.here target.parent.text true = .ok .directory)
    (hfree : s.tree.look s.here target.text false = .error failure)
    (h : (Storage.copy text target.text).Ends s r s') :
    s.Looks s' ∧ r ≠ .ok () ∨ ∃ place, s.tree.get? place = none ∧ ∃ m, s.Looks m ∧
      CopyEnds target place [] (FilePath.ofText text).text (FilePath.ofText text).parts m r s' := by
  rcases ends_guarded h with ⟨_, rfl, hlooks⟩ | ⟨m, hlooks, hend⟩
  · exact .inl ⟨hlooks, by simp⟩
  rw [htarget.ofText_text] at hend
  rcases ends_copy (by rwa [hlooks.tree]) (FilePath.isProper_ofText _) htarget
    (by rwa [hlooks.tree, hlooks.here]) (by rwa [hlooks.tree, hlooks.here]) hend with
    ⟨rfl, hr⟩ | ⟨place, hget, -, hends⟩
  · exact .inl ⟨hlooks, hr⟩
  · exact .inr ⟨place, by rwa [hlooks.tree] at hget, m, hlooks, hends⟩

/-- The source that is found is what is copied. -/
theorem ends_findSource_copy {r : Except Failure Unit} {failure : Failure}
    (hwell : s.tree.WellFormed) (htarget : target.IsProper)
    (hparent : s.tree.look s.here target.parent.text true = .ok .directory)
    (hfree : s.tree.look s.here target.text false = .error failure)
    (h : (do Storage.copy (← findSource suffix source).text target.text : Action Unit).Ends s r s') :
    s.Looks s' ∧ r ≠ .ok () ∨ ∃ place, s.tree.get? place = none ∧ ∃ m, s.Looks m ∧
      CopyEnds target place [] (sourceIn s.tree s.here suffix source).text
        (sourceIn s.tree s.here suffix source).parts m r s' := by
  rcases ends_bind.1 h with ⟨found, m, hfind, hcopy⟩ | ⟨_, hfind, rfl⟩
  case inr => exact .inl ⟨(ends_findSource hfind).1, by simp⟩
  obtain ⟨hlooks, hfound⟩ := ends_findSource hfind
  rw [← hlooks.tree] at hwell
  rw [← hlooks.tree, ← hlooks.here] at hparent hfree
  rcases ends_storage_copy hwell htarget hparent hfree hcopy with
    ⟨hlooks', hr⟩ | ⟨place, hget, u, hlooks', hends⟩
  · exact .inl ⟨hlooks.trans hlooks', hr⟩
  · rw [hfound found rfl] at hends
    rw [hlooks.tree] at hget
    exact .inr ⟨place, hget, u, hlooks.trans hlooks', hends⟩

/-- What is told of a target once it was filled: the warnings, and its files. -/
theorem ends_tell {r : Except Failure Unit} {warnings : List Text}
    (hregion : s.tree.Region s.here target place) (hthere : (s.tree.get? place).isSome)
    (h : (do
      updateJournal fun journal => journal.warn warnings
      record Journal.create target.text : Action Unit).Ends s r s') :
    s.Notes s' ∧ Reported target s s' ∧ (s.IsCalm → r = .ok () → ∃ files,
      s.tree.ListsFiles place files ∧ s'.journal =
        ⟨s.journal.created ++ files.map fun file => (target.below file).text, s.journal.existing,
          s.journal.warnings ++ warnings⟩) := by
  have hproper := hregion.leads.proper
  have hrecord : (record Journal.create target.text).Ends
      { s with journal := s.journal.warn warnings } r s' := ends_modify_bind.1 h
  have hwarned : s.Notes { s with journal := s.journal.warn warnings } :=
    ⟨⟨rfl, rfl, id⟩, rfl, rfl⟩
  have hnotes := hwarned.trans (follows_record _ _ _ _ hrecord)
  refine ⟨hnotes, ?_, fun hcalm hr => ?_⟩
  · obtain ⟨-, files, hjournal, hfiles⟩ :=
      tells_of_record (s := { s with journal := s.journal.warn warnings }) hproper
        (isOk_iff.2 (hregion.exists_look hthere)) hrecord hregion.well
    refine ⟨warnings, files, ?_, by rwa [hnotes.tree, hnotes.here]⟩
    rw [hjournal, foldl_create]
    rfl
  · obtain ⟨files, hfiles, hexpand⟩ := expand_region hregion hthere
    rcases ends_record (hwarned.isCalm hcalm) hregion.well hproper hrecord with
      ⟨paths, hpaths, hrecords⟩ | ⟨_, _, hr', -⟩
    · obtain rfl := Except.ok.inj (hexpand.symm.trans hpaths)
      refine ⟨files, hfiles, ?_⟩
      rw [hrecords.journal, foldl_create]
      rfl
    · rw [hr] at hr'
      cases hr'

/-- A target is made at a free place, or nothing is done to the files. -/
theorem ends_make {r : Except Failure Unit} {failure : Failure} (hwell : s.tree.WellFormed)
    (htarget : target.IsProper)
    (hparent : s.tree.look s.here target.parent.text true = .ok .directory)
    (hfree : s.tree.look s.here target.text false = .error failure)
    (h : (make suffix source target vars).Ends s r s') :
    s.Looks s' ∧ r ≠ .ok () ∨
      ∃ place, s.tree.get? place = none ∧ s'.tree.Region s'.here target place ∧
        ChangesBelow place s.tree s'.tree ∧ s.Agrees s' ∧ s'.manifests = s.manifests ∧
        (r = .ok () → Reported target s s') ∧
        (s.IsCalm → r = .ok () → Made suffix source target vars place s s') := by
  rw [make, ← bind_assoc] at h
  rcases ends_bind.1 h with ⟨_, t, hcopy, hrest⟩ | ⟨_, hcopy, rfl⟩
  case inr =>
    rcases ends_findSource_copy hwell htarget hparent hfree hcopy with
      ⟨hlooks, -⟩ | ⟨place, hget, u, hlooks, hends⟩
    · exact .inl ⟨hlooks, by simp⟩
    · have hall : Changes place s s' := (hlooks.changes _).trans (by simpa using hends.changes)
      exact .inr ⟨place, hget, hends.region, hall.below, hall.toAgrees, hall.manifests, by simp,
        by simp⟩
  rcases ends_findSource_copy hwell htarget hparent hfree hcopy with
    ⟨-, hr⟩ | ⟨place, hget, u, hlooks, hends⟩
  · exact absurd rfl hr
  refine .inr ⟨place, hget, ?_⟩
  have hcopied : Changes place s t := (hlooks.changes _).trans (by simpa using hends.changes)
  have hthere : (t.tree.get? place).isSome := by simpa using hends.made rfl
  rcases ends_bind.1 hrest with ⟨warnings, v, hfill, htell⟩ | ⟨_, hfill, rfl⟩
  case inr =>
    have hfills := ends_fill hends.region hthere hfill
    have hall := hcopied.trans (by simpa using hfills.changes)
    exact ⟨hfills.region, hall.below, hall.toAgrees, hall.manifests, by simp, by simp⟩
  have hfills := ends_fill hends.region hthere hfill
  have hfilled : Changes place t v := by simpa using hfills.changes
  have hall := hcopied.trans hfilled
  have hthere' : (v.tree.get? place).isSome := hfilled.below.extended.isSome hthere
  obtain ⟨hnotes, ⟨more, told, hjournal, htold⟩, hlisted⟩ := ends_tell hfills.region hthere' htell
  refine ⟨?_, ?_, hall.toAgrees.trans hnotes.toAgrees, hnotes.manifests.trans hall.manifests,
    fun _ => ⟨more, told, hall.journal ▸ hjournal, htold⟩, fun hcalm hr => ⟨?_, ?_, ?_⟩⟩
  · rw [hnotes.tree, hnotes.here]
    exact hfills.region
  · rw [hnotes.tree]
    exact hall.below
  · rwa [hnotes.tree]
  · obtain ⟨files, hfiles, hrecorded⟩ := hlisted (hall.isCalm hcalm) hr
    rw [hall.journal] at hrecorded
    exact ⟨warnings, files, by rwa [hnotes.tree], hrecorded⟩
  · intro rest content hrest hholds
    have hput := hends.copied rfl rest content hrest (by rwa [hlooks.tree, hlooks.here])
    obtain ⟨later, hlater, hput'⟩ := hfills.filled (hcopied.isCalm hcalm) ⟨_, rfl⟩ rest content
      (by simpa using hput)
    exact ⟨later, by simpa using hlater, by rw [hnotes.tree]; simpa using hput'⟩

/-! ## Placing -/

/-- However placing ends, all that it does after the directories above the target were made is to
fill the free place of the target. -/
theorem ends_place_any {r : Except Failure Bool} (hwell : s.tree.WellFormed)
    (htarget : target.IsProper) (h : (Placement.place suffix source target vars).Ends s r s') :
    ∃ told opened, (Storage.ensureDirectory target.parent.text).Ends s told opened ∧
      (opened.Notes s' ∨ ∃ place, opened.tree.get? place = none ∧
        s'.tree.Region s'.here target place ∧ ChangesBelow place opened.tree s'.tree ∧
        opened.Agrees s' ∧ s'.manifests = opened.manifests) := by
  rcases ends_bind.1 h with ⟨_, opened, hensure, hnext⟩ | ⟨_, hensure, -⟩
  case inr => exact ⟨_, s', hensure, .inl (discipline_notes.refl s')⟩
  refine ⟨_, opened, hensure, ?_⟩
  have hwell' := ((follows_storage_ensureDirectory _ _ _ _ hensure).addsAll hwell).added.well
  have hparent := look_of_storage_ensureDirectory hwell htarget.parent hensure
  rcases ends_bind.1 hnext with ⟨isThere, m, hexists, hlast⟩ | ⟨_, hexists, -⟩
  case inr => exact .inl (ends_storage_exists? hexists).1.notes
  obtain ⟨hlooks, htold, -⟩ := ends_storage_exists? hexists
  have hthere := htold isThere rfl
  cases isThere with
  | true =>
      refine .inl (hlooks.notes.trans ?_)
      exact discipline_notes.bind (follows_record _) (fun _ => discipline_notes.pure _) _ _ _ hlast
  | false =>
      obtain ⟨told, hmake, -⟩ := ends_bind_pure.1 hlast
      cases hlook : opened.tree.look opened.here target.text false with
      | ok item =>
          rw [hlook] at hthere
          cases hthere
      | error failure =>
          rcases ends_make (by rwa [hlooks.tree]) htarget (by rwa [hlooks.tree, hlooks.here])
            (by rwa [hlooks.tree, hlooks.here]) hmake with ⟨hlooks', -⟩ |
            ⟨place, hget, hregion, hchanges, hagrees, hmanifests, -, -⟩
          · exact .inl (hlooks.trans hlooks').notes
          · rw [hlooks.tree] at hget hchanges
            exact .inr ⟨place, hget, hregion, hchanges, hlooks.toAgrees.trans hagrees,
              hmanifests.trans hlooks.manifests⟩

theorem follows_place (htarget : target.IsProper) :
    (Placement.place suffix source target vars).Follows Adds := by
  intro s r s' h hwell
  obtain ⟨told, opened, hensure, hcases⟩ := ends_place_any hwell htarget h
  have hopened := (follows_storage_ensureDirectory _ _ _ _ hensure).addsAll hwell
  refine hopened.trans ?_
  have hwell' := hopened.added.well
  rcases hcases with hnotes | ⟨place, hget, hregion, hchanges, hagrees, hmanifests⟩
  · exact hnotes.adds hwell'
  · exact ⟨hagrees, hmanifests, hchanges.isAddedTo hwell' hget hregion⟩

/-- The steps of a placing that comes to its end. -/
theorem ends_place_ok {made : Bool}
    (h : (Placement.place suffix source target vars).Ends s (.ok made) s') :
    ∃ opened m, (Storage.ensureDirectory target.parent.text).Ends s (.ok ()) opened ∧
      opened.Looks m ∧ (opened.IsCalm → m = opened) ∧
      (opened.tree.look opened.here target.text false).isOk = !made ∧
      (made = false → (record Journal.preserve target.text).Ends m (.ok ()) s') ∧
      (made = true → (make suffix source target vars).Ends m (.ok ()) s') := by
  obtain ⟨_, opened, hensure, hnext⟩ := ends_bind_ok.1 h
  obtain ⟨isThere, m, hexists, hlast⟩ := ends_bind_ok.1 hnext
  obtain ⟨hlooks, htold, -⟩ := ends_storage_exists? hexists
  have hsame : opened.IsCalm → m = opened := fun hcalm =>
    (ends_exists?.1 (hcalm.ends_interruptible.1 hexists)).2
  refine ⟨opened, m, hensure, hlooks, hsame, ?_⟩
  rw [htold isThere rfl]
  cases isThere with
  | true =>
      obtain ⟨_, t, hrecord, hpure⟩ := ends_bind_ok.1 hlast
      obtain ⟨hmade, rfl⟩ := ends_pure.1 hpure
      cases hmade
      exact ⟨rfl, fun _ => hrecord, by simp⟩
  | false =>
      obtain ⟨_, t, hmake, hpure⟩ := ends_bind_ok.1 hlast
      obtain ⟨hmade, rfl⟩ := ends_pure.1 hpure
      cases hmade
      exact ⟨rfl, by simp, fun _ => hmake⟩

/-- What placing a target tells, whichever calls failed: what is there at the target already, or
what it made there. -/
structure Placed (target : FilePath) (made : Bool) (s s' : Session) : Prop where
  isThere : (s.tree.look s.here target.text false).isOk = !made
  grows : s.Grows s'
  preserved : made = false → ∃ files,
    s'.journal = { s.journal with existing := s.journal.existing ++ files } ∧
    ∀ file ∈ files, s.tree.HasBelow s.here target file
  created : made = true → Reported target s s'

theorem ends_place_placed {made : Bool} (hwell : s.tree.WellFormed) (htarget : target.IsProper)
    (h : (Placement.place suffix source target vars).Ends s (.ok made) s') :
    ∃ opened, (Storage.ensureDirectory target.parent.text).Ends s (.ok ()) opened ∧
      Placed target made opened s' := by
  obtain ⟨opened, m, hensure, hlooks, -, hthere, hpreserve, hmake⟩ := ends_place_ok h
  have hopened := (follows_storage_ensureDirectory _ _ _ _ hensure).addsAll hwell
  have hparent := look_of_storage_ensureDirectory hwell htarget.parent hensure
  have hwell' : m.tree.WellFormed := by
    rw [hlooks.tree]
    exact hopened.added.well
  refine ⟨opened, hensure, ?_⟩
  rw [← hlooks.tree, ← hlooks.here] at hthere hparent
  cases made with
  | false =>
      obtain ⟨hnotes, files, hjournal, hfiles⟩ :=
        tells_of_record htarget hthere (hpreserve rfl) hwell'
      rw [foldl_preserve, hlooks.journal] at hjournal
      rw [hlooks.tree, hlooks.here] at hthere hfiles
      exact ⟨hthere, (hlooks.notes.trans hnotes).adds hopened.added.well,
        fun _ => ⟨files, hjournal, hfiles⟩, by simp⟩
  | true =>
      cases hlook : m.tree.look m.here target.text false with
      | ok item =>
          rw [hlook] at hthere
          cases hthere
      | error failure =>
          rcases ends_make hwell' htarget hparent hlook (hmake rfl) with ⟨-, hr⟩ |
            ⟨place, hget, hregion, hchanges, hagrees, hmanifests, htold, -⟩
          · exact absurd rfl hr
          · obtain ⟨warnings, files, hjournal, hfiles⟩ := htold rfl
            rw [hlooks.journal] at hjournal
            rw [hlooks.tree, hlooks.here] at hthere
            refine ⟨hthere, (hlooks.adds hopened.added.well).trans ⟨hagrees, hmanifests, ?_⟩,
              by simp, fun _ => ⟨warnings, files, hjournal, hfiles⟩⟩
            exact hchanges.isAddedTo hwell' hget hregion

/-- How placing a target that is there already ends: its files are told as preserved. -/
structure Preserved (target : FilePath) (s s' : Session) : Prop where
  isThere : ∃ item, s.tree.look s.here target.text false = .ok item
  looked : s.Notes s'
  recorded : ∃ files, expand s.tree s.here target = .ok files ∧
    s'.journal = { s.journal with existing := s.journal.existing ++ files }

/-- If no call is made to fail, a target is preserved or made once its parent is there. -/
theorem ends_place {made : Bool} (hcalm : s.IsCalm) (hwell : s.tree.WellFormed)
    (htarget : target.IsProper)
    (h : (Placement.place suffix source target vars).Ends s (.ok made) s') :
    ∃ opened, (Storage.ensureDirectory target.parent.text).Ends s (.ok ()) opened ∧
      opened.tree.look opened.here target.parent.text true = .ok .directory ∧
      (made = false ∧ Preserved target opened s' ∨
        made = true ∧ (∃ failure, opened.tree.look opened.here target.text false =
          .error failure) ∧ opened.Agrees s' ∧ opened.manifests = s'.manifests ∧
          ∃ place, opened.tree.get? place = none ∧ s'.tree.Region s'.here target place ∧
            ChangesBelow place opened.tree s'.tree ∧
            Made suffix source target vars place opened s') := by
  obtain ⟨opened, m, hensure, -, hsame, hthere, hpreserve, hmake⟩ := ends_place_ok h
  have hopened := (follows_storage_ensureDirectory _ _ _ _ hensure).addsAll hwell
  have hparent := look_of_storage_ensureDirectory hwell htarget.parent hensure
  have hcalm' := hopened.isCalm hcalm
  obtain rfl := hsame hcalm'
  refine ⟨m, hensure, hparent, ?_⟩
  cases made with
  | false =>
      have hrecord := hpreserve rfl
      refine .inl ⟨rfl, isOk_iff.1 hthere, follows_record _ _ _ _ hrecord, ?_⟩
      rcases ends_record hcalm' hopened.added.well htarget hrecord with
        ⟨files, hfiles, hrecords⟩ | ⟨_, _, hr, -⟩
      · exact ⟨files, hfiles, by rw [hrecords.journal, foldl_preserve]⟩
      · cases hr
  | true =>
      cases hlook : m.tree.look m.here target.text false with
      | ok item =>
          rw [hlook] at hthere
          cases hthere
      | error failure =>
          rcases ends_make hopened.added.well htarget hparent hlook (hmake rfl) with ⟨-, hr⟩ |
            ⟨place, hget, hregion, hchanges, hagrees, hmanifests, -, hdone⟩
          · exact absurd rfl hr
          · exact .inr ⟨rfl, ⟨failure, rfl⟩, hagrees, hmanifests.symm, place, hget, hregion,
              hchanges, hdone hcalm' rfl⟩

end Action

end Stencil
