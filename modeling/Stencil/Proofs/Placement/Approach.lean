import Stencil.Proofs.Placement.Alike
import Stencil.Proofs.Session.Ensuring

/-!
# Directories above a target

The directories above a target may be there in one session and missing in
another one.  They can be made in both or in neither, and then the sessions
agree on the target.
-/

namespace Stencil

open FileTree Session Action

/-- Where a suffixed source is there, the directory of the source itself is there. -/
theorem FilePath.look_parent_of_suffixed {tree : FileTree} {here : Location} {source : FilePath}
    {suffix : Text} {item : FileItem} (hwell : tree.WellFormed) (hproper : source.IsProper)
    (h : tree.look here (source.text ++ suffix) false = .ok item) :
    tree.look here source.parent.text true = .ok .directory := by
  by_cases hnil : source.parts = []
  · obtain ⟨anchor, parts⟩ := source
    subst hnil
    obtain ⟨_, hlocate, -⟩ := look_eq_ok_iff.1 h
    obtain ⟨-, origin, hstart, -⟩ := locate_eq_ok_iff.1 hlocate
    have habsolute : PathText.isAbsolute ((FilePath.mk anchor []).text ++ suffix) =
        PathText.isAbsolute (FilePath.mk anchor []).text := by cases anchor <;> rfl
    rw [FileTree.start, habsolute] at hstart
    refine look_eq_ok_iff.2 ⟨origin, locate_eq_ok_iff.2
      ⟨isUsable_anchor anchor, origin, hstart, ?_⟩, start_isDirectory hstart⟩
    exact (PathText.spells_text hproper).walks_iff.2 .done
  · obtain ⟨names, hnames, heq⟩ := hproper.ofText_append hnil suffix
    obtain ⟨other, hother⟩ := look_ofText h
    obtain ⟨_, hlocate, -⟩ := look_eq_ok_iff.1 hother
    rw [heq] at hlocate
    exact look_of_below hwell (heq ▸ isProper_ofText _) hnames hlocate

theorem Action.Grounds.grows {s s' : Session} {base : FilePath} {ground : Location}
    (h : Grounds s base ground) (hgrows : s.Grows s') : Grounds s' base ground := by
  have hadded := hgrows.added
  refine ⟨hadded.well, fun place target hget => h.unlinked place target
    (hadded.unlinked place target hget), ?_, hadded.kept _ _ h.directory⟩
  rw [hgrows.here]
  exact locate_extend hadded.kept.isExtendedBy h.located (by simp [h.directory])

namespace Scope

/-- The names that lead from a directory to a target, past all sources. -/
structure Leads (scope : Scope) (base : FilePath) (ground : Location) (names : List Text) :
    Prop where
  target : scope.target = base.below names
  place : scope.place = ground ++ names
  proper : scope.target.IsProper
  up : ∀ name ∈ names, name ≠ (".." : Text)
  apart : ∀ root ∈ scope.sources, ¬ root.2 <+: scope.place

/-- Two sessions before the directories above a target are made: the second one may have some of
those that are missing in the first one. -/
structure Near (scope : Scope) (base : FilePath) (ground : Location) (names : List Text)
    (s t : Session) : Prop extends scope.Shares s t where
  grounds : Grounds s base ground
  above : ∀ front, front <+: names → front ≠ names →
    t.tree.get? (ground ++ front) = s.tree.get? (ground ++ front) ∨
      s.tree.get? (ground ++ front) = none ∧ t.tree.get? (ground ++ front) = some .directory
  reaches : ∀ root ∈ scope.sources, root.1.Reaches s.tree s.here root.2

variable {scope : Scope} {s t s' t' : Session} {base : FilePath} {ground : Location}
  {names front : List Text} {name : Text} {r r' : Except Failure Unit}

namespace Near

variable (h : scope.Near base ground names s t)
include h

theorem grounds' : Grounds t base ground := by
  refine ⟨h.well.2, h.unlinked, ?_, h.kept _ _ h.grounds.directory⟩
  rw [h.here]
  exact locate_extend h.kept.isExtendedBy h.grounds.located (by simp [h.grounds.directory])

/-- What is in the way in one session is in the way in the other one. -/
theorem admits_iff (hfront : front <+: names) (hne : front ≠ names) :
    t.tree.Admits ground front ↔ s.tree.Admits ground front := by
  have heach : ∀ other, other <+: front →
      (t.tree.get? (ground ++ other) = none ∨ t.tree.get? (ground ++ other) = some .directory ↔
        s.tree.get? (ground ++ other) = none ∨
          s.tree.get? (ground ++ other) = some .directory) := by
    intro other hother
    have hother' : other ≠ names := by
      rintro rfl
      exact hne (hfront.eq_of_length_le hother.length_le)
    rcases h.above other (hother.trans hfront) hother' with heq | ⟨hnone, hdirectory⟩
    · rw [heq]
    · simp [hnone, hdirectory]
  exact ⟨fun hadmits => ⟨hadmits.fits, fun other hother =>
      (heach other hother).1 (hadmits.free other hother)⟩,
    fun hadmits => ⟨hadmits.fits, fun other hother =>
      (heach other hother).2 (hadmits.free other hother)⟩⟩

theorem of_looks (hs : s.Looks s') (ht : t.Looks t') : scope.Near base ground names s' t' := by
  refine ⟨h.toShares.of_looks hs ht, ⟨?_, ?_, ?_, ?_⟩, ?_, ?_⟩
  all_goals try simp only [ht.tree, hs.tree, hs.here]
  · exact h.grounds.well
  · exact h.grounds.unlinked
  · exact h.grounds.located
  · exact h.grounds.directory
  · exact h.above
  · exact h.reaches

theorem note (update : Journal → Journal)
    (hupdate : ∀ journal more : Journal, update (journal.add more) = journal.add (update more)) :
    scope.Near base ground names { s with journal := update s.journal }
      { t with journal := update t.journal } :=
  ⟨h.toShares.note hupdate, ⟨h.grounds.well, h.grounds.unlinked, h.grounds.located,
    h.grounds.directory⟩, h.above, h.reaches⟩

end Near

/-- The directory of a target that is a directory itself. -/
theorem look_parent_of_grounds (hgrounds : Grounds s base ground) (hproper : base.IsProper) :
    s.tree.look s.here base.parent.text true = .ok .directory := by
  by_cases hnil : base.parts = []
  · have hparent : base.parent = base := by
      obtain ⟨anchor, parts⟩ := base
      cases hnil
      rfl
    rw [hparent]
    exact hgrounds.look
  · exact FilePath.look_parent hgrounds.well hproper hnil hgrounds.located

theorem Leads.parent_eq (hleads : scope.Leads base ground (front ++ [name])) :
    scope.target.parent = base.below front := by
  rw [hleads.target, ← FilePath.below_below, FilePath.parent_below]

theorem Leads.up_front (hleads : scope.Leads base ground (front ++ [name])) :
    ∀ other ∈ front, other ≠ (".." : Text) :=
  fun other hother => hleads.up other (List.mem_append_left _ hother)

theorem Near.placeFrom_target (h : scope.Near base ground names s t)
    (hleads : scope.Leads base ground names) : scope.target.placeFrom s.here = scope.place := by
  rw [hleads.target, hleads.place]
  exact h.grounds.placeFrom_below (hleads.target ▸ hleads.proper) hleads.up

/-- The target is the directory itself, and so is what is above it. -/
theorem Near.agree_of_nil (h : scope.Near base ground [] s t) (hleads : scope.Leads base ground []) :
    scope.Agree s t := by
  have htarget : scope.target = base := by rw [hleads.target, FilePath.below_nil]
  have hbase : base.IsProper := htarget ▸ hleads.proper
  refine ⟨h.toShares, fun root hroot => ?_, ?_⟩
  · rcases List.mem_cons.1 hroot with rfl | hroot
    · rw [htarget, ← h.placeFrom_target hleads, htarget]
      exact .of_look hbase h.grounds.unlinked h.grounds.look
    · exact h.reaches root hroot
  · rw [htarget]
    exact look_parent_of_grounds h.grounds hbase

/-- Making the directories above a target changes nothing at the target or at its sources. -/
theorem Leads.not_above (hleads : scope.Leads base ground (front ++ [name]))
    {root : FilePath × Location} (hroot : root ∈ scope.roots) (rest : Location) :
    ¬ root.2 ++ rest <+: ground ++ front := by
  intro hleading
  have hplace : scope.place = (ground ++ front) ++ [name] := by
    rw [hleads.place, List.append_assoc]
  rcases List.mem_cons.1 hroot with rfl | hroot
  · have hlength := hleading.length_le
    simp only [hplace, List.length_append, List.length_singleton] at hlength
    omega
  · refine hleads.apart root hroot ?_
    rw [hplace]
    exact (List.prefix_append _ _).trans (hleading.trans (List.prefix_append _ _))

/-- Once the directories above the target were made in both sessions, they agree on the target. -/
theorem Near.agree_of_made (h : scope.Near base ground (front ++ [name]) s t)
    (hleads : scope.Leads base ground (front ++ [name]))
    (hend : (ensureDirectories (base.below front)).Ends s (.ok ()) s')
    (hend' : (ensureDirectories (base.below front)).Ends t (.ok ()) t') : scope.Agree s' t' := by
  have hproper := hleads.proper
  have hfront : (base.below front).IsProper := hleads.parent_eq ▸ hproper.parent
  have hup := hleads.up_front
  obtain ⟨hensures, hchanges⟩ := changesOn_ensureDirectories hfront hup _ _ _ hend
  obtain ⟨hensures', hchanges'⟩ := changesOn_ensureDirectories hfront hup _ _ _ hend'
  have hground := h.grounds.ensures hensures
  have hground' := h.grounds'.ensures hensures'
  have hlook := look_of_ensureDirectories h.well.1 hend
  have hdirectory := (hground.admits_of_look hfront hup hlook).1
  have hdirectory' := (hground'.admits_of_look hfront hup
    (look_of_ensureDirectories h.well.2 hend')).1
  have hkept : s'.tree.IsKeptBy t'.tree := by
    intro other item hget
    by_cases hother : other <+: ground ++ front
    · rw [hground.well.directory_above hdirectory hother] at hget
      rw [hground'.well.directory_above hdirectory' hother]
      exact hget
    · rw [hchanges h.grounds other hother] at hget
      exact (hensures'.adds h.well.2).2.kept _ _ (h.kept _ _ hget)
  have hsame : ∀ root ∈ scope.roots, ∀ rest,
      t'.tree.get? (root.2 ++ rest) = s'.tree.get? (root.2 ++ rest) := by
    intro root hroot rest
    have hother := hleads.not_above hroot rest
    rw [hchanges h.grounds _ hother, hchanges' h.grounds' _ hother, h.same root hroot]
  have hparent : s'.tree.look s'.here scope.target.parent.text true = .ok .directory := by
    rwa [hleads.parent_eq]
  refine ⟨⟨?_, ⟨hensures.isCalm h.calm.1, hensures'.isCalm h.calm.2⟩, ⟨hground.well, hground'.well⟩,
    hkept, hground'.unlinked, hsame, ?_⟩, fun root hroot => ?_, hparent⟩
  · rw [hensures'.here, hensures.here, h.here]
  · rw [hensures'.journal, hensures.journal, h.journal]
  · rcases List.mem_cons.1 hroot with rfl | hroot
    · rw [← h.placeFrom_target hleads, ← hensures.here]
      exact .of_look_parent hproper hground.unlinked hparent
    · rw [hensures.here]
      exact (h.reaches root hroot).mono (hensures.adds h.well.1).2.kept.isExtendedBy

/-- The directories above a target are made in both sessions or in neither. -/
theorem Near.ensure (h : scope.Near base ground names s t) (hleads : scope.Leads base ground names)
    (hend : (Storage.ensureDirectory scope.target.parent.text).Ends s r s')
    (hend' : (Storage.ensureDirectory scope.target.parent.text).Ends t r' t') :
    (r' = .ok () ↔ r = .ok ()) ∧ (r = .ok () → scope.Agree s' t') := by
  have hproper := hleads.proper
  rw [Storage.ensureDirectory, h.calm.1.ends_guarded, hproper.parent.ofText_text] at hend
  rw [Storage.ensureDirectory, h.calm.2.ends_guarded, hproper.parent.ofText_text] at hend'
  rcases List.eq_nil_or_concat' names with rfl | ⟨front, name, rfl⟩
  · have hagree := h.agree_of_nil hleads
    obtain ⟨rfl, rfl⟩ := (ends_ensureDirectories_of_look hagree.parent).1 hend
    obtain ⟨rfl, rfl⟩ := (ends_ensureDirectories_of_look hagree.parent').1 hend'
    exact ⟨Iff.rfl, fun _ => hagree⟩
  · have hfront : (base.below front).IsProper := hleads.parent_eq ▸ hproper.parent
    rw [hleads.parent_eq] at hend hend'
    have hiff : (r' = .ok () ↔ r = .ok ()) := by
      rw [← ends_ok_iff hend, ← ends_ok_iff hend',
        ends_ensureDirectories_iff h.grounds hfront hleads.up_front,
        ends_ensureDirectories_iff h.grounds' hfront hleads.up_front,
        h.admits_iff (List.prefix_append _ _) (by simp)]
    refine ⟨hiff, fun hr => ?_⟩
    obtain rfl := hr
    obtain rfl := hiff.2 rfl
    exact h.agree_of_made hleads hend hend'

/-! ## Placing -/

variable {suffix : Text} {source : FilePath} {vars : Variables} {other : Location}

/-- A target is preserved in both sessions, made in both, or it fails in both. -/
theorem Near.ends_place (h : scope.Near base ground names s t)
    (hleads : scope.Leads base ground names) (hoffers : scope.Offers suffix source s)
    {r r' : Except Failure Bool}
    (hend : (Placement.place suffix source scope.target vars).Ends s r s')
    (hend' : (Placement.place suffix source scope.target vars).Ends t r' t') :
    r'.isOk = r.isOk ∧ ∀ made, r = .ok made → r' = .ok made ∧ scope.Agree s' t' := by
  rw [Placement.place_eq] at hend hend'
  rcases ends_bind.1 hend with ⟨_, opened, hensure, hsettle⟩ | ⟨failure, hensure, rfl⟩
  · obtain ⟨told', opened', hensure'⟩ : ∃ told' opened',
        (Storage.ensureDirectory scope.target.parent.text).Ends t told' opened' :=
      ⟨_, _, Ends.run _ _⟩
    obtain ⟨hiff, hagree⟩ := h.ensure hleads hensure hensure'
    obtain rfl := hiff.2 rfl
    rw [hensure'.bind_iff] at hend'
    have hensures := follows_storage_ensureDirectory _ _ _ _ hensure
    have hoffers' : scope.Offers suffix source opened :=
      hoffers.of_kept (hensures.adds h.well.1).2.kept hensures.here
    obtain ⟨u, hsettle', hlast⟩ :=
      carriesFrom_settle hleads.proper hoffers' (hagree rfl) _ _ hsettle
    obtain ⟨rfl, rfl⟩ := hsettle'.unique hend'
    exact ⟨rfl, fun made hr => ⟨hr, hlast⟩⟩
  · rcases ends_bind.1 hend' with ⟨_, opened', hensure', -⟩ | ⟨failure', -, rfl⟩
    · cases (h.ensure hleads hensure hensure').1.1 rfl
    · exact ⟨rfl, by simp⟩

namespace Leads

variable (hleads : scope.Leads base ground names) (hground : Grounds s base ground)
include hleads hground

/-- What is above a target whose parent is there are directories. -/
theorem directory_above (hparent : s.tree.look s.here scope.target.parent.text true =
    .ok .directory) (hother : other <+: scope.place) (hne : other ≠ scope.place) :
    s.tree.get? other = some .directory := by
  rw [hleads.place] at hother hne
  rcases List.eq_nil_or_concat' names with rfl | ⟨front, name, rfl⟩
  · rw [List.append_nil] at hother
    exact hground.well.directory_above hground.directory hother
  · have heq := hleads.parent_eq
    rw [heq] at hparent
    have hdirectory := (hground.admits_of_look (heq ▸ hleads.proper.parent) hleads.up_front
      hparent).1
    refine hground.well.directory_above hdirectory ?_
    rw [← List.append_assoc] at hother hne
    exact (List.prefix_concat_iff.1 hother).resolve_left hne

/-- Nothing changes but what is above the place of the target, or there and below. -/
theorem outside (hcalm : s.IsCalm) {r : Except Failure Bool}
    (hend : (Placement.place suffix source scope.target vars).Ends s r s')
    (hother : ¬ other <+: scope.place) (hbelow : ¬ scope.place <+: other) :
    s'.tree.get? other = s.tree.get? other := by
  have hproper := hleads.proper
  have hadds := follows_place hproper _ _ _ hend hground.well
  have hunlinked : s'.tree.IsUnlinked := fun place target hget =>
    hground.unlinked place target (hadds.added.unlinked place target hget)
  obtain ⟨told, opened, hensure, hcases⟩ := ends_place_any hground.well hproper hend
  rw [Storage.ensureDirectory, hcalm.ends_guarded, hproper.parent.ofText_text] at hensure
  have hopened : opened.tree.get? other = s.tree.get? other := by
    rcases List.eq_nil_or_concat' names with rfl | ⟨front, name, rfl⟩
    · have htarget : scope.target = base := by rw [hleads.target, FilePath.below_nil]
      rw [htarget] at hensure hproper
      obtain ⟨-, rfl⟩ := (ends_ensureDirectories_of_look
        (look_parent_of_grounds hground hproper)).1 hensure
      rfl
    · have heq := hleads.parent_eq
      rw [heq] at hensure
      refine (changesOn_ensureDirectories (heq ▸ hproper.parent) hleads.up_front _ _ _
        hensure).2 hground other fun hfront => hother (hfront.trans ?_)
      rw [hleads.place, ← List.append_assoc]
      exact List.prefix_append _ _
  rcases hcases with hnotes | ⟨place, -, hregion, hchanges, -⟩
  · rw [hnotes.tree, hopened]
  · obtain ⟨origin, hstart, hway⟩ := hregion.leads.way true
    have hplace : place = scope.place := by
      rw [hway.eq_normal hunlinked fun name hname => (hproper name hname).1,
        start_eq hproper hstart, hadds.here]
      have := hground.placeFrom_below (hleads.target ▸ hproper) hleads.up
      rw [← hleads.target, ← hleads.place] at this
      exact this
    rw [hchanges.outside other (hplace ▸ hbelow), hopened]

end Leads

end Scope

end Stencil
