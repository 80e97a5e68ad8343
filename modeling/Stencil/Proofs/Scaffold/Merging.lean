import Stencil.Proofs.Scaffold.Independent

/-!
# Runs of independent directives

A run of independent directives leaves what each of them leaves if it is applied
alone: at the target of a directive and above it the files are as it leaves them,
elsewhere they are as before, and the journal is put together from theirs.
-/

namespace Stencil

open FileTree Session Action

theorem FileTree.IsAddedTo.isUnlinked {tree later : FileTree} (h : tree.IsAddedTo later)
    (hunlinked : tree.IsUnlinked) : later.IsUnlinked :=
  fun place target hget => hunlinked place target (h.unlinked place target hget)

/-- What does not lie apart from the target is the same in two sessions that agree on it. -/
theorem Scope.Agree.get?_eq {scope : Scope} {base : FilePath} {ground other : Location}
    {names : List Text} {s t : Session} (h : scope.Agree s t)
    (hleads : scope.Leads base ground names) (hground : Grounds s base ground)
    (hother : ¬ scope.place.Apart other) : t.tree.get? other = s.tree.get? other := by
  by_cases hbelow : scope.place <+: other
  · obtain ⟨rest, rfl⟩ := hbelow
    exact h.same _ List.mem_cons_self rest
  · have hleading : other <+: scope.place := by
      by_contra hleading
      exact hother ⟨hbelow, hleading⟩
    have hdirectory := hleads.directory_above hground h.parent hleading
      (by rintro rfl; exact hbelow List.prefix_rfl)
    rw [hdirectory, h.kept _ _ hdirectory]

namespace Scaffold

variable {job : Generator.Job} {place ground : Location} {raw other : Text}
  {s t m s' t' origin : Session} {base : FilePath} {done includes : List Text}

/-- What a directive leaves if it is applied alone. -/
def alone (job : Generator.Job) (origin : Session) (raw : Text) : Session :=
  (applyDirective job raw).after origin

def succeedsAlone (job : Generator.Job) (origin : Session) (raw : Text) : Bool :=
  ((applyDirective job raw).result origin).isOk

/-- The session after some directives that are applied: each of them left there what it leaves if it
is applied alone. -/
structure Merged (job : Generator.Job) (origin : Session) (done : List Text) (t : Session) :
    Prop where
  here : t.here = origin.here
  calm : t.IsCalm
  added : origin.tree.IsAddedTo t.tree
  applied : ∀ raw ∈ done, ∀ place, ¬ (placeOf job origin.here raw).Apart place →
    t.tree.get? place = (alone job origin raw).tree.get? place
  above : ∀ raw ∈ done, ∀ place, place <+: placeOf job origin.here raw →
    place ≠ placeOf job origin.here raw →
      (alone job origin raw).tree.get? place = some .directory
  rest : ∀ place, (∀ raw ∈ done, (placeOf job origin.here raw).Apart place) →
    t.tree.get? place = origin.tree.get? place
  journal : t.journal = Journal.total (done.map fun raw => (alone job origin raw).journal)

/-! ## One more directive -/

/-- A directive that is passed over leaves what others did. -/
theorem Merged.of_looks (h : Merged job origin done t) (hlooks : t.Looks t') :
    Merged job origin done t' := by
  refine ⟨hlooks.here.trans h.here, hlooks.isCalm h.calm, ?_, ?_, h.above, ?_, ?_⟩
  · rw [hlooks.tree]
    exact h.added
  · rw [hlooks.tree]
    exact h.applied
  · rw [hlooks.tree]
    exact h.rest
  · rw [hlooks.journal]
    exact h.journal

section Step

variable (hprepared : Prepared job origin) (hindependent : Independent job origin.here)
include hprepared

theorem Prepared.merged (h : origin.SameFiles t) (hjournal : t.journal = .empty) :
    Merged job origin [] t := by
  refine ⟨h.here, h.calm.2, ?_, by simp, by simp, fun _ _ => by rw [h.tree], hjournal⟩
  rw [h.tree]
  exact .refl hprepared.well

include hindependent

/-- The sessions in which a directive is applied alone and after others share what it works on. -/
theorem Merged.near (h : Merged job origin done t) (hraw : raw ∈ job.entry.includes)
    (hselected : selects job raw = true)
    (hdone : ∀ other ∈ done, other ∈ job.entry.includes ∧ selects job other = true ∧
      (placeOf job origin.here other).Apart (placeOf job origin.here raw))
    (hgrounds : Grounds origin base ground)
    (htarget : targetOf job raw = base.below (FilePath.ofText (nameOf job raw)).parts) :
    (scopeOf job raw origin t.journal).Near base ground (FilePath.ofText (nameOf job raw)).parts
      origin t := by
  have hleads := hprepared.leads hindependent hraw hselected hgrounds htarget t.journal
  refine ⟨⟨h.here, ⟨hprepared.calm, h.calm⟩, ⟨hprepared.well, h.added.well⟩, h.added.kept,
    h.added.isUnlinked hprepared.unlinked, fun root hroot rest => ?_, ?_⟩, hgrounds,
    fun front hfront hne => ?_, fun root hroot => ?_⟩
  · refine h.rest _ fun other hother => ?_
    obtain ⟨hmem, hother', hapart⟩ := hdone other hother
    rcases List.mem_cons.1 hroot with rfl | hroot
    · exact hapart.of_below (List.prefix_append _ _)
    · obtain ⟨source, hsource, rfl⟩ := List.mem_map.1 hroot
      exact (hindependent.sources other hmem hother' raw hraw hselected source
        (mem_sourcesOf_of_readable hsource)).of_below (List.prefix_append _ _)
  · rw [hprepared.journal, Journal.add_empty]
    rfl
  · by_cases hall : ∀ other ∈ done, (placeOf job origin.here other).Apart (ground ++ front)
    · exact .inl (h.rest _ hall)
    · obtain ⟨other, hother⟩ := not_forall.1 hall
      obtain ⟨hother, hnot⟩ := Classical.not_imp.1 hother
      have hbelow : ground ++ front <+: placeOf job origin.here raw := by
        show _ <+: (scopeOf job raw origin t.journal).place
        rw [hleads.place]
        exact (List.prefix_append_right_inj _).2 hfront
      obtain ⟨habove, hne'⟩ := (hdone other hother).2.2.above_of_not hnot
        fun hapart => hapart.2 hbelow
      have hdirectory : t.tree.get? (ground ++ front) = some .directory := by
        rw [h.applied other hother _ hnot]
        exact h.above other hother _ habove hne'
      cases hget : origin.tree.get? (ground ++ front) with
      | none => exact .inr ⟨rfl, hdirectory⟩
      | some item =>
          refine .inl ?_
          rw [h.added.kept _ _ hget]
  · obtain ⟨source, hsource, rfl⟩ := List.mem_map.1 hroot
    exact hprepared.reaches hraw hsource

/-- A directive fails after others if it fails alone, and else it leaves what it leaves alone. -/
theorem Merged.step (h : Merged job origin done t) (hraw : raw ∈ job.entry.includes)
    (hselected : selects job raw = true)
    (hdone : ∀ other ∈ done, other ∈ job.entry.includes ∧ selects job other = true ∧
      (placeOf job origin.here other).Apart (placeOf job origin.here raw))
    {r : Except Failure Unit} (hend : (applyDirective job raw).Ends t r t') :
    (r = .ok () ↔ succeedsAlone job origin raw = true) ∧
      (r = .ok () → Merged job origin (done ++ [raw]) t') := by
  obtain ⟨base, ground, htarget, hgrounds⟩ := hprepared.exists_grounds raw
  have hnear := h.near hprepared hindependent hraw hselected hdone hgrounds htarget
  have hleads := hprepared.leads hindependent hraw hselected hgrounds htarget t.journal
  have hone : (applyDirective job raw).Ends origin ((applyDirective job raw).result origin)
      (alone job origin raw) := Ends.run _ _
  obtain ⟨hiff, hagree⟩ := ends_applyDirective_near hselected hnear hleads rfl
    (hprepared.offers t.journal) hone hend
  have hsucceeds : succeedsAlone job origin raw = true ↔
      (applyDirective job raw).result origin = .ok () :=
    isOk_iff.trans ⟨fun ⟨_, h⟩ => h, fun h => ⟨_, h⟩⟩
  refine ⟨hiff.trans hsucceeds.symm, fun hr => ?_⟩
  have hagree := hagree (hiff.1 hr)
  have hgrows := follows_applyDirective hprepared.proper raw _ _ _ hend h.added.well
  have hgrows' := follows_applyDirective hprepared.proper raw _ _ _ hone hprepared.well
  have habove : ∀ other, other <+: placeOf job origin.here raw →
      other ≠ placeOf job origin.here raw →
        (alone job origin raw).tree.get? other = some .directory := fun other hother hne =>
    hleads.directory_above (hgrounds.grows hgrows') hagree.parent hother hne
  have happlied : ∀ other, ¬ (placeOf job origin.here raw).Apart other →
      t'.tree.get? other = (alone job origin raw).tree.get? other := fun other hother =>
    hagree.get?_eq hleads (hgrounds.grows hgrows') hother
  have houtside : ∀ other, (placeOf job origin.here raw).Apart other →
      t'.tree.get? other = t.tree.get? other := fun other hother =>
    outside_applyDirective hleads rfl hprepared.proper hnear.grounds' h.calm hend
      hother
  refine ⟨hgrows.here.trans h.here, hgrows.isCalm h.calm, h.added.trans hgrows.added, ?_, ?_,
    fun other hother => ?_, ?_⟩
  · intro other hother place hplace
    rcases List.mem_append.1 hother with hother | hother
    · by_cases hapart : (placeOf job origin.here raw).Apart place
      · rw [houtside place hapart]
        exact h.applied other hother place hplace
      · obtain ⟨habove', hne⟩ := (hdone other hother).2.2.above_of_not hplace hapart
        obtain ⟨habove'', hne'⟩ := (hdone other hother).2.2.symm.above_of_not hapart hplace
        rw [h.above other hother place habove' hne, happlied place hapart]
        exact habove place habove'' hne'
    · obtain rfl := List.mem_singleton.1 hother
      exact happlied place hplace
  · intro other hother
    rcases List.mem_append.1 hother with hother | hother
    · exact h.above other hother
    · obtain rfl := List.mem_singleton.1 hother
      exact habove
  · rw [houtside other (hother raw (by simp))]
    exact h.rest other fun raw hraw => hother raw (List.mem_append_left _ hraw)
  · rw [hagree.journal]
    show t.journal.add _ = _
    rw [h.journal]
    simp [Journal.add, Journal.total]

/-! ## Whole runs -/

section Run

variable {front rest : List Text} {r : Except Failure Unit}

theorem Merged.next (h : Merged job origin (front.filter (selects job)) t)
    (hsplit : job.entry.includes = front ++ raw :: rest)
    (hend : (applyDirective job raw).Ends t r t') :
    (r = .ok () ↔ (selects job raw = true → succeedsAlone job origin raw = true)) ∧
      (r = .ok () → Merged job origin ((front ++ [raw]).filter (selects job)) t') := by
  by_cases hselected : selects job raw = true
  · have hdone : ∀ other ∈ front.filter (selects job), other ∈ job.entry.includes ∧
        selects job other = true ∧
          (placeOf job origin.here other).Apart (placeOf job origin.here raw) := by
      intro other hother
      obtain ⟨hmem, hother'⟩ := List.mem_filter.1 hother
      have hpairs := hindependent.targets
      rw [hsplit, List.filter_append, List.filter_cons_of_pos hselected] at hpairs
      exact ⟨by simp [hsplit, hmem], hother',
        (List.pairwise_append.1 hpairs).2.2 other hother raw List.mem_cons_self⟩
    rw [List.filter_append, List.filter_cons_of_pos hselected, List.filter_nil]
    simpa only [hselected, true_imp_iff] using
      h.step hprepared hindependent (by simp [hsplit]) hselected hdone hend
  · obtain ⟨rfl, hlooks⟩ := ends_unselected (Bool.eq_false_iff.2 hselected) hend
    rw [List.filter_append, List.filter_cons_of_neg hselected, List.filter_nil, List.append_nil]
    exact ⟨by simp [hselected], fun _ => h.of_looks hlooks⟩

/-- A run over the rest of the directives succeeds if each of them does alone. -/
theorem Merged.run (h : Merged job origin (front.filter (selects job)) t)
    (hsplit : job.entry.includes = front ++ rest)
    (hend : (rest.forM (applyDirective job)).Ends t r t') :
    (r = .ok () ↔ ∀ raw ∈ rest, selects job raw = true → succeedsAlone job origin raw = true) ∧
      (r = .ok () → Merged job origin (job.entry.includes.filter (selects job)) t') := by
  induction rest generalizing front t with
  | nil =>
      obtain ⟨rfl, rfl⟩ := ends_pure.1 hend
      rw [hsplit, List.append_nil]
      exact ⟨by simp, fun _ => h⟩
  | cons raw rest ih =>
      have hsplit' : job.entry.includes = (front ++ [raw]) ++ rest := by simp [hsplit]
      rw [List.forall_mem_cons]
      rcases ends_bind.1 hend with ⟨_, m, hfirst, hrest⟩ | ⟨failure, hfirst, rfl⟩
      · obtain ⟨hiff, hmerged⟩ := h.next hprepared hindependent hsplit hfirst
        obtain ⟨hiff', hmerged'⟩ := ih (hmerged rfl) hsplit' hrest
        exact ⟨hiff'.trans (and_iff_right (hiff.1 rfl)).symm, hmerged'⟩
      · have hiff := (h.next hprepared hindependent hsplit hfirst).1
        exact ⟨⟨by simp, fun hall => by cases hiff.2 hall.1⟩, by simp⟩

/-- A run succeeds if each directive does alone, and it leaves what they leave. -/
theorem Prepared.run (hfiles : origin.SameFiles t) (hjournal : t.journal = .empty)
    (hend : (job.entry.includes.forM (applyDirective job)).Ends t r t') :
    (r = .ok () ↔ ∀ raw ∈ job.entry.includes,
        selects job raw = true → succeedsAlone job origin raw = true) ∧
      (r = .ok () → Merged job origin (job.entry.includes.filter (selects job)) t') := by
  have hmerged : Merged job origin (([] : List Text).filter (selects job)) t :=
    hprepared.merged hfiles hjournal
  exact hmerged.run hprepared hindependent rfl hend

end Run

end Step

end Scaffold

end Stencil
