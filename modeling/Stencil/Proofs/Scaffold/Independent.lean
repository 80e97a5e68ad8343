import Stencil.Proofs.Placement.Approach
import Stencil.Proofs.Scaffold.Shown

/-!
# Independent directives

Directives are independent if their targets lie apart from each other and from
all sources.  Then each of them does what it does alone, whichever of the others
were applied before it: a run succeeds if every directive does alone, and what it
leaves does not depend on their order.
-/

namespace Stencil

open FileTree Session Action

/-! ## Places that lie apart -/

/-- Neither of two places is the other one or above it. -/
def Location.Apart (first second : Location) : Prop := ¬ first <+: second ∧ ¬ second <+: first

instance : DecidableRel Location.Apart := fun first second =>
  inferInstanceAs (Decidable (¬ first <+: second ∧ ¬ second <+: first))

namespace Location.Apart

variable {first second other : Location}

theorem symm (h : first.Apart second) : second.Apart first := ⟨h.2, h.1⟩

/-- What lies at one of two places or below lies apart from the other one. -/
theorem of_below (h : first.Apart second) (hbelow : second <+: other) : first.Apart other := by
  refine ⟨fun hfirst => ?_, fun hother => h.2 (hbelow.trans hother)⟩
  exact (List.prefix_or_prefix_of_prefix hfirst hbelow).elim h.1 h.2

/-- What does not lie apart from two places that do is above both. -/
theorem above_of_not (h : first.Apart second) (hfirst : ¬ first.Apart other)
    (hsecond : ¬ second.Apart other) : other <+: first ∧ other ≠ first := by
  have hnot : ¬ first <+: other := fun hleading => hsecond (h.symm.of_below hleading)
  have habove : other <+: first := by
    by_contra hother
    exact hfirst ⟨hnot, hother⟩
  exact ⟨habove, fun heq => hnot (heq ▸ List.prefix_rfl)⟩

end Location.Apart

namespace Scaffold

/-! ## Directives that lie apart -/

variable {job : Generator.Job} {here place ground : Location} {raw other : Text}
  {s t m s' t' origin : Session} {base : FilePath} {done includes : List Text}

/-- The source of a directive as it is named there. -/
def sourceOf (job : Generator.Job) (raw : Text) : FilePath :=
  job.template.child (Directive.parse raw).source

/-- The source of a directive, and the source with the suffix of templates. -/
def sourcesOf (job : Generator.Job) (raw : Text) : List FilePath :=
  [sourceOf job raw, .ofText ((sourceOf job raw).text ++ job.library.suffix)]

/-- The place that the target of a directive spells. -/
def placeOf (job : Generator.Job) (here : Location) (raw : Text) : Location :=
  (targetOf job raw).placeFrom here

/-- The directives that are applied lead nowhere up, and their targets lie apart from each other and
from all sources. -/
structure Independent (job : Generator.Job) (here : Location) : Prop where
  down : ∀ raw ∈ job.entry.includes, selects job raw = true →
    (".." : Text) ∉ (FilePath.ofText (nameOf job raw)).parts
  targets : (job.entry.includes.filter (selects job)).Pairwise fun first second =>
    (placeOf job here first).Apart (placeOf job here second)
  sources : ∀ raw ∈ job.entry.includes, selects job raw = true →
    ∀ other ∈ job.entry.includes, selects job other = true →
      ∀ source ∈ sourcesOf job other, (placeOf job here raw).Apart (source.placeFrom here)

/-! ## A directive in two sessions -/

/-- The session before any directive is applied. -/
structure Prepared (job : Generator.Job) (s : Session) : Prop where
  calm : s.IsCalm
  well : s.tree.WellFormed
  unlinked : s.tree.IsUnlinked
  proper : job.target.IsProper
  template : job.template.IsProper
  directory : s.tree.look s.here job.target.text true = .ok .directory
  sources : ∀ raw ∈ job.entry.includes,
    s.tree.HasSource s.here job.library.suffix job.template (Directive.parse raw).source
  journal : s.journal = .empty

/-- The paths that are read for a directive: the source with the suffix only where it is needed. -/
def readable (job : Generator.Job) (raw : Text) (s : Session) : List FilePath :=
  if (s.tree.look s.here (sourceOf job raw).text false).isOk then [sourceOf job raw]
  else sourcesOf job raw

/-- What a directive works on, after others have filled a journal. -/
def scopeOf (job : Generator.Job) (raw : Text) (s : Session) (journal : Journal) : Scope where
  target := targetOf job raw
  place := placeOf job s.here raw
  sources := (readable job raw s).map fun source => (source, source.placeFrom s.here)
  journal := journal

theorem mem_sourcesOf_of_readable {source : FilePath} (h : source ∈ readable job raw s) :
    source ∈ sourcesOf job raw := by
  unfold readable at h
  split at h
  · rw [List.mem_singleton.1 h]
    exact List.mem_cons_self
  · exact h

namespace Prepared

variable (h : Prepared job origin)
include h

/-- Every path that is read for a directive can be reached. -/
theorem reaches (hraw : raw ∈ job.entry.includes) {source : FilePath}
    (hsource : source ∈ readable job raw origin) :
    source.Reaches origin.tree origin.here (source.placeFrom origin.here) := by
  have hproper : (sourceOf job raw).IsProper := h.template.child _
  unfold readable at hsource
  split at hsource
  · rename_i hthere
    obtain ⟨item, hitem⟩ := isOk_iff.1 hthere
    obtain rfl := List.mem_singleton.1 hsource
    exact .of_look hproper h.unlinked hitem
  · rename_i hmissing
    obtain ⟨item, hitem⟩ := isOk_iff.1 ((h.sources raw hraw).resolve_left hmissing)
    rcases List.mem_cons.1 hsource with rfl | hsource
    · exact .of_look_parent hproper h.unlinked
        (FilePath.look_parent_of_suffixed h.well hproper hitem)
    · obtain rfl := List.mem_singleton.1 hsource
      obtain ⟨other, hother⟩ := look_ofText hitem
      exact .of_look (FilePath.isProper_ofText _) h.unlinked hother

theorem offers (journal : Journal) :
    (scopeOf job raw origin journal).Offers job.library.suffix (sourceOf job raw) origin := by
  have hmem : ∀ {source : FilePath}, source ∈ readable job raw origin →
      (source, source.placeFrom origin.here) ∈ (scopeOf job raw origin journal).sources :=
    fun hsource => List.mem_map.2 ⟨_, hsource, rfl⟩
  refine ⟨h.template.child _, ⟨_, hmem ?_⟩, ?_⟩
  · unfold readable
    split <;> simp [sourcesOf]
  · by_cases hthere : (origin.tree.look origin.here (sourceOf job raw).text false).isOk = true
    · exact .inl hthere
    · refine .inr ⟨_, hmem ?_⟩
      simp only [readable, if_neg hthere]
      simp [sourcesOf]

/-- The directory that the target of a directive goes on from. -/
theorem exists_grounds (raw : Text) : ∃ base ground,
    targetOf job raw = base.below (FilePath.ofText (nameOf job raw)).parts ∧
      Grounds origin base ground := by
  by_cases habsolute : (FilePath.ofText (nameOf job raw)).isAbsolute = true
  · have hproper : (FilePath.mk (FilePath.ofText (nameOf job raw)).anchor []).IsProper :=
      fun part hpart => absurd hpart List.not_mem_nil
    refine ⟨_, [], ?_, h.well, h.unlinked, locate_eq_ok_iff.2
      ⟨FilePath.isUsable_anchor (FilePath.ofText (nameOf job raw)).anchor, [], ?_,
        (PathText.spells_text hproper).walks_iff.2 .done⟩, rfl⟩
    · rw [targetOf, FilePath.child, FilePath.join, if_pos habsolute]
      rfl
    · rw [FileTree.start, hproper.isAbsolute_text]
      exact if_pos habsolute
  · obtain ⟨ground, hlocate, hget⟩ := look_eq_ok_iff.1 h.directory
    refine ⟨job.target, ground, ?_, h.well, h.unlinked, hlocate, hget⟩
    rw [targetOf, FilePath.child, FilePath.join, if_neg habsolute]
    rfl

theorem leads (hindependent : Independent job origin.here) (hraw : raw ∈ job.entry.includes)
    (hselected : selects job raw = true) (hgrounds : Grounds origin base ground)
    (htarget : targetOf job raw = base.below (FilePath.ofText (nameOf job raw)).parts)
    (journal : Journal) :
    (scopeOf job raw origin journal).Leads base ground
      (FilePath.ofText (nameOf job raw)).parts := by
  have hproper : (targetOf job raw).IsProper := h.proper.child _
  have hup : ∀ name ∈ (FilePath.ofText (nameOf job raw)).parts, name ≠ (".." : Text) := by
    rintro name hname rfl
    exact hindependent.down raw hraw hselected hname
  refine ⟨htarget, ?_, hproper, hup, fun root hroot => ?_⟩
  · show placeOf job origin.here raw = _
    rw [placeOf, htarget]
    exact hgrounds.placeFrom_below (htarget ▸ hproper) hup
  · obtain ⟨source, hsource, rfl⟩ := List.mem_map.1 hroot
    exact (hindependent.sources raw hraw hselected raw hraw hselected source
      (mem_sourcesOf_of_readable hsource)).2

end Prepared

/-! ## How directives end -/

/-- A directive is rendered first, and the rest is done in the session that the console left. -/
theorem exists_finish {r : Except Failure Unit} (hend : (applyDirective job raw).Ends s r s') :
    ∃ m, s.Looks m ∧
      (finish job raw (nameOf job raw) (Visit.warnings ⟨job, raw, s⟩)).Ends m r s' := by
  rw [applyDirective_eq] at hend
  rcases ends_bind.1 hend with ⟨_, m, hrender, hnext⟩ | ⟨failure, hrender, -⟩
  · cases (ends_renderTarget hrender).2
    exact ⟨m, (ends_renderTarget hrender).1, hnext⟩
  · cases (ends_renderTarget hrender).2

/-- A directive that is passed over does nothing. -/
theorem ends_unselected (hselected : selects job raw = false) {r : Except Failure Unit}
    (hend : (applyDirective job raw).Ends s r s') : r = .ok () ∧ s.Looks s' := by
  obtain ⟨m, hlooks, hnext⟩ := exists_finish hend
  have hpassed : ¬ (Directive.parse raw).conditions.hold job.vars = true :=
    Bool.eq_false_iff.1 hselected
  rw [finish, if_neg hpassed] at hnext
  exact ⟨ends_printDetail _ hnext, hlooks.trans (follows_printDetail _ _ _ _ hnext)⟩

/-- What is said once a target was made or preserved. -/
def notePreserved (target : Text) (isMade : Bool) : Action Unit :=
  if !isMade then do
    printWarning (preservedWarning target)
    updateJournal fun journal => journal.warn [preservedWarning target]
  else pure ()

theorem carries_notePreserved (scope : Scope) (target : Text) (isMade : Bool) :
    (notePreserved target isMade).Carries scope.Agree := by
  unfold notePreserved
  split
  · exact (carries_printWarning _).bind fun _ => carries_note fun _ _ => Journal.warn_add
  · exact .pure _

/-- A directive that is applied has its target placed, with the warnings told. -/
theorem exists_place (hselected : selects job raw = true) {r : Except Failure Unit}
    (hend : (applyDirective job raw).Ends s r s') :
    ∃ m, s.Looks m ∧ (Placement.place job.library.suffix (sourceOf job raw) (targetOf job raw)
      job.vars >>= notePreserved (nameOf job raw)).Ends
        { m with journal := m.journal.warn (Visit.warnings ⟨job, raw, s⟩) } r s' := by
  obtain ⟨m, hlooks, hnext⟩ := exists_finish hend
  have happlied : (Directive.parse raw).conditions.hold job.vars = true := hselected
  rw [finish, if_pos happlied, updateJournal, ends_modify_bind] at hnext
  exact ⟨m, hlooks, hnext⟩

/-- A directive does the same in both sessions, or it fails in both. -/
theorem ends_applyDirective_near {scope : Scope} {names : List Text}
    (hselected : selects job raw = true) (h : scope.Near base ground names s t)
    (hleads : scope.Leads base ground names) (htarget : scope.target = targetOf job raw)
    (hoffers : scope.Offers job.library.suffix (sourceOf job raw) s) {r r' : Except Failure Unit}
    (hend : (applyDirective job raw).Ends s r s') (hend' : (applyDirective job raw).Ends t r' t') :
    (r' = .ok () ↔ r = .ok ()) ∧ (r = .ok () → scope.Agree s' t') := by
  obtain ⟨m, hlooks, hnext⟩ := exists_place hselected hend
  obtain ⟨m', hlooks', hnext'⟩ := exists_place hselected hend'
  have hnear := (h.of_looks hlooks hlooks').note
    (fun journal => journal.warn (Visit.warnings ⟨job, raw, s⟩)) fun _ _ => Journal.warn_add
  have hoffers' : scope.Offers job.library.suffix (sourceOf job raw)
      { m with journal := m.journal.warn (Visit.warnings ⟨job, raw, s⟩) } :=
    hoffers.of_kept (hlooks.tree ▸ .refl _) hlooks.here
  rw [← htarget] at hnext hnext'
  rcases ends_bind.1 hnext with ⟨isMade, u, hplace, hlast⟩ | ⟨failure, hplace, rfl⟩
  · rcases ends_bind.1 hnext' with ⟨isMade', u', hplace', hlast'⟩ | ⟨failure', hplace', rfl⟩
    · obtain ⟨hsame, hagree⟩ :=
        (hnear.ends_place hleads hoffers' hplace hplace').2 isMade rfl
      cases hsame
      obtain ⟨v, hcarried, hv⟩ := carries_notePreserved _ _ _ _ _ hagree _ _ hlast
      obtain ⟨rfl, rfl⟩ := hcarried.unique hlast'
      exact ⟨Iff.rfl, fun _ => hv⟩
    · cases ((hnear.ends_place hleads hoffers' hplace hplace').2 isMade rfl).1
  · rcases ends_bind.1 hnext' with ⟨isMade', u', hplace', -⟩ | ⟨failure', -, rfl⟩
    · cases (hnear.ends_place hleads hoffers' hplace hplace').1
    · exact ⟨by simp, by simp⟩

/-- Whatever becomes of a directive, nothing changes at places that lie apart from its target. -/
theorem outside_applyDirective {scope : Scope} {names : List Text}
    (hleads : scope.Leads base ground names) (htarget : scope.target = targetOf job raw)
    (hjob : job.target.IsProper) (hgrounds : Grounds s base ground) (hcalm : s.IsCalm)
    {r : Except Failure Unit} (hend : (applyDirective job raw).Ends s r s')
    (hplace : scope.place.Apart place) : s'.tree.get? place = s.tree.get? place := by
  let rel : Session → Session → Prop := fun s s' => s.Adds s' ∧
    (s.IsCalm → Grounds s base ground → s'.tree.get? place = s.tree.get? place)
  have hrel : Discipline rel := by
    refine ⟨fun s => ⟨.refl s, fun _ _ => rfl⟩, fun h h' => ⟨h.1.trans h'.1, ?_⟩⟩
    intro hcalm hgrounds
    have hgrows := h.1 hgrounds.well
    exact (h'.2 (hgrows.isCalm hcalm) (hgrounds.grows hgrows)).trans (h.2 hcalm hgrounds)
  have hfollows : (applyDirective job raw).Follows rel := by
    refine follows_applyDirective_of hrel (fun s s' h => ⟨h.adds, fun _ _ => by rw [h.tree]⟩)
      fun _ s r s' hend => ⟨follows_place (hjob.child _) _ _ _ hend, fun hcalm hgrounds => ?_⟩
    exact hleads.outside hgrounds hcalm (htarget ▸ hend) hplace.2 hplace.1
  exact (hfollows _ _ _ hend).2 hcalm hgrounds

end Scaffold

end Stencil
