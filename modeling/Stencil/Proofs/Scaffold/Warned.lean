import Stencil.Proofs.Placement.Steady
import Stencil.Proofs.Scaffold.Preserved

/-!
# What is left out of targets

A success warns of all that was left out while targets were filled.  What was left
out while their files were recorded is only shown.  If no call is interrupted and
the target was made, filling has left out the same before and warned of it.  Of a
target that was preserved nothing but the console tells.
-/

namespace Stencil.Scaffold

open FileTree Session Action Placement

variable {library : Library} {operation : Operation} {job : Generator.Job} {s m s' : Session}
  {v : Visit} {includes : List Text} {miss : Miss} {journal gain : Journal}

namespace Visit

/-! ## The parts of a visit -/

/-- A selected directive, up to the question whether something is at its target. -/
def finding (v : Visit) : Action Bool := do
  v.opening
  Storage.exists? v.target.text

/-- A directive that makes its target, up to the copy of its source. -/
def copying (v : Visit) : Action Unit := do
  let _ ← v.finding
  let source ← findSource v.job.library.suffix (v.job.template.child v.directive.source)
  Storage.copy source.text v.target.text

/-- A directive that makes its target, until it is filled. -/
def filling (v : Visit) : Action Unit := do
  v.copying
  let warnings ← fill v.target.text v.job.vars
  updateJournal fun journal => journal.warn warnings

/-- What is left out while the target is filled. -/
def LeavesUnfilled (v : Visit) (miss : Miss) : Prop :=
  v.isMade = true ∧ MissedFrom (fillStep v.job.vars) v.target (v.copying.after v.before) miss

/-- What is left out while the files of the target are recorded. -/
inductive LeavesUnrecorded (v : Visit) (miss : Miss) : Prop where
  | made (isMade : v.isMade = true)
      (missed : MissedFrom (recordStep Journal.create) v.target (v.filling.after v.before) miss)
  | preserved (isSelected : v.isSelected = true) (unmade : v.isMade = false)
      (missed : MissedFrom (recordStep Journal.preserve) v.target (v.finding.after v.before) miss)

/-- The course of a visit that does not fail, whichever calls are made to fail. -/
inductive Steps (v : Visit) (s' : Session) : Prop where
  | skipped (unselected : v.isSelected = false)
  | preserved {m t : Session} (isSelected : v.isSelected = true) (unmade : v.isMade = false)
      (finds : v.finding.Ends v.before (.ok true) m)
      (records : (record Journal.preserve v.target.text).Ends m (.ok ()) t)
      (notes : t.Notes s') (works : t.Works s')
      (warns : s'.journal = t.journal.warn [preservedWarning (nameOf v.job v.raw)])
  | made {c f : Session} {warnings : List Text} (isMade : v.isMade = true)
      (copies : v.copying.Ends v.before (.ok ()) c)
      (fills : (fill v.target.text v.job.vars).Ends c (.ok warnings) f)
      (records : (record Journal.create v.target.text).Ends
        { f with journal := f.journal.warn warnings } (.ok ()) s')

theorem steps (h : (applyDirective v.job v.raw).Ends v.before (.ok ()) s') : v.Steps s' := by
  obtain ⟨_, m, hrender, hnext⟩ := ends_bind_ok.1 h
  cases (ends_renderTarget hrender).2
  dsimp only at hnext
  split at hnext
  case isFalse hskipped => exact .skipped (Bool.eq_false_iff.2 hskipped)
  rename_i hselected
  rw [updateJournal, ends_modify_bind] at hnext
  obtain ⟨made, t, hplace, hlast⟩ := ends_bind_ok.1 hnext
  obtain ⟨_, start, hensure, hplaced⟩ := ends_bind_ok.1 hplace
  obtain ⟨isThere, u, hexists, hdone⟩ := ends_bind_ok.1 hplaced
  have hopening : v.opening.Ends v.before (.ok ()) start :=
    hrender.bind (Ends.bind (ends_modify.2 ⟨rfl, rfl⟩) hensure)
  have hfinding : v.finding.Ends v.before (.ok isThere) u := hopening.bind hexists
  have hthere : (start.tree.look start.here v.target.text false).isOk = isThere :=
    (ends_storage_exists? hexists).2.1 _ rfl
  have hmade : v.isMade = !isThere := by
    rw [isMade, Visit.opened, hopening.after_eq, hthere, show v.isSelected = true from hselected,
      Bool.true_and]
  cases isThere with
  | true =>
      obtain ⟨_, w, hrecord, hpure⟩ := ends_bind_ok.1 hdone
      obtain ⟨hfound, rfl⟩ := ends_pure.1 hpure
      cases hfound
      obtain ⟨_, x, hprint, hwarn⟩ := ends_bind_ok.1 hlast
      have hshown := follows_printWarning _ _ _ _ hprint
      have hnoted := follows_updateJournal _ _ _ _ hwarn
      have hworks := discipline_works.trans (works_printWarning _ _ _ _ hprint)
        (works_updateJournal _ _ _ _ hwarn)
      obtain ⟨-, rfl⟩ := ends_modify.1 hwarn
      refine .preserved hselected hmade hfinding hrecord (hshown.notes.trans hnoted) hworks ?_
      rw [← hshown.journal]
      rfl
  | false =>
      obtain ⟨_, w, hmake, hpure⟩ := ends_bind_ok.1 hdone
      obtain ⟨hfound, rfl⟩ := ends_pure.1 hpure
      cases hfound
      obtain ⟨-, rfl⟩ := ends_pure.1 hlast
      obtain ⟨source, x, hsource, hcopied⟩ := ends_bind_ok.1 hmake
      obtain ⟨_, c, hcopy, hfilled⟩ := ends_bind_ok.1 hcopied
      obtain ⟨warnings, f, hfill, hrecorded⟩ := ends_bind_ok.1 hfilled
      rw [updateJournal, ends_modify_bind] at hrecorded
      exact .made hmade (hfinding.bind (hsource.bind hcopy)) hfill hrecorded

/-! ## Sessions on the way -/

theorem works_finding (v : Visit) : v.finding.Follows Works := by
  refine discipline_works.bind ?_ fun _ => works_exists? _
  refine discipline_works.bind (works_renderTarget _ _) fun rendered => ?_
  refine discipline_works.bind (works_updateJournal _) fun _ => ?_
  exact works_guarded (works_ensureDirectories _)

theorem works_copying (v : Visit) : v.copying.Follows Works := by
  refine discipline_works.bind v.works_finding fun _ => ?_
  exact discipline_works.bind (works_findSource _ _) fun source => works_guarded (works_copy _ _)

theorem works_filling (v : Visit) : v.filling.Follows Works := by
  refine discipline_works.bind v.works_copying fun _ => ?_
  exact discipline_works.bind (works_fill _ _) fun _ => works_updateJournal _

theorem ends_filling {c f : Session} {warnings : List Text}
    (hcopies : v.copying.Ends v.before (.ok ()) c)
    (hfills : (fill v.target.text v.job.vars).Ends c (.ok warnings) f) :
    v.filling.Ends v.before (.ok ()) { f with journal := f.journal.warn warnings } :=
  hcopies.bind (hfills.bind (ends_modify.2 ⟨rfl, rfl⟩))

theorem opens_of_opening (hwell : v.before.tree.WellFormed) (htarget : v.job.target.IsProper)
    (h : v.opening.Ends v.before (.ok ()) m) : v.opened = m ∧ v.Opens := by
  obtain ⟨rendered, t, hrender, hnext⟩ := ends_bind_ok.1 h
  obtain ⟨hlooks, hrendered⟩ := ends_renderTarget hrender
  cases hrendered
  dsimp only at hnext
  rw [updateJournal, ends_modify_bind] at hnext
  exact opens_of_ensure hwell htarget hlooks hrender hnext

theorem well_of_finding {isThere : Bool} (hwell : v.before.tree.WellFormed)
    (htarget : v.job.target.IsProper) (h : v.finding.Ends v.before (.ok isThere) m) :
    m.tree.WellFormed := by
  obtain ⟨_, start, hopening, hexists⟩ := ends_bind_ok.1 h
  obtain ⟨rfl, hopens⟩ := opens_of_opening hwell htarget hopening
  rw [(ends_storage_exists? hexists).1.tree]
  exact hopens.grows.added.well

/-- The copy of a source makes up a region. -/
theorem region_of_copying (hwell : v.before.tree.WellFormed) (htarget : v.job.target.IsProper)
    (hmade : v.isMade = true) (h : v.copying.Ends v.before (.ok ()) m) :
    ∃ place, m.tree.Region m.here v.target place ∧ (m.tree.get? place).isSome := by
  obtain ⟨_, t, hfinding, hnext⟩ := ends_bind_ok.1 h
  obtain ⟨_, start, hopening, hexists⟩ := ends_bind_ok.1 hfinding
  obtain ⟨source, u, hsource, hcopy⟩ := ends_bind_ok.1 hnext
  obtain ⟨rfl, hopens⟩ := opens_of_opening hwell htarget hopening
  have hlooks := (ends_storage_exists? hexists).1.trans (ends_findSource hsource).1
  cases hlook : v.opened.tree.look v.opened.here v.target.text false with
  | ok item => simp [isMade, hlook, Except.isOk, Except.toBool] at hmade
  | error failure =>
      rcases ends_storage_copy (by rw [hlooks.tree]; exact hopens.grows.added.well)
        (isProper_target htarget) (by rw [hlooks.tree, hlooks.here]; exact hopens.parent)
        (by rwa [hlooks.tree, hlooks.here]) hcopy with ⟨-, hr⟩ | ⟨place, -, u, -, hends⟩
      · exact absurd rfl hr
      · exact ⟨place, hends.region, by simpa using hends.made rfl⟩

/-! ## What a visit tells -/

/-- What a journal and the console tell of a target. -/
structure Accounts (v : Visit) (journal : Journal) (start finish : Session) : Prop where
  unfilled : ∀ miss, v.LeavesUnfilled miss → miss.warning ∈ journal.warnings
  unrecorded : ∀ miss, v.LeavesUnrecorded miss →
    start.Shows (warningLines miss.complaint) finish
  made : start.interruptions = [] → v.isMade = true → ∀ miss, v.LeavesUnrecorded miss →
    miss.warning ∈ journal.warnings
  listed : v.isSelected = true → ∀ way content,
    way = [] ∨ v.after.tree.Lists v.after.here v.target.text way →
    v.after.tree.look v.after.here (v.target.below way).text true = .ok (.file content) →
    (v.target.below way).text ∈ journal.created ++ journal.existing ∨
      ∃ miss rest, v.LeavesUnrecorded miss ∧ v.target.below way = miss.path.below rest

theorem Accounts.mono {t t' : Session} {later : Journal} (h : v.Accounts journal s s')
    (hjournal : later = journal.add gain) (hquiet : t.interruptions = [] → s.interruptions = [])
    (hearlier : t.shown <+: s.shown) (hlater : s'.shown <+: t'.shown) :
    v.Accounts later t t' := by
  subst hjournal
  refine ⟨fun miss hmiss => List.mem_append_left _ (h.unfilled miss hmiss),
    fun miss hmiss => .later hearlier (.earlier (h.unrecorded miss hmiss) hlater),
    fun hnone hmade miss hmiss => List.mem_append_left _ (h.made (hquiet hnone) hmade miss hmiss),
    fun hselected way content hway hlook => ?_⟩
  refine (h.listed hselected way content hway hlook).imp_left fun hmem => ?_
  rcases List.mem_append.1 hmem with hmem | hmem
  · exact List.mem_append_left _ (List.mem_append_left _ hmem)
  · exact List.mem_append_right _ (List.mem_append_left _ hmem)

theorem accounts_of_skipped (hskipped : v.isSelected = false) : v.Accounts journal s s' := by
  have hunmade : v.isMade = false := by rw [isMade, hskipped, Bool.false_and]
  have hnone : ∀ miss, ¬ v.LeavesUnrecorded miss := by
    rintro miss (⟨hmade, -⟩ | ⟨hselected, -, -⟩)
    · simp [hunmade] at hmade
    · simp [hskipped] at hselected
  exact ⟨fun miss hmiss => by simp [hmiss.1] at hunmade,
    fun miss hmiss => absurd hmiss (hnone miss), fun _ hmade => by simp [hmade] at hunmade,
    fun hselected => by simp [hskipped] at hselected⟩

/-- How the files of a selected target are recorded, be it preserved or made. -/
structure Records (v : Visit) (note : Journal → Text → Journal) (m t : Session) : Prop where
  ends : (record note v.target.text).Ends m (.ok ()) t
  well : m.tree.WellFormed
  earlier : v.before.Works m
  later : t.Works v.after
  notes : t.Notes v.after
  told : ∀ file, m.Noted note file t → file ∈ v.after.journal.created ++ v.after.journal.existing
  missed : ∀ miss, v.LeavesUnrecorded miss ↔ MissedFrom (recordStep note) v.target m miss

theorem Steps.records (h : v.Steps v.after) (hwell : v.before.tree.WellFormed)
    (htarget : v.job.target.IsProper) (hselected : v.isSelected = true) :
    ∃ note m t, v.Records note m t := by
  cases h with
  | skipped hskipped => simp [hselected] at hskipped
  | @preserved m t _ hunmade hfinds hrecords hnotes hworks hwarns =>
      refine ⟨_, m, t, hrecords, well_of_finding hwell htarget hfinds,
        v.works_finding _ _ _ hfinds, hworks, hnotes, fun file hnoted => ?_, fun miss => ?_⟩
      · rw [hwarns]
        exact List.mem_append_right _ (hnoted.mem_existing)
      · rw [← hfinds.after_eq]
        refine ⟨fun hmiss => ?_, .preserved hselected hunmade⟩
        rcases hmiss with ⟨hmade, -⟩ | ⟨-, -, hmissed⟩
        · simp [hunmade] at hmade
        · exact hmissed
  | @made c f warnings hmade hcopies hfills hrecords =>
      obtain ⟨place, hregion, hthere⟩ := region_of_copying hwell htarget hmade hcopies
      have hfilling := ends_filling hcopies hfills
      refine ⟨_, _, _, hrecords, (ends_fill hregion hthere hfills).region.well,
        v.works_filling _ _ _ hfilling, discipline_works.refl _, discipline_notes.refl _,
        fun file hnoted => ?_, fun miss => ?_⟩
      · exact List.mem_append_left _ (hnoted.mem_created)
      · rw [← hfilling.after_eq]
        refine ⟨fun hmiss => ?_, .made hmade⟩
        rcases hmiss with ⟨-, hmissed⟩ | ⟨-, hunmade, -⟩
        · exact hmissed
        · simp [hmade] at hunmade

/-- A target that was made is warned of: of what filling left out and, if no call is interrupted,
of what recording left out. -/
theorem Steps.warnings_of_made (h : v.Steps v.after) (hwell : v.before.tree.WellFormed)
    (htarget : v.job.target.IsProper) (hmade : v.isMade = true) :
    (∀ miss, v.LeavesUnfilled miss → miss.warning ∈ v.after.journal.warnings) ∧
      (v.before.interruptions = [] → ∀ miss, v.LeavesUnrecorded miss →
        miss.warning ∈ v.after.journal.warnings) := by
  cases h with
  | skipped hskipped => simp [isMade, hskipped] at hmade
  | preserved _ hunmade => simp [hmade] at hunmade
  | @made c f warnings _ hcopies hfills hrecords =>
      have hproper := isProper_target htarget
      obtain ⟨place, hregion, hthere⟩ := region_of_copying hwell htarget hmade hcopies
      obtain ⟨files, hfiles⟩ := (gathers_record _ _ _ _ hrecords).noted
      have hwarned : ∀ miss, MissedFrom (fillStep v.job.vars) v.target c miss →
          miss.warning ∈ v.after.journal.warnings := by
        intro miss hmissed
        rw [hfiles, foldl_create]
        exact List.mem_append_right _ (warning_mem_of_missedFrom hproper hfills hmissed)
      refine ⟨fun miss hmiss => hwarned miss ?_, fun hquiet miss hmiss => hwarned miss ?_⟩
      · rw [← hcopies.after_eq]
        exact hmiss.2
      -- recording is answered as filling was, and filling has warned
      have hsteady : c.IsSteady c.tree c.here c.faults :=
        ⟨⟨.refl _, rfl, hregion.well⟩, rfl, (v.works_copying _ _ _ hcopies).calm hquiet⟩
      have hfilled := steady_fill hsteady hproper (hregion.exists_look hthere) hfills
      rcases hmiss with ⟨-, hmissed⟩ | ⟨-, hunmade, -⟩
      · rw [(ends_filling hcopies hfills).after_eq] at hmissed
        refine missedFrom_fillStep hsteady (hfilled.of_notes ?_) hproper hfills hmissed
        exact follows_updateJournal (·.warn warnings) _ _ _ (ends_modify.2 ⟨rfl, rfl⟩)
      · simp [hmade] at hunmade

theorem accounts (hwell : v.before.tree.WellFormed) (htarget : v.job.target.IsProper)
    (h : (applyDirective v.job v.raw).Ends v.before (.ok ()) s') :
    v.Accounts v.after.journal v.before v.after := by
  have hsteps : v.Steps v.after := by
    rw [show v.after = s' from h.after_eq]
    exact steps h
  cases hselected : v.isSelected with
  | false => exact accounts_of_skipped hselected
  | true =>
      have hmade := hsteps.warnings_of_made hwell htarget
      obtain ⟨note, m, t, hrecords⟩ := hsteps.records hwell htarget hselected
      refine ⟨fun miss hmiss => (hmade hmiss.1).1 miss hmiss, fun miss hmiss => ?_,
        fun hquiet hismade => (hmade hismade).2 hquiet, fun _ way content hway hlook => ?_⟩
      · exact .later hrecords.earlier.shown (.earlier (shows_of_missedFrom (isProper_target htarget)
          hrecords.ends ((hrecords.missed miss).1 hmiss)) hrecords.later.shown)
      · have hgathers := gathers_record _ _ _ _ hrecords.ends
        rw [hrecords.notes.tree, hrecords.notes.here, hgathers.tree, hgathers.here] at hway hlook
        rcases noted_or_missedFrom hrecords.well (isProper_target htarget) hrecords.ends hway hlook
          with hnoted | ⟨miss, rest, hmissed, hbelow⟩
        · exact .inl (hrecords.told _ hnoted)
        · exact .inr ⟨miss, rest, (hrecords.missed miss).2 hmissed, hbelow⟩

/-- All that is warned of a target that was preserved is that it was, and that it was not
rendered. -/
theorem Steps.warnings_of_preserved (h : v.Steps v.after) (hwell : v.before.tree.WellFormed)
    (htarget : v.job.target.IsProper) (hselected : v.isSelected = true)
    (hunmade : v.isMade = false) :
    v.after.journal.warnings = v.before.journal.warnings ++ v.warnings ++
      [preservedWarning (nameOf v.job v.raw)] := by
  cases h with
  | skipped hskipped => simp [hselected] at hskipped
  | made hmade => simp [hunmade] at hmade
  | @preserved m t _ _ hfinds hrecords _ _ hwarns =>
      obtain ⟨_, start, hopening, hexists⟩ := ends_bind_ok.1 hfinds
      obtain ⟨rfl, hopens⟩ := opens_of_opening hwell htarget hopening
      obtain ⟨files, hfiles⟩ := (gathers_record _ _ _ _ hrecords).noted
      rw [hwarns, hfiles, foldl_preserve, (ends_storage_exists? hexists).1.journal, hopens.journal]
      rfl

end Visit

/-! ## Runs -/

/-- Every visit of a run that does not fail comes to its end, and the run goes on from there. -/
theorem ends_of_mem (hwell : s.tree.WellFormed) (htarget : job.target.IsProper)
    (h : (includes.forM (applyDirective job)).Ends s (.ok ()) s')
    (hv : v ∈ visitsFrom job includes s) :
    v.job = job ∧ v.before.tree.WellFormed ∧ s.Works v.before ∧
      (applyDirective v.job v.raw).Ends v.before (.ok ()) v.after ∧ v.after.Works s' ∧
      ∃ gain, s'.journal = v.after.journal.add gain := by
  induction includes generalizing s with
  | nil => cases hv
  | cons raw includes ih =>
      obtain ⟨hfirst, hrest⟩ := ends_applyAll_cons h
      have hwell' := (follows_applyDirective htarget raw _ _ _ hfirst hwell).added.well
      rcases List.mem_cons.1 hv with rfl | hv
      · obtain ⟨gains, -, hjournal, -, -⟩ := run_reports hwell' htarget hrest
        have hworks := discipline_works.forM (fun raw _ => works_applyDirective job raw) _ _ _ hrest
        exact ⟨rfl, hwell, discipline_works.refl s, hfirst, hworks, _, hjournal⟩
      · obtain ⟨hjob, hbefore, hworks, hend, hlater⟩ := ih hwell' hrest hv
        exact ⟨hjob, hbefore, discipline_works.trans (works_applyDirective _ _ _ _ _ hfirst) hworks,
          hend, hlater⟩

/-- A success warns of all that was left out while its targets were filled.  What was left out while
their files were recorded is shown; it is warned of if the target was made and no call is
interrupted, but not if the target was preserved.  Every file of a target is listed, or it lies
where something was left out. -/
theorem left_out_is_told (library : Library) (operation : Operation) (s : Session)
    (hwell : s.tree.WellFormed) (hdirect : operation.usesGenerator library s = false)
    (hsuccess : operation.succeeds library s = true) :
    ∃ outcome s', (operation.perform library).Ends s (.ok outcome) s' ∧ outcome.success = true ∧
      ∀ v ∈ operation.visits library s,
        v.Accounts ⟨outcome.created, outcome.existing, outcome.warnings⟩ s s' ∧
        (v.isSelected = true → v.isMade = false → v.after.journal.warnings =
          v.before.journal.warnings ++ v.warnings ++ [preservedWarning (nameOf v.job v.raw)]) := by
  obtain ⟨job, start, finish, hrun⟩ := exists_runsTo hdirect hsuccess
  obtain ⟨m, hprepare, hensure⟩ := hrun.prepared
  refine ⟨_, _, hrun.ended, rfl, fun v hv => ?_⟩
  rw [hrun.visits_eq] at hv
  obtain ⟨hjob, hbefore, hworks, hend, hlater, gain, hjournal⟩ :=
    ends_of_mem (s := { start with journal := .empty }) (hrun.adds hwell).1
      (hrun.isProper_target hwell) hrun.run hv
  have htarget : v.job.target.IsProper := hjob ▸ hrun.isProper_target hwell
  have hearlier : s.shown <+: v.before.shown := by
    have hprepared : s.shown <+: m.shown := ⟨_, (shown_prepare hprepare).symm⟩
    have hensured : m.shown <+: start.shown :=
      (works_guarded (works_ensureDirectories _) _ _ _ hensure).shown
    exact (hprepared.trans hensured).trans hworks.shown
  have hquiet : s.interruptions = [] → v.before.interruptions = [] :=
    fun hnone => hworks.calm (hrun.agrees.calm hnone)
  refine ⟨?_, (Visit.steps hend).warnings_of_preserved hbefore htarget⟩
  exact (Visit.accounts hbefore htarget hend).mono hjournal hquiet hearlier hlater.shown

namespace Sample

/-- One directory is there and holds a link that leads nowhere.  Another one is made, and a
directory in it cannot be listed. -/
def linked : Session :=
  { session ["d", "e"]
      [(["t", "w", "d"], .directory), (["t", "w", "e"], .directory),
        (["t", "w", "e", "k"], .directory), (["t", "w", "e", "k", "g"], file "hi"),
        (["p", "d"], .directory), (["p", "d", "l"], .link "nowhere")] with
    faults := [⟨.list, some "/p/e/k", .injected "denied"⟩] }

end Sample

theorem left_out_is_told_linked :
    let feature := Operation.feature (Sample.feature "/p")
    Sample.linked.tree.WellFormed ∧
      feature.usesGenerator Sample.library Sample.linked = false ∧
      feature.succeeds Sample.library Sample.linked = true ∧
      ∃ outcome s', (feature.perform Sample.library).Ends Sample.linked (.ok outcome) s' ∧
        outcome.success = true ∧
        ∀ v ∈ feature.visits Sample.library Sample.linked,
          v.Accounts ⟨outcome.created, outcome.existing, outcome.warnings⟩ Sample.linked s' ∧
          (v.isSelected = true → v.isMade = false → v.after.journal.warnings =
            v.before.journal.warnings ++ v.warnings ++ [preservedWarning (nameOf v.job v.raw)]) :=
  ⟨by decide +kernel, by decide +kernel, by decide +kernel,
    left_out_is_told _ _ _ (by decide +kernel) (by decide +kernel) (by decide +kernel)⟩

/-- Whether the only item of a preserved directory cannot be looked at. -/
def Visit.losesItem (v : Visit) (name : Text) : Bool :=
  let found := v.finding.after v.before
  let asked := (Storage.isDirectory v.target.text).after found
  let listed := (Storage.names v.target.text).after asked
  v.isSelected && !v.isMade &&
    decide (((Storage.isDirectory v.target.text).result found).toOption = some true) &&
    decide (((Storage.names v.target.text).result asked).toOption = some [name]) &&
    !((Storage.item (v.target.child name).text).result listed).isOk

theorem Visit.leavesUnrecorded_of_losesItem {name : Text} (h : v.losesItem name = true) :
    ∃ failure, v.LeavesUnrecorded (.item (v.target.child name) failure) := by
  simp only [losesItem, Bool.and_eq_true, decide_eq_true_eq, Bool.not_eq_true'] at h
  obtain ⟨⟨⟨⟨hselected, hunmade⟩, hdirectory⟩, hnames⟩, hitem⟩ := h
  obtain ⟨failure, hfails⟩ := exists_ends_error hitem
  exact ⟨failure, .preserved hselected hunmade ⟨_, Ends.of_result hdirectory,
    .item (Ends.of_result (show _ = some ([] ++ name :: []) from hnames)) .done hfails⟩⟩

/-- Recording leaves out a link that leads nowhere, and no warning names it. -/
theorem left_out_links_are_not_warned_of :
    let feature := Operation.feature (Sample.feature "/p")
    feature.usesGenerator Sample.library Sample.linked = false ∧
      feature.succeeds Sample.library Sample.linked = true ∧
      ∃ v ∈ feature.visits Sample.library Sample.linked, ∃ miss, v.LeavesUnrecorded miss ∧
        ∀ outcome, feature.outcome? Sample.library Sample.linked = some outcome →
          ∀ warning ∈ outcome.warnings, ¬ miss.path.text <:+: warning := by
  intro feature
  refine ⟨by decide +kernel, by decide +kernel, ?_⟩
  have hvisits : (feature.visits Sample.library Sample.linked).any (fun v => v.losesItem "l" &&
      decide ((v.target.child "l").text = "/p/d/l")) = true := by decide +kernel
  have hwarnings : (feature.outcome? Sample.library Sample.linked).all (fun outcome =>
      outcome.warnings.all fun warning => !decide (("/p/d/l" : Text) <:+: warning)) = true := by
    decide +kernel
  obtain ⟨v, hv, hvisit⟩ := List.any_eq_true.1 hvisits
  obtain ⟨hloses, hpath⟩ := Bool.and_eq_true_iff.1 hvisit
  obtain ⟨failure, hmiss⟩ := Visit.leavesUnrecorded_of_losesItem hloses
  refine ⟨v, hv, _, hmiss, fun outcome houtcome warning hwarning => ?_⟩
  rw [houtcome] at hwarnings
  have hunnamed := List.all_eq_true.1 hwarnings warning hwarning
  rw [Miss.path, of_decide_eq_true hpath]
  simpa using hunnamed

end Stencil.Scaffold
