import Stencil.Proofs.Scaffold.Performing

/-!
# Operations that passed their check

What the check of an operation finds is still there when the operation looks for
it: the manifest is remembered, and no directive takes a source away.  So the
entry is found, and every directive finds its source, whichever calls on files
are made to fail.
-/

namespace Stencil

open FileTree Session Action

variable {s m s' : Session} {path source suffix name : Text} {template : FilePath}

namespace Action

/-! ## Finding what the check found -/

/-- Looking for something fails only if the call is interrupted, and takes one interruption off. -/
theorem ends_exists?_bind {α : Type} {next : Bool → Action α} {r : Except Failure α}
    (h : (Storage.exists? path >>= next).Ends s r s') :
    (∃ failure rest, s.interruptions = some failure :: rest ∧ r = .error failure) ∨
      ∃ m, s.Looks m ∧ m.interruptions = s.interruptions.tail ∧
        (next (s.tree.look s.here path false).isOk).Ends m r s' := by
  have hexists : ∀ m : Session, s.Looks m →
      (exists? path).Ends m (.ok (s.tree.look s.here path false).isOk) m := fun m hlooks =>
    ends_exists?.2 ⟨by rw [hlooks.tree, hlooks.here], rfl⟩
  rw [Storage.exists?, Storage.interruptible, Storage.nextInterruption] at h
  cases hnext : s.interruptions with
  | nil =>
      simp only [bind_assoc, ends_get_bind, hnext, pure_bind] at h
      exact .inr ⟨s, .refl s, hnext, (hexists s (.refl s)).bind_iff.1 h⟩
  | cons first rest =>
      simp only [bind_assoc, ends_get_bind, hnext, ends_modify_bind, pure_bind] at h
      cases first with
      | none =>
          have hlooks : s.Looks { s with interruptions := rest } :=
            ⟨⟨rfl, rfl, fun hnone => by simp [hnone] at hnext⟩, rfl, rfl, rfl⟩
          exact .inr ⟨_, hlooks, rfl, (hexists _ hlooks).bind_iff.1 h⟩
      | some failure =>
          rcases ends_bind.1 h with ⟨_, _, hthrow, -⟩ | ⟨_, hthrow, rfl⟩
          · cases (ends_throw.1 hthrow).1
          · cases (ends_throw.1 hthrow).1
            exact .inl ⟨failure, rest, rfl, rfl⟩

/-- A source that is there is found, unless one of the two calls that look for it is
interrupted. -/
theorem ends_findSource_of_hasSource (hsource : s.tree.HasSource s.here suffix template source)
    {r : Except Failure FilePath}
    (h : (Placement.findSource suffix (template.child source)).Ends s r s') :
    (∃ found, r = .ok found ∧ (s.tree.look s.here found.text false).isOk = true) ∨
      ∃ failure, r = .error failure ∧ some failure ∈ s.interruptions.take 2 := by
  rcases ends_exists?_bind h with ⟨failure, rest, hfirst, rfl⟩ | ⟨m, hlooks, hleft, hnext⟩
  · exact .inr ⟨failure, rfl, by simp [hfirst]⟩
  cases hplain : (s.tree.look s.here (template.child source).text false).isOk with
  | true =>
      rw [hplain] at hnext
      exact .inl ⟨_, (ends_pure.1 hnext).1, hplain⟩
  | false =>
      rw [hplain] at hnext
      -- the path with the suffix is looked for in its shortest form, and the check did not do so
      have hsuffixed : (s.tree.look s.here
          (FilePath.ofText ((template.child source).text ++ suffix)).text false).isOk = true := by
        obtain ⟨item, hitem⟩ := isOk_iff.1 (hsource.resolve_left (by simp [hplain]))
        exact isOk_iff.2 (look_ofText hitem)
      rcases ends_exists?_bind hnext with ⟨failure, rest, hsecond, rfl⟩ | ⟨t, -, -, hlast⟩
      · refine .inr ⟨failure, rfl, ?_⟩
        rw [hleft] at hsecond
        cases hall : s.interruptions with
        | nil => simp [hall] at hsecond
        | cons first others =>
            rw [hall, List.tail_cons] at hsecond
            simp [hsecond]
      · rw [hlooks.tree, hlooks.here, hsuffixed] at hlast
        exact .inl ⟨_, (ends_pure.1 hlast).1, hsuffixed⟩

/-- An entry that was checked is taken from the manifest that is remembered. -/
theorem ends_findEntry_of_preflight {kind : Scaffold.Kind}
    {report : Preflight}
    (h : (Manifests.preflight suffix template kind.sectionName (some name)).Ends s (.ok report) m)
    (hvalid : report.isValid = true) :
    ∃ entry, ∀ t, m.Looks t → (Scaffold.findEntry template kind name).Ends t (.ok (.ok entry)) t := by
  obtain ⟨-, place, manifest, entries, hresolved, hlookup, hselected, -⟩ := ends_preflight h hvalid
  have hreads := follows_preflight _ _ _ _ _ _ _ h
  obtain ⟨hentries, entry, hentry⟩ : manifest.entries kind.sectionName ≠ [] ∧
      ∃ entry, manifest.find? kind.sectionName (some name) = some entry := by
    cases hall : manifest.entries kind.sectionName with
    | nil => simp [Manifests.selected, hall] at hselected
    | cons first rest =>
        refine ⟨List.cons_ne_nil _ _, ?_⟩
        simp only [Manifests.selected, hall] at hselected
        split at hselected
        · exact ⟨_, ‹_›⟩
        · cases hselected
  refine ⟨entry, fun t hlooks => ?_⟩
  have hload : (Manifests.load template).Ends t (.ok (some manifest)) t :=
    ends_load_of_lookup (by rwa [hlooks.tree, hlooks.here, hreads.tree, hreads.here])
      (by rwa [hlooks.manifests])
  refine hload.bind ?_
  have hkept : (some manifest).filter (fun manifest =>
      !(manifest.entries kind.sectionName).isEmpty) = some manifest := by
    simp [hentries]
  simp only [hkept, hentry]
  exact ends_pure.2 ⟨rfl, rfl⟩

end Action

namespace Scaffold

variable {library : Library} {operation : Operation} {job : Generator.Job} {v : Visit}
  {includes : List Text}

/-! ## Visits that fail or not -/

theorem Visit.follows_opening (v : Visit) : v.opening.Follows Adds := by
  have hrender : (renderTarget v.directive v.job.vars).Follows Looks :=
    fun _ _ _ h => (ends_renderTarget h).1
  refine discipline_adds.bind (hrender.mono fun _ _ => Looks.adds) fun rendered => ?_
  refine discipline_adds.bind ((follows_updateJournal _).mono fun _ _ => Notes.adds) fun _ => ?_
  exact (follows_storage_ensureDirectory _).mono fun _ _ => Ensures.addsAll

/-- Whatever fails, what was there before a run is there for every directive. -/
theorem opened_of_mem (hwell : s.tree.WellFormed) (htarget : job.target.IsProper)
    (hv : v ∈ visitsFrom job includes s) : s.Grows v.opened := by
  induction includes generalizing s with
  | nil => cases hv
  | cons raw includes ih =>
      rcases List.mem_cons.1 hv with rfl | hv
      · exact Visit.follows_opening _ _ _ _ (Ends.run _ _) hwell
      · have hgrows : s.Grows (Visit.after ⟨job, raw, s⟩) :=
          follows_applyDirective htarget raw _ _ _ (Ends.run _ _) hwell
        exact hgrows.trans (ih hgrows.added.well hv)

/-! ## Operations -/

/-- Once the check of an operation has passed, the entry is found, and so is the source of every
directive of the entry, unless a call that looks for it is interrupted. -/
theorem checked_entries_are_found (library : Library) (operation : Operation) (s : Session)
    (hwell : s.tree.WellFormed) {report : Preflight} {m : Session}
    (hpreflight : (Manifests.preflight library.suffix (library.template operation.templateName)
      operation.kind.sectionName (some operation.entryName)).Ends s (.ok report) m)
    (hvalid : report.isValid = true) :
    ∃ entry, (∀ t, m.Looks t → (findEntry (library.template operation.templateName) operation.kind
        operation.entryName).Ends t (.ok (.ok entry)) t) ∧
      ∀ v ∈ operation.visits library s, v.raw ∈ entry.includes ∧ ∀ t r t', v.opened.Looks t →
        (Placement.findSource library.suffix ((library.template operation.templateName).child
          v.directive.source)).Ends t r t' →
        (∃ found, r = .ok found ∧ (t.tree.look t.here found.text false).isOk = true) ∨
          ∃ failure, r = .error failure ∧ some failure ∈ t.interruptions.take 2 := by
  obtain ⟨entry, hfound⟩ := ends_findEntry_of_preflight hpreflight hvalid
  refine ⟨entry, hfound, fun v hv => ?_⟩
  rw [Operation.visits] at hv
  split at hv
  case h_2 => cases hv
  rename_i job hresult
  have hprepare := Ends.run (operation.prepare library) s
  rw [hresult] at hprepare
  have hreads := Operation.follows_prepare _ _ _ _ _ hprepare
  have hwell' : ((operation.prepare library).after s).tree.WellFormed := by rwa [hreads.tree]
  have hstart := (follows_storage_ensureDirectory _ _ _ _
    (Ends.run (Storage.ensureDirectory job.target.text) _)).addsAll hwell'
  set start := (Storage.ensureDirectory job.target.text).after
    ((operation.prepare library).after s)
  have hraw := (mem_visitsFrom hv).2
  have hgrows := opened_of_mem (s := { start with journal := .empty }) hstart.added.well
    (Operation.isProper_target_of_prepare hwell hprepare) hv
  obtain ⟨report', m', t, _, -, hpreflight', -, hfault, hfind, rfl, hjob'⟩ :=
    Operation.ends_prepare hprepare
  have htemplate : job.template = library.template operation.templateName := by rw [hjob']
  -- the operation comes to the entry that was found after the check
  obtain rfl : job.entry = entry := by
    rw [htemplate] at hpreflight' hfind
    obtain ⟨-, rfl⟩ := hpreflight'.unique hpreflight
    have hsame := (hfind.unique (hfound t (Operation.follows_targetFault? _ _ _ _ _ hfault))).1
    exact Except.ok.inj (Except.ok.inj hsame)
  refine ⟨hraw, fun u r u' hlooks hfindSource => ?_⟩
  have hsource := (Operation.checked_of_prepare hprepare).sources v.raw hraw
  rw [htemplate] at hsource
  refine ends_findSource_of_hasSource ?_ hfindSource
  rw [hlooks.tree, hlooks.here, hgrows.here, hstart.here, hreads.here]
  refine (hsource.kept ?_).kept hgrows.added.kept
  rw [← hreads.tree]
  exact hstart.added.kept

/-- A run in which no file can be written, and which is interrupted half-way. -/
theorem checked_entries_are_found_failing :
    ∃ report m, (Manifests.preflight Sample.library.suffix (Sample.library.template "w")
        Sections.featuresName (some "e")).Ends Sample.failing (.ok report) m ∧
      report.isValid = true ∧
      ∃ entry, (∀ t, m.Looks t → (findEntry (Sample.library.template "w") .feature "e").Ends t
          (.ok (.ok entry)) t) ∧
        ∀ v ∈ (Operation.feature (Sample.feature "/p")).visits Sample.library Sample.failing,
          v.raw ∈ entry.includes ∧ ∀ t r t', v.opened.Looks t →
          (Placement.findSource Sample.library.suffix ((Sample.library.template "w").child
            v.directive.source)).Ends t r t' →
          (∃ found, r = .ok found ∧ (t.tree.look t.here found.text false).isOk = true) ∨
            ∃ failure, r = .error failure ∧ some failure ∈ t.interruptions.take 2 := by
  have hvalid : ((Manifests.preflight Sample.library.suffix (Sample.library.template "w")
      Sections.featuresName (some "e")).result Sample.failing).toOption.any (·.isValid) = true := by
    decide +kernel
  obtain ⟨report, m, hend, hpassed⟩ := exists_ends_of_result hvalid
  exact ⟨report, m, hend, hpassed, checked_entries_are_found Sample.library
    (.feature (Sample.feature "/p")) Sample.failing (by decide +kernel) hend hpassed⟩

end Scaffold

end Stencil
