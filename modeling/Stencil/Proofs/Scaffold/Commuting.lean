import Stencil.Proofs.Scaffold.Merging

/-!
# Independent directives in another order

Where the directives of an entry are independent, an operation succeeds with them
in any order if it does in one.  It leaves the same files, and it tells of the
same ones.
-/

namespace Stencil

open FileTree Session Action

/-! ## Journals in another order -/

/-- Two journals tell the same, perhaps in another order. -/
structure Journal.IsReordered (journal other : Journal) : Prop where
  created : other.created.Perm journal.created
  existing : other.existing.Perm journal.existing
  warnings : other.warnings.Perm journal.warnings

theorem Journal.isReordered_total {journals others : List Journal} (h : others.Perm journals) :
    (total journals).IsReordered (total others) :=
  ⟨h.flatMap_right _, h.flatMap_right _, h.flatMap_right _⟩

theorem Session.SameFiles.of_reads {s t s' t' : Session} (h : s.SameFiles t) (hs : s.Reads s')
    (ht : t.Reads t') : s'.SameFiles t' :=
  ⟨by rw [ht.tree, hs.tree, h.tree], by rw [ht.here, hs.here, h.here],
    hs.isCalm h.calm.1, ht.isCalm h.calm.2⟩

namespace Scaffold

variable {library : Library} {operation : Operation} {job : Generator.Job} {entry : Entry}
  {here place : Location} {raw : Text} {includes done done' : List Text}
  {s t m s' t' origin start finish : Session}

/-! ## Runs in another order -/

/-- A job with other directives. -/
def withIncludes (job : Generator.Job) (includes : List Text) : Generator.Job :=
  { job with entry := { job.entry with includes := includes } }

theorem Independent.withIncludes (h : Independent job here)
    (hperm : includes.Perm job.entry.includes) : Independent (withIncludes job includes) here :=
  ⟨fun raw hraw => h.down raw (hperm.mem_iff.1 hraw),
    ((hperm.filter _).pairwise_iff fun hapart => hapart.symm).2 h.targets,
    fun raw hraw hselected other hother =>
      h.sources raw (hperm.mem_iff.1 hraw) hselected other (hperm.mem_iff.1 hother)⟩

theorem Prepared.withIncludes (h : Prepared job origin)
    (hperm : includes.Perm job.entry.includes) : Prepared (withIncludes job includes) origin :=
  ⟨h.calm, h.well, h.unlinked, h.proper, h.template, h.directory,
    fun raw hraw => h.sources raw (hperm.mem_iff.1 hraw), h.journal⟩

theorem Merged.of_withIncludes (h : Merged (withIncludes job includes) origin done t) :
    Merged job origin done t :=
  ⟨h.here, h.calm, h.added, h.applied, h.above, h.rest, h.journal⟩

/-- Sessions after the same directives have the same files. -/
theorem Merged.get?_eq (h : Merged job origin done t) (h' : Merged job origin done' t')
    (hperm : done'.Perm done) (place : Location) : t'.tree.get? place = t.tree.get? place := by
  by_cases hall : ∀ raw ∈ done, (placeOf job origin.here raw).Apart place
  · rw [h.rest place hall, h'.rest place fun raw hraw => hall raw (hperm.mem_iff.1 hraw)]
  · obtain ⟨raw, hnot⟩ := not_forall.1 hall
    obtain ⟨hraw, hnot⟩ := Classical.not_imp.1 hnot
    rw [h.applied raw hraw place hnot, h'.applied raw (hperm.mem_iff.2 hraw) place hnot]

theorem Merged.isReordered (h : Merged job origin done t) (h' : Merged job origin done' t')
    (hperm : done'.Perm done) : t.journal.IsReordered t'.journal := by
  rw [h.journal, h'.journal]
  exact Journal.isReordered_total (hperm.map _)

/-- A run succeeds in any order if it does in one, and it leaves the same. -/
theorem run_reordered (hprepared : Prepared job origin)
    (hindependent : Independent job origin.here) (hperm : includes.Perm job.entry.includes)
    (hfiles : origin.SameFiles t) (hjournal : t.journal = .empty)
    (hrun : (job.entry.includes.forM (applyDirective job)).Ends origin (.ok ()) s') :
    ∃ t', (includes.forM (applyDirective job)).Ends t (.ok ()) t' ∧
      (∀ place, t'.tree.get? place = s'.tree.get? place) ∧ s'.journal.IsReordered t'.journal := by
  have hsame : origin.SameFiles origin := ⟨rfl, rfl, hprepared.calm, hprepared.calm⟩
  obtain ⟨hiff, hmerged⟩ := hprepared.run hindependent hsame hprepared.journal hrun
  have hend := Ends.run (includes.forM (applyDirective job)) t
  obtain ⟨hiff', hmerged'⟩ := (hprepared.withIncludes hperm).run (hindependent.withIncludes hperm)
    hfiles hjournal hend
  have hresult := hiff'.2 fun raw hraw => hiff.1 rfl raw (hperm.mem_iff.1 hraw)
  rw [hresult] at hend
  have hother : Merged job origin (includes.filter (selects job)) _ :=
    (hmerged' hresult).of_withIncludes
  exact ⟨_, hend, (hmerged rfl).get?_eq hother (hperm.filter _),
    (hmerged rfl).isReordered hother (hperm.filter _)⟩

/-! ## Operations in another order -/

namespace Operation

/-- The entry of the manifest that is loaded for an operation. -/
def loaded? (library : Library) (operation : Operation) (s : Session) : Option Entry :=
  match (Manifests.load (library.template operation.templateName)).result s with
  | .ok (some manifest) =>
      manifest.find? operation.kind.sectionName (some operation.entryName)
  | _ => none

/-- The job of an operation that works on a target. -/
def jobOn (library : Library) (operation : Operation) (entry : Entry) (target : FilePath) :
    Generator.Job :=
  ⟨library, entry, library.template operation.templateName, target, operation.vars target⟩

theorem load_of_loaded (h : operation.loaded? library s = some entry) :
    ∃ manifest m, (Manifests.load (library.template operation.templateName)).Ends s
      (.ok (some manifest)) m ∧
        manifest.find? operation.kind.sectionName (some operation.entryName) = some entry := by
  rw [loaded?] at h
  split at h
  · rename_i manifest hload
    exact ⟨manifest, _, hload ▸ Ends.run _ _, h⟩
  · cases h

/-- An operation is prepared with the entry that is loaded for it. -/
theorem job_of_prepare (hcalm : s.IsCalm) (hentry : operation.loaded? library s = some entry)
    (h : (operation.prepare library).Ends s (.ok (.ok job)) m) :
    job = operation.jobOn library entry job.target := by
  obtain ⟨manifest, t, hload, hfind⟩ := load_of_loaded hentry
  obtain ⟨report, u, u', _, -, hpreflight, hvalid, hfault, hfound, rfl, hjob⟩ := ends_prepare h
  have htemplate : job.template = library.template operation.templateName := by rw [hjob]
  rw [htemplate] at hpreflight hfound
  obtain ⟨v, w, loaded, entries, hexists, hload', hselected, hfilter⟩ :=
    ends_preflight_steps hpreflight hvalid
  rw [Storage.exists?, hcalm.ends_interruptible, ends_exists?] at hexists
  obtain ⟨-, rfl⟩ := hexists
  obtain ⟨hsame, rfl⟩ := hload.unique hload'
  obtain rfl : manifest = loaded := Option.some.inj (Except.ok.inj hsame)
  -- what is remembered after the check is what was loaded for it
  obtain ⟨place, hresolved, hlookup⟩ := (ends_load hload).2 _ rfl
  obtain ⟨place', manifest', hresolved', hlookup', -, hfind'⟩ := ends_findEntry hfound
  have hfiltered := discipline_looks.filterM (fun raw _ => follows_isMissing _ _ raw) _ _ _ hfilter
  have hfaulted := follows_targetFault? _ _ _ _ _ hfault
  have hreads := (ends_load hload).1.trans (hfiltered.trans hfaulted).reads
  rw [hreads.tree, hreads.here, hresolved] at hresolved'
  cases hresolved'
  have hkept := (follows_findEntry _ _ _ _ _ _ hfound).remembered place manifest
    (by rw [hfaulted.manifests, hfiltered.manifests, hlookup manifest rfl])
  obtain rfl : manifest = manifest' := Option.some.inj (hkept.symm.trans hlookup')
  obtain rfl : entry = job.entry := Option.some.inj (hfind.symm.trans hfind')
  exact hjob

/-- An operation is prepared with other directives if it is prepared with some. -/
theorem exists_prepare_withIncludes (hfiles : s.SameFiles t)
    (hentry : operation.loaded? library s = some entry)
    (hentry' : operation.loaded? library t = some { entry with includes := includes })
    (hperm : includes.Perm entry.includes)
    (h : (operation.prepare library).Ends s (.ok (.ok job)) m) :
    ∃ m', (operation.prepare library).Ends t (.ok (.ok (withIncludes job includes))) m' := by
  have hjob := job_of_prepare hfiles.calm.1 hentry h
  have hchecked := checked_of_prepare h
  obtain ⟨report, u, u', _, htarget, hpreflight, -, hfault, -⟩ := ends_prepare h
  obtain ⟨manifest, m', hload, hfind⟩ := load_of_loaded hentry'
  have hreads := follows_preflight _ _ _ _ _ _ _ hpreflight
  have hsame : u.SameFiles t := ⟨by rw [hreads.tree, hfiles.tree], by rw [hreads.here, hfiles.here],
    hreads.isCalm hfiles.calm.1, hfiles.calm.2⟩
  obtain ⟨t', htarget', -⟩ := carries_target operation s t hfiles _ _ htarget
  obtain rfl := follows_target _ _ _ _ htarget'
  obtain ⟨v, hfault', -⟩ := carries_targetFault? _ _ _ _ hsame _ _ hfault
  have htemplate : job.template = library.template operation.templateName := by rw [hjob, jobOn]
  have hincludes : job.entry.includes = entry.includes := by rw [hjob, jobOn]
  have hsources : ∀ raw ∈ includes, t.tree.HasSource t.here library.suffix
      (library.template operation.templateName) (Directive.parse raw).source := by
    intro raw hraw
    rw [hfiles.tree, hfiles.here, ← htemplate]
    exact hchecked.sources raw (hincludes ▸ hperm.mem_iff.1 hraw)
  obtain ⟨s', -, hprepare⟩ := exists_prepare hfiles.calm.2 htarget'
    (by rw [hfiles.tree, hfiles.here, ← htemplate]; exact hchecked.template) hload hfind hsources
    hfault'
  refine ⟨s', ?_⟩
  rw [hjob]
  exact hprepare

theorem usesGenerator_of_loaded (hcalm : s.IsCalm)
    (hentry : operation.loaded? library s = some entry)
    (hdirect : (entry.generator.filter fun name => !name.isEmpty) = none) :
    operation.usesGenerator library s = false := by
  rw [usesGenerator]
  split
  · rename_i job hresult
    have hjob := job_of_prepare hcalm hentry (hresult ▸ Ends.run _ _)
    rw [hjob, jobOn, hdirect]
    rfl
  · rfl

/-- The session in which the first directive of a run is applied. -/
theorem RunsTo.prepared_start (hrun : operation.RunsTo library s job start finish)
    (hcalm : s.IsCalm) (hwell : s.tree.WellFormed) (hunlinked : s.tree.IsUnlinked)
    (hroot : library.root.IsProper) : Prepared job { start with journal := .empty } := by
  have hproper := hrun.isProper_target hwell
  obtain ⟨hwell', hadds⟩ := hrun.adds hwell
  obtain ⟨m, hprepare, hensure⟩ := hrun.prepared
  obtain ⟨-, -, -, -, -, -, -, -, -, -, hjob⟩ := ends_prepare hprepare
  have hreads := follows_prepare _ _ _ _ _ hprepare
  have hlook := look_of_storage_ensureDirectory (by rwa [hreads.tree]) hproper hensure
  refine ⟨hrun.agrees.isCalm hcalm, hwell', (hadds.isAddedTo hwell').isUnlinked hunlinked, hproper,
    ?_, hlook, fun raw hraw => ?_, rfl⟩
  · rw [hjob]
    exact hroot.child _
  · have hlibrary : job.library = library := by rw [hjob]
    rw [hlibrary]
    show start.tree.HasSource start.here _ _ _
    rw [hrun.agrees.here]
    exact ((checked_of_prepare hprepare).sources raw hraw).kept hadds.kept

/-- An operation that runs to its end with some directives does so with them in any order. -/
theorem RunsTo.withIncludes (hrun : operation.RunsTo library s job start finish)
    (hfiles : s.SameFiles t) (hwell : s.tree.WellFormed) (hunlinked : s.tree.IsUnlinked)
    (hroot : library.root.IsProper) (hentry : operation.loaded? library s = some entry)
    (hentry' : operation.loaded? library t = some { entry with includes := includes })
    (hperm : includes.Perm entry.includes)
    (hdirect : (entry.generator.filter fun name => !name.isEmpty) = none)
    (hindependent : Independent job s.here) :
    ∃ start' finish', operation.RunsTo library t (withIncludes job includes) start' finish' ∧
      (∀ place, finish'.tree.get? place = finish.tree.get? place) ∧
      finish.journal.IsReordered finish'.journal := by
  have hprepared := hrun.prepared_start hfiles.calm.1 hwell hunlinked hroot
  obtain ⟨m, hprepare, hensure⟩ := hrun.prepared
  have hjob := job_of_prepare hfiles.calm.1 hentry hprepare
  have hincludes : job.entry.includes = entry.includes := by rw [hjob, jobOn]
  obtain ⟨m', hprepare'⟩ := exists_prepare_withIncludes hfiles hentry hentry' hperm hprepare
  have hsame := hfiles.of_reads (follows_prepare _ _ _ _ _ hprepare)
    (follows_prepare _ _ _ _ _ hprepare')
  obtain ⟨start', hensure', hstart⟩ :=
    carries_storage_ensureDirectory_sameFiles _ _ _ hsame _ _ hensure
  have hhere : start.here = s.here := hrun.agrees.here
  obtain ⟨finish', hrun', htree, hjournal⟩ := run_reordered hprepared (hhere ▸ hindependent)
    (hincludes ▸ hperm) (t := { start' with journal := .empty })
    ⟨hstart.tree, hstart.here, hstart.calm⟩ rfl hrun.run
  refine ⟨start', finish', ?_, htree, hjournal⟩
  exact runsTo_of_run (usesGenerator_of_loaded hfiles.calm.2 hentry' hdirect) hprepare' hensure'
    hrun'

/-- An operation that succeeds with some directives does so with them in any order. -/
theorem succeeds_withIncludes (hfiles : s.SameFiles t) (hwell : s.tree.WellFormed)
    (hunlinked : s.tree.IsUnlinked) (hroot : library.root.IsProper)
    (hentry : operation.loaded? library s = some entry)
    (hentry' : operation.loaded? library t = some { entry with includes := includes })
    (hperm : includes.Perm entry.includes)
    (hdirect : (entry.generator.filter fun name => !name.isEmpty) = none)
    (hindependent : ∀ target, operation.target.result s = .ok target →
      Independent (operation.jobOn library entry target) s.here)
    (hsuccess : operation.succeeds library s = true) :
    operation.succeeds library t = true ∧
      (∀ place, ((operation.perform library).after t).tree.get? place =
        ((operation.perform library).after s).tree.get? place) ∧
      ∃ outcome outcome', operation.outcome? library s = some outcome ∧
        operation.outcome? library t = some outcome' ∧
        outcome'.created.Perm outcome.created ∧ outcome'.existing.Perm outcome.existing ∧
        outcome'.warnings.Perm outcome.warnings := by
  obtain ⟨job, start, finish, hrun⟩ :=
    exists_runsTo (usesGenerator_of_loaded hfiles.calm.1 hentry hdirect) hsuccess
  obtain ⟨m, hprepare, -⟩ := hrun.prepared
  obtain ⟨-, -, -, -, htarget, -⟩ := ends_prepare hprepare
  have hjob := job_of_prepare hfiles.calm.1 hentry hprepare
  have hindependent' : Independent job s.here := by
    rw [hjob]
    exact hindependent _ htarget.result_eq
  obtain ⟨start', finish', hrun', htree, hjournal⟩ := hrun.withIncludes hfiles hwell hunlinked hroot
    hentry hentry' hperm hdirect hindependent'
  have houtcome := outcome?_eq hrun'.ended
  refine ⟨?_, fun place => ?_, _, _, outcome?_eq hrun.ended, houtcome, hjournal.created,
    hjournal.existing, hjournal.warnings⟩
  · rw [succeeds, houtcome]
    rfl
  · rw [hrun.ended.after_eq, hrun'.ended.after_eq]
    exact htree place

end Operation

namespace Sample

/-- The entry of the feature, with some directives. -/
def entryOf (includes : List Text) : Entry :=
  ⟨"e", none, none, none, .empty, includes, none, none⟩

def furnished : Session :=
  session []
    [(["t", "w", "f.j2"], file "Hi {{ name }}"), (["t", "w", "d"], .directory),
      (["t", "w", "d", "h"], file "{{ name }}"), (["p", "k"], file "old")]

/-- A session in which the manifest of the template is remembered. -/
def remembering (includes : List Text) : Session :=
  { furnished with manifests := [(["t", "w"], ⟨none, some (.many [entryOf includes]), []⟩)] }

theorem loaded?_remembering (includes : List Text) :
    (Operation.feature (feature "/p")).loaded? Sample.library (remembering includes) =
      some (entryOf includes) := by
  have hplace : furnished.tree.resolved furnished.here (Sample.library.template "w").text =
      .ok ["t", "w"] := by rfl
  have hload : (Manifests.load (Sample.library.template "w")).Ends (remembering includes)
      (.ok (some ⟨none, some (.many [entryOf includes]), []⟩)) (remembering includes) :=
    ends_load_of_lookup hplace rfl
  rw [Operation.loaded?, show (Operation.feature (feature "/p")).templateName = "w" from rfl,
    hload.result_eq]
  rfl

end Sample

end Scaffold

end Stencil
