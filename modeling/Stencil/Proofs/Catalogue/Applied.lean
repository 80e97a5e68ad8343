import Stencil.Proofs.Catalogue.Making

/-!
# Applied boilerplates

A name is looked up twice: among the boilerplates that are listed, and among the
entries of the template that the listed one is part of.  Both lookups read the
same manifest.  They come to the same entry, unless an entry of that name without
a target folder, which is not listed, stands before it.
-/

namespace Stencil

open FileTree Session Action Scaffold

namespace Action

variable {α β : Type} {rel : Session → Session → Prop} {s s' : Session} {items : List α}

/-- Each result of a list of actions is the one of an item, in a session on the way. -/
theorem ends_mapM_of_mem {f : α → Action β} (hrel : Discipline rel)
    (hfollows : ∀ item, (f item).Follows rel) {results : List β} {result : β}
    (h : (items.mapM f).Ends s (.ok results) s') (hresult : result ∈ results) :
    ∃ item ∈ items, ∃ m t, rel s m ∧ (f item).Ends m (.ok result) t ∧ rel t s' := by
  induction items generalizing s results with
  | nil =>
      rw [List.mapM_nil] at h
      cases (ends_pure.1 h).1
      cases hresult
  | cons item items ih =>
      rw [List.mapM_cons] at h
      obtain ⟨first, m, hfirst, hnext⟩ := ends_bind_ok.1 h
      obtain ⟨rest, t, hrest, hpure⟩ := ends_bind_ok.1 hnext
      obtain ⟨hresults, rfl⟩ := ends_pure.1 hpure
      cases hresults
      rcases List.mem_cons.1 hresult with rfl | hresult
      · exact ⟨item, List.mem_cons_self, s, m, hrel.refl s, hfirst,
          hrel.mapM (fun other _ => hfollows other) _ _ _ hrest⟩
      · obtain ⟨other, hother, u, v, hbefore, hend, hafter⟩ := ih hrest hresult
        exact ⟨other, List.mem_cons_of_mem _ hother, u, v,
          hrel.trans (hfollows item _ _ _ hfirst) hbefore, hend, hafter⟩

/-- Filtering by actions whose results are known. -/
theorem ends_filterMapM {f : α → Action (Option β)} {known : α → Option β}
    (hknown : ∀ item s found s', (f item).Ends s (.ok found) s' → found = known item)
    {results : List β} (h : (items.filterMapM f).Ends s (.ok results) s') :
    results = items.filterMap known := by
  have hloop : ∀ found, (List.filterMapM.loop f items found).Ends s (.ok results) s' →
      results = found.reverse ++ items.filterMap known := by
    clear h
    induction items generalizing s with
    | nil =>
        intro found hend
        obtain ⟨hresults, -⟩ := ends_pure.1 hend
        simpa using hresults
    | cons item items ih =>
        intro found hend
        obtain ⟨result, m, hfirst, hrest⟩ := ends_bind_ok.1 hend
        have hresult := hknown item _ _ _ hfirst
        cases result with
        | none =>
            rw [List.filterMap_cons_none hresult.symm]
            exact ih found hrest
        | some b =>
            rw [List.filterMap_cons_some hresult.symm, ih (b :: found) hrest]
            simp
  simpa using hloop [] h

end Action

namespace Catalogue

variable {library : Library} {name template : Text} {vars : Variables} {s s' : Session}
  {boilerplate : Boilerplate} {entry first : Entry} {entries : List Entry} {all : List Boilerplate}

/-! ## Entries that are listed -/

theorem name_of_listed (h : Boilerplate.ofEntry? template entry = some boilerplate) :
    boilerplate.name = entry.name ∧ boilerplate.template = template := by
  unfold Boilerplate.ofEntry? at h
  split at h <;> cases h
  exact ⟨rfl, rfl⟩

/-- The first entry of a name that is a boilerplate. -/
def listed? (template name : Text) (manifest : Manifest) : Option Entry :=
  (manifest.entries Sections.boilerplateName).find? fun entry =>
    (Boilerplate.ofEntry? template entry).any (·.name = name)

/-- The first entry of a name is the first that is listed for it if it is listed at all. -/
theorem listed?_eq_iff {manifest : Manifest} (hlisted : listed? template name manifest = some entry)
    (hfirst : (manifest.entries Sections.boilerplateName).find? (·.name = name) = some first) :
    first = entry ↔ (Boilerplate.ofEntry? template first).isSome = true := by
  have hname : ∀ other : Entry, (Boilerplate.ofEntry? template other).any (·.name = name) = true ↔
      other.name = name ∧ (Boilerplate.ofEntry? template other).isSome = true := by
    intro other
    cases hother : Boilerplate.ofEntry? template other with
    | none => simp
    | some boilerplate => simp [(name_of_listed hother).1]
  constructor
  · rintro rfl
    rw [listed?] at hlisted
    have hpasses := List.find?_some hlisted
    exact ((hname first).1 hpasses).2
  · intro hsome
    obtain ⟨hnamed, before, after, heq, hbefore⟩ := List.find?_eq_some_iff_append.1 hfirst
    have hfound : listed? template name manifest = some first := by
      refine List.find?_eq_some_iff_append.2
        ⟨(hname first).2 ⟨by simpa using hnamed, hsome⟩, before, after, heq, fun other hother => ?_⟩
      rw [Bool.not_eq_true']
      refine Bool.eq_false_iff.2 fun hlisted => ?_
      simpa [((hname other).1 hlisted).1] using hbefore other hother
    exact Option.some.inj (hfound.symm.trans hlisted)

theorem ends_listedEntry {found : Option Boilerplate}
    (h : (listedEntry template entry).Ends s (.ok found) s') :
    found = Boilerplate.ofEntry? template entry := by
  unfold listedEntry at h
  split at h
  · rename_i heq
    rw [heq]
    exact Except.ok.inj (ends_pure.1 h).1
  · rename_i heq
    obtain ⟨_, m, -, hlast⟩ := ends_bind_ok.1 h
    rw [heq]
    exact Except.ok.inj (ends_pure.1 hlast).1

/-- The boilerplates of a template are entries of the manifest that is remembered for it. -/
theorem ends_listedTemplate {found : List Boilerplate}
    (h : (listedTemplate library template).Ends s (.ok found) s') :
    found = [] ∨ ∃ place manifest, s.tree.resolved s.here (library.template template).text = .ok place ∧
      s'.manifests.lookup place = some manifest ∧
      found = (manifest.entries Sections.boilerplateName).filterMap (Boilerplate.ofEntry? template) := by
  obtain ⟨known, m, hload, hnext⟩ := ends_bind_ok.1 h
  cases known with
  | none => exact .inl (Except.ok.inj (ends_pure.1 hnext).1)
  | some manifest =>
      right
      have hlisted := ends_filterMapM (fun _ _ _ _ => ends_listedEntry) hnext
      have hreads := discipline_reads.filterMapM (fun entry _ => follows_listedEntry template entry)
        _ _ _ hnext
      rcases ends_orElseIf.1 hload with ⟨_, hload, hknown⟩ | ⟨_, t, -, -, hhandle⟩ | ⟨_, -, -, hr⟩
      · cases hknown
        obtain ⟨place, hplace, hlookup⟩ := (ends_load hload).2 _ rfl
        exact ⟨place, manifest, hplace, hreads.remembered _ _ (hlookup manifest rfl), hlisted⟩
      · obtain ⟨_, u, -, hlast⟩ := ends_bind_ok.1 hhandle
        cases (ends_pure.1 hlast).1
      · cases hr

/-- The first boilerplate of a name is the entry that is listed for it in its template. -/
theorem ends_boilerplates (h : (boilerplates library).Ends s (.ok all) s')
    (hfound : all.find? (·.name = name) = some boilerplate) :
    ∃ place manifest entry,
      s.tree.resolved s.here (library.template boilerplate.template).text = .ok place ∧
      s'.manifests.lookup place = some manifest ∧
      listed? boilerplate.template name manifest = some entry ∧
      Boilerplate.ofEntry? boilerplate.template entry = some boilerplate := by
  obtain ⟨templates, m, hlisted, hnext⟩ := ends_bind_ok.1 h
  obtain ⟨several, t, hmap, hpure⟩ := ends_bind_ok.1 hnext
  obtain ⟨hall, rfl⟩ := ends_pure.1 hpure
  cases hall
  have hlooks := Templates.follows_listed _ _ _ _ hlisted
  rw [List.find?_flatten] at hfound
  obtain ⟨before, found, after, heq, hfirst, -⟩ := List.findSome?_eq_some_iff.1 hfound
  obtain ⟨template, -, u, v, hbefore, hone, hafter⟩ :=
    ends_mapM_of_mem discipline_reads (follows_listedTemplate library) hmap
      (show found ∈ several by simp [heq])
  rcases ends_listedTemplate hone with rfl | ⟨place, manifest, hplace, hlookup, rfl⟩
  · cases hfirst
  rw [List.find?_filterMap] at hfirst
  obtain ⟨entry, hentry, hmade⟩ := Option.bind_eq_some_iff.1 hfirst
  obtain rfl := (name_of_listed hmade).2
  refine ⟨place, manifest, entry, ?_, hafter.remembered _ _ hlookup, hentry, hmade⟩
  rwa [hbefore.tree, hbefore.here, hlooks.tree, hlooks.here] at hplace

/-! ## Jobs -/

/-- The entry that is applied for a name is the first of that name in the template of the first
boilerplate of that name.  It is the entry that is listed, by whose schema the variables were
checked and by whose target folder the directory is named, if it has a target folder. -/
theorem applied_entry_is_first_of_name (library : Library) (name : Text) (vars : Variables)
    (s : Session) {job : Generator.Job} (hjob : job? library name vars s = some job) :
    ∃ boilerplate made t manifest entry,
      Ordered library name vars s boilerplate made t ∧
      job.target = (Location.path s.here).join
        ((FilePath.ofText boilerplate.targetFolder).child made.projectName) ∧
      (Manifests.load (library.template boilerplate.template)).Ends t (.ok (some manifest)) t ∧
      listed? boilerplate.template name manifest = some entry ∧
      Boilerplate.ofEntry? boilerplate.template entry = some boilerplate ∧
      (manifest.entries Sections.boilerplateName).find? (·.name = name) = some job.entry ∧
      (job.entry = entry ↔ (Boilerplate.ofEntry? boilerplate.template job.entry).isSome = true) := by
  obtain ⟨made, hmade, hprepared⟩ := Option.bind_eq_some_iff.1 hjob
  unfold request? at hmade
  split at hmade
  case h_2 => cases hmade
  rename_i boilerplate made hresult
  cases hmade
  have horder := Ends.run (order library name vars) s
  rw [hresult] at horder
  split at hprepared
  case h_2 => cases hprepared
  rename_i hprepare
  cases hprepared
  have hend := Ends.run ((Operation.project made).prepare library)
    ((order library name vars).after s)
  rw [hprepare] at hend
  rcases ends_order horder with ⟨_, hfailed, -⟩ | ⟨_, _, hasked, hordered⟩
  · cases hfailed
  cases hasked
  have hreads := follows_order _ _ _ _ _ _ horder
  obtain ⟨hfolder, htemplate, hname⟩ := hordered.fields
  obtain ⟨-, -, -, -, htarget, -⟩ := Operation.ends_prepare hend
  obtain ⟨all, hall, hfirst⟩ := hordered.found
  obtain ⟨place, manifest, entry, hplace, hlookup, hlisted, hentry⟩ := ends_boilerplates hall hfirst
  rw [← hreads.tree, ← hreads.here] at hplace
  -- the manifest that the entry is applied from was remembered when it was listed
  have hnamed : (Operation.project made).templateName = boilerplate.template := htemplate
  have hfind := (Operation.find?_of_prepare (by rwa [hnamed]) hlookup hend).2
  have hfind' : (manifest.entries Sections.boilerplateName).find? (·.name = name) =
      some job.entry := by
    rw [← hordered.name_eq, ← hname]
    exact hfind
  refine ⟨boilerplate, made, _, manifest, entry, hordered, ?_,
    ends_load_of_lookup hplace hlookup, hlisted, hentry, hfind', listed?_eq_iff hlisted hfind'⟩
  rw [← hfolder, ← hreads.here]
  exact (Operation.ends_target_project htarget).1

/-- The entry of a small workspace. -/
theorem applied_entry_is_first_of_name_workspace :
    ∃ job, job? Sample.library "e" (Sample.named "n") (Sample.workspace "f") = some job ∧
      ∃ boilerplate made t manifest entry,
        Ordered Sample.library "e" (Sample.named "n") (Sample.workspace "f") boilerplate made t ∧
        job.target = (Location.path (Sample.workspace "f").here).join
          ((FilePath.ofText boilerplate.targetFolder).child made.projectName) ∧
        (Manifests.load (Sample.library.template boilerplate.template)).Ends t
          (.ok (some manifest)) t ∧
        listed? boilerplate.template "e" manifest = some entry ∧
        Boilerplate.ofEntry? boilerplate.template entry = some boilerplate ∧
        (manifest.entries Sections.boilerplateName).find? (·.name = ("e" : Text)) =
          some job.entry ∧
        (job.entry = entry ↔
          (Boilerplate.ofEntry? boilerplate.template job.entry).isSome = true) := by
  have hsome : (job? Sample.library "e" (Sample.named "n") (Sample.workspace "f")).isSome := by
    decide +kernel
  obtain ⟨job, hjob⟩ := Option.isSome_iff_exists.1 hsome
  exact ⟨job, hjob, applied_entry_is_first_of_name _ _ _ _ hjob⟩

/-- A template whose first entry of a name has no target folder. -/
def Sample.shadowed : Session :=
  .start ⟨[(["t"], .directory), (["t", "w"], .directory), (["p"], .directory),
    (["t", "w", "scaffold.yaml"], Sample.file (("boilerplate:\n  - name: e\n" : Text) ++
      ("    includes: [f]\n  - name: e\n    targetFolder: apps\n" : Text) ++
      ("    variables_schema:\n      properties:\n        appName:\n" : Text) ++
      ("          type: string\n    includes: [g]\n" : Text))),
    (["t", "w", "f"], Sample.file "hi"), (["t", "w", "g"], Sample.file "yo")]⟩ ["p"]

/-- The variables are checked by the schema of the second entry, and the first one is applied. -/
theorem applied_entry_is_not_listed :
    let made := make Sample.library "e" (Sample.named "n")
    let listed := ((boilerplates Sample.library).result Sample.shadowed).toOption.bind
      (·.find? (·.name = ("e" : Text)))
    let job := job? Sample.library "e" (Sample.named "n") Sample.shadowed
    listed.map (·.includes) = some [("g" : Text)] ∧
      job.map (·.entry.includes) = some [("f" : Text)] ∧
      succeeds Sample.library "e" (Sample.named "n") Sample.shadowed = true ∧
      ((made.after Sample.shadowed).tree.get? ["p", "apps", "n", "f"]).isSome ∧
      ((made.after Sample.shadowed).tree.get? ["p", "apps", "n", "g"]).isNone := by
  decide +kernel

end Catalogue

end Stencil
