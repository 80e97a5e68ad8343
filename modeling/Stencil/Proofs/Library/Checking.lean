import Stencil.Proofs.FileTree.RealPlace
import Stencil.Proofs.Library.History

/-!
# What a check of a template finds

A template passes the check for a section, or for one entry of it, if and only
if it is a directory whose file holds a manifest, the section has what is asked
for, and there is a source for every directive of it.  If only sources are
missing, the report lists the directives that lack one.
-/

namespace Stencil

open FileTree Session Action

variable {s m s' : Session} {template : FilePath} {suffix sectionName : Text}
  {name : Option Text} {manifest : Manifest} {entries : List Entry} {place : Location}

/-! ## Manifests in files -/

/-- The file of a template holds a manifest. -/
def FileTree.HasManifest (tree : FileTree) (here : Location) (template : FilePath)
    (manifest : Manifest) : Prop :=
  ∃ content text value,
    tree.look here (template.child Manifests.fileName).text true = .ok (.file content) ∧
      textOf content = .ok text ∧ Yaml.read text = .ok value ∧
      Manifest.ofValue value = .ok manifest

/-- Nothing is remembered of the real place of a template. -/
def Session.IsUnread (s : Session) (template : FilePath) : Prop :=
  ∀ place, s.tree.resolved s.here template.text = .ok place → s.manifests.lookup place = none

namespace Manifests

theorem plain_child (hproper : template.IsProper) (text : Text) :
    Storage.plain (template.child text).text = (template.child text).text := by
  rw [Storage.plain, (hproper.child text).ofText_text]

theorem ends_readFrom (hproper : template.IsProper) (hcalm : s.IsCalm)
    (h : s.tree.HasManifest s.here template manifest) :
    (readFrom (template.child fileName).text).Ends s (.ok manifest) s := by
  obtain ⟨content, text, value, hlook, htext, hvalue, hmanifest⟩ := h
  have hread : (Storage.readText (template.child fileName).text).Ends s (.ok text) s := by
    rw [Storage.readText, plain_child hproper, hcalm.ends_guarded]
    have hrun := Ends.run (Action.readText (template.child fileName).text) s
    obtain ⟨hresult, hafter⟩ := ends_readText hlook hrun
    rwa [hresult, hafter, htext] at hrun
  refine ends_orElseIf.2 (.inl ⟨manifest, hread.bind ?_, rfl⟩)
  exact (ends_lift_mapError_ok.2 ⟨hvalue, rfl⟩).bind (ends_lift_mapError_ok.2 ⟨hmanifest, rfl⟩)

/-- What a load of an unread template adds to the memory. -/
theorem ends_load_of_hasManifest (hproper : template.IsProper) (hcalm : s.IsCalm)
    (hplace : s.tree.resolved s.here template.text = .ok place)
    (hlookup : s.manifests.lookup place = none)
    (h : s.tree.HasManifest s.here template manifest) :
    (load template).Ends s (.ok (some manifest))
      { s with manifests := s.manifests ++ [(place, manifest)] } := by
  have hthere : (s.tree.look s.here (template.child fileName).text false).isOk = true := by
    obtain ⟨content, -, -, hlook, -⟩ := h
    exact isOk_iff.2 (look_unfollowed hlook)
  refine (ends_resolve.2 ⟨hplace.symm, rfl⟩).bind ?_
  rw [ends_get_bind, hlookup]
  refine (ends_storage_exists?_of_look hcalm hthere).bind ?_
  refine (ends_readFrom hproper hcalm h).bind ?_
  rw [remember, ends_modify_bind]
  exact ends_pure.2 ⟨rfl, rfl⟩

/-- What was loaded of an unread template is in its file. -/
theorem hasManifest_of_load (hproper : template.IsProper) (hunread : s.IsUnread template)
    (h : (load template).Ends s (.ok (some manifest)) s') :
    s.tree.HasManifest s.here template manifest := by
  have hdone : Load.IsDone ⟨template, s, .ok (some manifest), s'⟩ := h
  cases hdone.course with
  | known place _ hplace hlookup =>
      rw [hunread place hplace] at hlookup
      cases hlookup
  | found _ _ _ _ hreturns _ hfinds =>
      cases hreturns
      obtain ⟨content, text, value, hlook, hrest⟩ := hfinds
      rw [plain_child hproper] at hlook
      exact ⟨content, text, value, hlook, hrest⟩
  | missed hnone => exact absurd rfl (hnone manifest)

/-! ## What is asked for -/

/-- The entries that a check is about: all of a section that has some, or the first of a name. -/
inductive Asks (manifest : Manifest) (sectionName : Text) : Option Text → List Entry → Prop
  | all (nonempty : manifest.entries sectionName ≠ []) :
      Asks manifest sectionName none (manifest.entries sectionName)
  | one {name : Text} {entry : Entry}
      (first : (manifest.entries sectionName).find? (fun entry => entry.name = name) = some entry) :
      Asks manifest sectionName (some name) [entry]

theorem selected_eq_ok_iff :
    selected manifest sectionName name = .ok entries ↔ Asks manifest sectionName name entries := by
  constructor
  · intro h
    unfold selected at h
    split at h
    · cases h
    · rename_i hnonempty
      cases h
      exact .all hnonempty
    · split at h
      · rename_i wanted _ entry hfind
        cases h
        exact .one hfind
      · cases h
  · intro h
    cases h with
    | all hnonempty =>
        obtain ⟨first, rest, heq⟩ := List.exists_cons_of_ne_nil hnonempty
        simp [selected, heq]
    | one hfirst => exact selected_of_find? (entries_ne_nil_of_find? hfirst) hfirst

/-! ## The report -/

open Classical in
/-- The directives of entries that have no source, in their order. -/
noncomputable def unsourced (s : Session) (suffix : Text) (template : FilePath)
    (entries : List Entry) : List Text :=
  (entries.flatMap (·.includes)).filter fun raw =>
    ¬ s.tree.HasSource s.here suffix template (Directive.parse raw).source

theorem unsourced_eq_nil_iff :
    unsourced s suffix template entries = [] ↔ ∀ raw ∈ entries.flatMap (·.includes),
      s.tree.HasSource s.here suffix template (Directive.parse raw).source := by
  simp [unsourced, List.filter_eq_nil_iff]

open Classical in
theorem ends_isMissing_of_isCalm (hcalm : s.IsCalm) (raw : Text) :
    ∃ s', s.Looks s' ∧ (isMissing suffix template raw).Ends s (.ok (decide
      (¬ s.tree.HasSource s.here suffix template (Directive.parse raw).source))) s' := by
  have hrun := Ends.run (isMissing suffix template raw) s
  obtain ⟨hlooks, htold, hok⟩ := ends_isMissing hrun
  obtain ⟨found, hfound⟩ := hok hcalm
  have hsame : decide (¬ s.tree.HasSource s.here suffix template (Directive.parse raw).source) =
      found := by
    rw [← htold found hfound]
    simp
  rw [hfound] at hrun
  exact ⟨_, hlooks, hsame ▸ hrun⟩

theorem ends_unsourced (hcalm : s.IsCalm) (entries : List Entry) :
    ∃ s', s.Looks s' ∧
      ((entries.flatMap (·.includes)).filterM (isMissing suffix template)).Ends s
        (.ok (unsourced s suffix template entries)) s' := by
  refine ends_filterM discipline_looks fun raw _ m hlooks => ?_
  rw [← hlooks.tree, ← hlooks.here]
  exact ends_isMissing_of_isCalm (hlooks.isCalm hcalm) raw

/-- What the check reports of a template that has what is asked for, but maybe not its sources. -/
theorem ends_preflight_of_asks (hwell : s.tree.WellFormed) (hproper : template.IsProper)
    (hcalm : s.IsCalm) (hunread : s.IsUnread template)
    (hdirectory : s.tree.look s.here template.text true = .ok .directory)
    (hmanifest : s.tree.HasManifest s.here template manifest)
    (hasks : Asks manifest sectionName name entries) :
    ∃ s', (preflight suffix template sectionName name).Ends s
      (.ok ⟨(unsourced s suffix template entries).isEmpty, [],
        unsourced s suffix template entries⟩) s' := by
  obtain ⟨place, hplace⟩ := exists_resolved hwell hdirectory
  have hload := ends_load_of_hasManifest hproper hcalm hplace (hunread place hplace) hmanifest
  have hthere := isOk_iff.2 (look_unfollowed hdirectory)
  -- the sources are looked for in the session that remembers the manifest
  let loaded : Session := { s with manifests := s.manifests ++ [(place, manifest)] }
  obtain ⟨s', -, hend⟩ := @ends_unsourced loaded template suffix hcalm entries
  refine ⟨s', (ends_storage_exists?_of_look hcalm hthere).bind ?_⟩
  refine ends_attempt_bind.2 ⟨_, _, hload, ?_⟩
  simp only [selected_eq_ok_iff.2 hasks]
  exact hend.bind (ends_pure.2 ⟨rfl, rfl⟩)

/-- A template that passes the check is a directory with a manifest that has what is asked for. -/
theorem asks_of_preflight {report : Preflight} (hwell : s.tree.WellFormed)
    (hproper : template.IsProper) (hunread : s.IsUnread template)
    (h : (preflight suffix template sectionName name).Ends s (.ok report) s')
    (hvalid : report.isValid = true) :
    s.tree.look s.here template.text true = .ok .directory ∧
      ∃ manifest entries, s.tree.HasManifest s.here template manifest ∧
        Asks manifest sectionName name entries := by
  obtain ⟨m, t, manifest, entries, hexists, hload, hselected, -⟩ := ends_preflight_steps h hvalid
  have hlooks := (ends_storage_exists? hexists).1
  have hmanifest : s.tree.HasManifest s.here template manifest := by
    rw [← hlooks.tree, ← hlooks.here]
    refine hasManifest_of_load hproper ?_ hload
    rwa [IsUnread, hlooks.tree, hlooks.here, hlooks.manifests]
  refine ⟨?_, manifest, entries, hmanifest, selected_eq_ok_iff.1 hselected⟩
  obtain ⟨content, -, -, hlook, -⟩ := hmanifest
  obtain ⟨place, hlocate, -⟩ := look_eq_ok_iff.1 hlook
  rw [FilePath.child_of_isName (by decide)] at hlocate
  exact FilePath.look_of_below hwell (hproper.below (by decide)) (by simp) hlocate

/-- A template passes the check if and only if it is a directory with a manifest that has what is
asked for, and all its sources.  If only sources are missing, these are what is reported. -/
theorem preflight_isValid_iff (s : Session) (suffix : Text) (template : FilePath)
    (sectionName : Text) (name : Option Text) (hwell : s.tree.WellFormed) (hcalm : s.IsCalm)
    (hproper : template.IsProper) (hunread : s.IsUnread template) :
    ((∃ report, (preflight suffix template sectionName name).result s = .ok report ∧
        report.isValid = true) ↔
      s.tree.look s.here template.text true = .ok .directory ∧
        ∃ manifest entries, s.tree.HasManifest s.here template manifest ∧
          Asks manifest sectionName name entries ∧
          ∀ raw ∈ entries.flatMap (·.includes),
            s.tree.HasSource s.here suffix template (Directive.parse raw).source) ∧
    ∀ manifest entries, s.tree.look s.here template.text true = .ok .directory →
      s.tree.HasManifest s.here template manifest → Asks manifest sectionName name entries →
      (preflight suffix template sectionName name).result s =
        .ok ⟨(unsourced s suffix template entries).isEmpty, [],
          unsourced s suffix template entries⟩ := by
  have hreport : ∀ manifest entries, s.tree.look s.here template.text true = .ok .directory →
      s.tree.HasManifest s.here template manifest → Asks manifest sectionName name entries →
      (preflight suffix template sectionName name).result s =
        .ok ⟨(unsourced s suffix template entries).isEmpty, [],
          unsourced s suffix template entries⟩ := by
    intro manifest entries hdirectory hmanifest hasks
    obtain ⟨s', hend⟩ :=
      ends_preflight_of_asks hwell hproper hcalm hunread hdirectory hmanifest hasks
    exact hend.result_eq
  refine ⟨⟨?_, ?_⟩, hreport⟩
  · rintro ⟨report, hresult, hvalid⟩
    have hrun := Ends.run (preflight suffix template sectionName name) s
    rw [hresult] at hrun
    obtain ⟨hdirectory, manifest, entries, hmanifest, hasks⟩ :=
      asks_of_preflight hwell hproper hunread hrun hvalid
    rw [hreport manifest entries hdirectory hmanifest hasks] at hresult
    cases hresult
    exact ⟨hdirectory, manifest, entries, hmanifest, hasks,
      unsourced_eq_nil_iff.1 (List.isEmpty_iff.1 hvalid)⟩
  · rintro ⟨hdirectory, manifest, entries, hmanifest, hasks, hsources⟩
    refine ⟨_, hreport manifest entries hdirectory hmanifest hasks, ?_⟩
    rw [unsourced_eq_nil_iff.2 hsources]
    rfl

namespace Sample

def checked : FilePath := Scaffold.Sample.library.template "w"

/-- A template with a link that leads nowhere, which is there, and without another source. -/
def lacking : Session :=
  Scaffold.Sample.session ["g", "f", "g"] [(["t", "w", "f"], .link "nowhere")]

theorem preflight_rendering : ∃ report,
    (preflight ".j2" checked "features" (some "e")).result Scaffold.Sample.rendering = .ok report ∧
      report.isValid = true := by
  obtain ⟨report, s', hend, hvalid⟩ := exists_ends_of_result
    (show ((preflight ".j2" checked "features" (some "e")).result
      Scaffold.Sample.rendering).toOption.any (·.isValid) = true by decide +kernel)
  exact ⟨report, hend.result_eq, hvalid⟩

theorem preflight_lacking :
    (preflight ".j2" checked "features" none).result lacking = .ok ⟨false, [], ["g", "g"]⟩ :=
  eq_ok_of_toOption (by decide +kernel)

end Sample

/-- A template that passes the check, and one that two directives have no source in. -/
theorem preflight_isValid_iff_lacking :
    Scaffold.Sample.rendering.tree.look [] Sample.checked.text true = .ok .directory ∧
      (∃ manifest entries,
        Scaffold.Sample.rendering.tree.HasManifest [] Sample.checked manifest ∧
          Asks manifest "features" (some "e") entries ∧
          ∀ raw ∈ entries.flatMap (·.includes), Scaffold.Sample.rendering.tree.HasSource [] ".j2"
            Sample.checked (Directive.parse raw).source) ∧
      ¬ (Sample.lacking.tree.look [] Sample.checked.text true = .ok .directory ∧
        ∃ manifest entries, Sample.lacking.tree.HasManifest [] Sample.checked manifest ∧
          Asks manifest "features" none entries ∧
          ∀ raw ∈ entries.flatMap (·.includes), Sample.lacking.tree.HasSource [] ".j2"
            Sample.checked (Directive.parse raw).source) := by
  have hproper : Sample.checked.IsProper := (FilePath.isProper_ofText "/t").child "w"
  have hrendering := (preflight_isValid_iff Scaffold.Sample.rendering ".j2" Sample.checked
    "features" (some "e") Scaffold.Sample.wellFormed_rendering ⟨rfl, rfl⟩ hproper
    fun _ _ => rfl).1.1 Sample.preflight_rendering
  refine ⟨hrendering.1, hrendering.2, fun hlacking => ?_⟩
  obtain ⟨report, hreport, hvalid⟩ := (preflight_isValid_iff Sample.lacking ".j2" Sample.checked
    "features" none (by decide +kernel) ⟨rfl, rfl⟩ hproper fun _ _ => rfl).1.2 hlacking
  rw [Sample.preflight_lacking] at hreport
  cases hreport
  cases hvalid

end Manifests

end Stencil
