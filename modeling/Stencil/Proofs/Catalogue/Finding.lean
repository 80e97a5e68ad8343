import Mathlib
import Stencil.Catalogue.Features
import Stencil.Proofs.Catalogue.Making

/-!
# Templates that are found again

A project names the template that it was made from, and the name is searched for
among the templates of the library.  A template is also found by the last name of
its path, so an earlier one with that last name is found in its place.
-/

namespace Stencil.Catalogue

open FileTree Session Stencil.Action Scaffold

variable {library : Library} {wanted found name : Text} {templates : List Text} {vars : Variables}
  {manifest : Manifest} {s m u s' : Session}

/-! ## Searching a list -/

@[simp] theorem isNamed_self (wanted : Text) : isNamed wanted wanted = true := by
  simp [isNamed]

/-- A name with a slash is no last name. -/
theorem eq_of_isNamed (hslash : FilePath.slash ∈ wanted) (h : isNamed wanted found = true) :
    found = wanted := by
  rcases Bool.or_eq_true_iff.1 h with heq | hlast
  · exact of_decide_eq_true heq
  · have hmem := List.mem_of_getLast? (of_decide_eq_true hlast)
    exact absurd rfl (Text.mem_of_mem_splitOn hmem hslash).2

/-- The first template that has a name is the one of that path, unless an earlier one has it. -/
theorem find?_isNamed_eq_iff (hwanted : wanted ∈ templates)
    (h : templates.find? (isNamed wanted) = some found) :
    found = wanted ↔
      ∀ other ∈ templates.takeWhile (· ≠ wanted), isNamed wanted other = false := by
  obtain ⟨after, hafter⟩ : ∃ after, templates.dropWhile (· ≠ wanted) = wanted :: after := by
    cases hdrop : templates.dropWhile (· ≠ wanted) with
    | nil => exact absurd (List.dropWhile_eq_nil_iff.1 hdrop wanted hwanted) (by simp)
    | cons first after =>
        have hfirst := List.head?_dropWhile_not (· ≠ wanted) templates
        rw [hdrop] at hfirst
        exact ⟨after, by simpa using hfirst⟩
  have hsplit : templates = templates.takeWhile (· ≠ wanted) ++ wanted :: after := by
    rw [← hafter, List.takeWhile_append_dropWhile]
  rw [hsplit, List.find?_append, List.find?_cons_of_pos (isNamed_self wanted)] at h
  cases hbefore : (templates.takeWhile (· ≠ wanted)).find? (isNamed wanted) with
  | none =>
      rw [hbefore] at h
      refine iff_of_true (Option.some.inj h).symm fun other hother => ?_
      simpa using List.find?_eq_none.1 hbefore other hother
  | some earlier =>
      rw [hbefore] at h
      obtain rfl : earlier = found := Option.some.inj h
      have hearlier := List.mem_of_find?_eq_some hbefore
      refine iff_of_false (by simpa using List.mem_takeWhile_imp hearlier) fun hall => ?_
      have := hall earlier hearlier
      rw [List.find?_some hbefore] at this
      cases this

/-! ## Searching a library -/

theorem ends_template?_of_find? (hlisted : (Templates.listed library.root).Ends s (.ok templates) m)
    (hfound : templates.find? (isNamed wanted) = some found) :
    (template? library wanted).Ends s (.ok (some found)) m := by
  refine hlisted.bind ?_
  rw [hfound]
  exact ends_pure.2 ⟨rfl, rfl⟩

theorem ends_template (hfound : (template? library wanted).Ends s (.ok (some found)) m) :
    (template library wanted).Ends s (.ok found) m :=
  hfound.bind (ends_pure.2 ⟨rfl, rfl⟩)

theorem ends_featuresIn
    (hload : (Manifests.load (library.template found)).Ends m (.ok (some manifest)) u) :
    (featuresIn library found).Ends m (.ok (manifest.entries Sections.featuresName)) u :=
  hload.bind (ends_pure.2 ⟨rfl, rfl⟩)

/-! ## Applying features -/

/-- The ways in which a feature of a template is applied to a project.  If there is one of that
name, the job of the operation is for the first of them. -/
inductive Applies (library : Library) (found name : Text) (features : List Entry) (s : Session)
    (r : Except Failure Outcome) (s' : Session) : Prop where
  | missing (absent : features.find? (·.name = name) = none)
      (ended : r = .error (noFeature name features))
  | refused (issues : List Issue) (ended : r = .error (.invalid FeatureRequest.recordName issues))
  | applied (entry : Entry) (first : features.find? (·.name = name) = some entry)
      (request : FeatureRequest) (before after : Session) (shown : s.Looks before)
      (outcome : Outcome)
      (performed : (Scaffold.feature library request).Ends before (.ok outcome) after)
      (job : ∀ job u,
        ((Operation.feature request).prepare library).Ends before (.ok (.ok job)) u →
          job.template = library.template found ∧ job.entry = entry)
      (rendered : after.Looks s') (message : Text)
      (ended : r = .ok { outcome with message := message })

theorem ends_renderIfTemplate {text : Text} {r : Except Failure Text}
    (h : (renderIfTemplate text vars).Ends s r s') : s.Looks s' ∧ ∃ rendered, r = .ok rendered := by
  unfold renderIfTemplate at h
  split at h
  · obtain ⟨told, hrender, rfl⟩ := ends_bind_pure.1 h
    obtain ⟨hlooks, rfl⟩ := ends_render hrender
    exact ⟨hlooks, _, rfl⟩
  · obtain ⟨rfl, rfl⟩ := ends_pure.1 h
    exact ⟨.refl _, _, rfl⟩

/-- An instruction only adds to the message. -/
theorem ends_instructed {entry : Entry} {outcome : Outcome} {r : Except Failure Outcome}
    (h : (instructed entry vars outcome).Ends s r s') :
    s.Looks s' ∧ ∃ message, r = .ok { outcome with message := message } := by
  have hsame : (pure outcome : Action Outcome).Ends s r s' →
      s.Looks s' ∧ ∃ message, r = .ok { outcome with message := message } := by
    intro hpure
    obtain ⟨rfl, rfl⟩ := ends_pure.1 hpure
    exact ⟨.refl _, outcome.message, rfl⟩
  unfold instructed at h
  split at h
  case h_2 => exact hsame h
  split at h
  case isFalse => exact hsame h
  obtain ⟨told, hrender, rfl⟩ := ends_bind_pure.1 h
  obtain ⟨hlooks, rendered, rfl⟩ := ends_renderIfTemplate hrender
  exact ⟨hlooks, _, rfl⟩

/-- The job for a feature is prepared from the manifest that was loaded before. -/
theorem job_of_loaded {request : FeatureRequest} {job : Generator.Job}
    (hload : (Manifests.load (library.template found)).Ends m (.ok (some manifest)) u)
    (hshown : u.Looks s) (hfolder : request.templateFolder = found)
    (hprepare : ((Operation.feature request).prepare library).Ends s (.ok (.ok job)) s') :
    job.template = library.template found ∧
      (manifest.entries Sections.featuresName).find? (·.name = request.feature) =
        some job.entry := by
  obtain ⟨hreads, hplace⟩ := ends_load hload
  obtain ⟨place, hplace, hlookup⟩ := hplace _ rfl
  have hnamed : library.template (Operation.feature request).templateName =
      library.template found := congrArg library.template hfolder
  obtain ⟨htemplate, hfind⟩ := Operation.find?_of_prepare
    (by rwa [hnamed, hshown.tree, hshown.here, hreads.tree, hreads.here])
    (by rw [hshown.manifests]; exact hlookup manifest rfl) hprepare
  exact ⟨htemplate.trans hnamed, hfind⟩

/-- What a project gets for a name is the first feature of that name in the template that the
project means. -/
theorem applies_of_ends {project : FilePath} {place : Location} {source : Project.Source}
    {t : Session} {r : Except Failure Outcome}
    (hplace : t.tree.resolved t.here project.text = .ok place)
    (hsource : (Project.source place.path).Ends t (.ok source) s)
    (hfound : (template? library source.template).Ends s (.ok (some found)) m)
    (hload : (Manifests.load (library.template found)).Ends m (.ok (some manifest)) u)
    (h : (apply library project name vars).Ends t r s') :
    Applies library found name (manifest.entries Sections.featuresName) u r s' := by
  rw [apply, (ends_resolve.2 ⟨hplace.symm, rfl⟩).bind_iff, hsource.bind_iff,
    (ends_template hfound).bind_iff, (ends_featuresIn hload).bind_iff] at h
  split at h
  · rename_i habsent
    exact .missing habsent (ends_throw.1 h).1
  rename_i entry hentry
  rcases ends_bind.1 h with ⟨_, before, hprint, hnext⟩ | ⟨_, hprint, -⟩
  case inr => cases ends_printDetail _ hprint
  have hshown := follows_printDetail _ _ _ _ hprint
  rcases ends_bind.1 hnext with ⟨request, w, hcheck, hlast⟩ | ⟨failure, hcheck, rfl⟩
  case inr =>
    obtain ⟨⟨issues, -, rfl⟩, -⟩ := ends_lift_mapError_error.1 hcheck
    exact .refused issues rfl
  obtain ⟨hread, hsame⟩ := ends_lift_mapError_ok.1 hcheck
  subst hsame
  obtain ⟨-, hfolder, hname, -⟩ := FeatureRequest.fields_of_read hread
  have hfolder := Schema.Fields.required_text (by rfl) hfolder
  have hname := Schema.Fields.required_text (by rfl) hname
  rcases ends_bind.1 hlast with ⟨outcome, after, hperform, hinstructed⟩ | ⟨_, hperform, -⟩
  case inr =>
    obtain ⟨told, t, -, hpure⟩ := ends_attempt_bind.1 hperform
    cases told <;> cases (ends_pure.1 hpure).1
  obtain ⟨hrendered, message, rfl⟩ := ends_instructed hinstructed
  refine .applied entry hentry request _ after hshown outcome hperform (fun job t hprepare => ?_)
    hrendered message rfl
  obtain ⟨htemplate, hfind⟩ := job_of_loaded hload hshown hfolder hprepare
  rw [hname, hentry] at hfind
  exact ⟨htemplate, (Option.some.inj hfind).symm⟩

/-- A template of the library is found by its path, or an earlier one that has the path as its last
name.  A project that names the template has the features of the one that is found, and gets the
first one of a name that is asked for. -/
theorem template_found_again (library : Library) (wanted : Text) (s : Session)
    {templates : List Text} {m : Session}
    (hlisted : (Templates.listed library.root).Ends s (.ok templates) m)
    (hwanted : wanted ∈ templates) :
    ∃ found ∈ templates, isNamed wanted found = true ∧
      (template? library wanted).Ends s (.ok (some found)) m ∧
      (found = wanted ↔
        ∀ other ∈ templates.takeWhile (· ≠ wanted), isNamed wanted other = false) ∧
      (FilePath.slash ∈ wanted → found = wanted) ∧
      ∀ project source t manifest u, source.template = wanted →
        (Manifests.load (library.template found)).Ends m (.ok (some manifest)) u →
        ((Project.source project).Ends t (.ok source) s →
          (featuresFor library project).Ends t
            (.ok (manifest.entries Sections.featuresName)) u) ∧
        ∀ place, t.tree.resolved t.here project.text = .ok place →
          (Project.source place.path).Ends t (.ok source) s →
          ∀ name vars r s', (apply library project name vars).Ends t r s' →
            Applies library found name (manifest.entries Sections.featuresName) u r s' := by
  have hsome : (templates.find? (isNamed wanted)).isSome = true :=
    List.find?_isSome.2 ⟨wanted, hwanted, isNamed_self wanted⟩
  obtain ⟨found, hfind⟩ := Option.isSome_iff_exists.1 hsome
  have hnamed := List.find?_some hfind
  have hfound := ends_template?_of_find? hlisted hfind
  refine ⟨found, List.mem_of_find?_eq_some hfind, hnamed, hfound, find?_isNamed_eq_iff hwanted hfind,
    fun hslash => eq_of_isNamed hslash hnamed, ?_⟩
  rintro project source t manifest u rfl hload
  refine ⟨fun hsource => ?_, fun place hplace hsource name vars r s' happly =>
    applies_of_ends hplace hsource hfound hload happly⟩
  exact hsource.bind ((ends_template hfound).bind (ends_featuresIn hload))

namespace Sample

/-- A library with a template `n`, and one more that has this last name. -/
def nested : Session :=
  .start ⟨[(["t"], .directory), (["t", "apps"], .directory), (["t", "apps", "n"], .directory),
    (["t", "n"], .directory), (["t", "apps", "n", "scaffold.yaml"], Scaffold.Sample.file []),
    (["t", "n", "scaffold.yaml"], Scaffold.Sample.file [])]⟩ []

set_option maxRecDepth 100000 in
theorem listed_nested : ∃ m, (Templates.listed Scaffold.Sample.library.root).Ends nested
    (.ok ["apps/n", "n"]) m := by
  have hlisted : ((Templates.listed Scaffold.Sample.library.root).result nested).toOption =
      some [("apps/n" : Text), "n"] := by cbv
  have hany : ((Templates.listed Scaffold.Sample.library.root).result nested).toOption.any
      (fun templates => templates = [("apps/n" : Text), "n"]) = true := by
    rw [hlisted]
    decide
  obtain ⟨templates, m, hend, htemplates⟩ := exists_ends_of_result hany
  obtain rfl := of_decide_eq_true htemplates
  exact ⟨m, hend⟩

end Sample

theorem template_found_again_nested :
    ∃ m, (Templates.listed Scaffold.Sample.library.root).Ends Sample.nested
        (.ok ["apps/n", "n"]) m ∧
      ("apps/n" : Text) ∈ (["apps/n", "n"] : List Text) ∧
      ∃ found ∈ (["apps/n", "n"] : List Text), isNamed "apps/n" found = true ∧
        (template? Scaffold.Sample.library "apps/n").Ends Sample.nested (.ok (some found)) m ∧
        (found = "apps/n" ↔ ∀ other ∈ (["apps/n", "n"] : List Text).takeWhile
          (· ≠ ("apps/n" : Text)), isNamed "apps/n" other = false) ∧
        (FilePath.slash ∈ ("apps/n" : Text) → found = "apps/n") ∧
        ∀ project source t manifest u, source.template = ("apps/n" : Text) →
          (Manifests.load (Scaffold.Sample.library.template found)).Ends m
            (.ok (some manifest)) u →
          ((Project.source project).Ends t (.ok source) Sample.nested →
            (featuresFor Scaffold.Sample.library project).Ends t
              (.ok (manifest.entries Sections.featuresName)) u) ∧
          ∀ place, t.tree.resolved t.here project.text = .ok place →
            (Project.source place.path).Ends t (.ok source) Sample.nested →
            ∀ name vars r s', (apply Scaffold.Sample.library project name vars).Ends t r s' →
              Applies Scaffold.Sample.library found name
                (manifest.entries Sections.featuresName) u r s' := by
  obtain ⟨m, hlisted⟩ := Sample.listed_nested
  exact ⟨m, hlisted, by decide, template_found_again _ _ _ hlisted (by decide)⟩

/-- The template `n` is not found by its path, because another one is listed before it. -/
theorem other_template_is_found :
    ∃ m, (Templates.listed Scaffold.Sample.library.root).Ends Sample.nested
        (.ok ["apps/n", "n"]) m ∧
      (template? Scaffold.Sample.library "n").Ends Sample.nested (.ok (some "apps/n")) m := by
  obtain ⟨m, hlisted⟩ := Sample.listed_nested
  exact ⟨m, hlisted, ends_template?_of_find? hlisted (by decide)⟩

end Stencil.Catalogue
