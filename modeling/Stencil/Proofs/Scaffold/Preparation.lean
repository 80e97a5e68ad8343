import Stencil.Proofs.FileTree.Follow
import Stencil.Proofs.Placement.Placing
import Stencil.Proofs.Session.Carrying
import Stencil.Scaffold.Basic

/-!
# Prepared operations

An operation is prepared by looking around and by reading manifests, which are
remembered.  What a feature was prepared from stays there while files and
directories are added, so it is prepared again in the same way.
-/

namespace Stencil

open FileTree Session Action

/-- What is left after manifests were read: more of them may be remembered. -/
structure Session.Reads (s s' : Session) : Prop extends s.Agrees s' where
  tree : s'.tree = s.tree
  journal : s'.journal = s.journal
  remembered : ∀ place manifest, s.manifests.lookup place = some manifest →
    s'.manifests.lookup place = some manifest

variable {s m s' : Session} {template : FilePath} {suffix text name : Text}
  {manifest : Manifest} {place : Location}

namespace Session

theorem Looks.reads (h : s.Looks s') : s.Reads s' :=
  ⟨h.toAgrees, h.tree, h.journal, fun place manifest hlookup => by rwa [h.manifests]⟩

theorem Reads.refl (s : Session) : s.Reads s := (Looks.refl s).reads

theorem Reads.trans (h : s.Reads m) (h' : m.Reads s') : s.Reads s' :=
  ⟨h.toAgrees.trans h'.toAgrees, h'.tree.trans h.tree, h'.journal.trans h.journal,
    fun place manifest hlookup =>
      h'.remembered place manifest (h.remembered place manifest hlookup)⟩

end Session

namespace Action

variable {α β : Type} {rel : Session → Session → Prop}

theorem discipline_reads : Discipline Reads := ⟨Reads.refl, Reads.trans⟩

/-! ## Lists that are filtered -/

section Filter

variable {test : α → Action Bool} {items : List α}

theorem Discipline.filterM (hrel : Discipline rel)
    (h : ∀ item ∈ items, (test item).Follows rel) : (items.filterM test).Follows rel := by
  have hall : ∀ kept, (items.filterAuxM test kept).Follows rel := by
    induction items with
    | nil => exact fun kept => hrel.pure kept
    | cons item items ih =>
        intro kept
        exact hrel.bind (h item List.mem_cons_self) fun isKept =>
          ih (fun other hother => h other (List.mem_cons_of_mem _ hother)) _
  exact hrel.bind (hall []) fun kept => hrel.pure _

/-- If nothing is kept, every item was tested and did not pass. -/
theorem tested_of_filterM (hrel : Discipline rel) (hfollows : ∀ item, (test item).Follows rel)
    (h : (items.filterM test).Ends s (.ok []) s') :
    ∀ item ∈ items, ∃ m m', rel s m ∧ (test item).Ends m (.ok false) m' := by
  have hall : ∀ kept t, rel s t → (items.filterAuxM test kept).Ends t (.ok []) s' →
      kept = [] ∧ ∀ item ∈ items, ∃ m m', rel s m ∧ (test item).Ends m (.ok false) m' := by
    clear h
    induction items with
    | nil =>
        intro kept t _ hend
        exact ⟨(Except.ok.inj (ends_pure.1 hend).1).symm, by simp⟩
    | cons item items ih =>
        intro kept t hreached hend
        obtain ⟨passed, m, htest, hrest⟩ := ends_bind_ok.1 hend
        have hreached' := hrel.trans hreached (hfollows item _ _ _ htest)
        obtain ⟨hkept, hitems⟩ := ih _ m hreached' hrest
        cases passed with
        | true => cases hkept
        | false =>
            refine ⟨hkept, fun other hother => ?_⟩
            rcases List.mem_cons.1 hother with rfl | hother
            · exact ⟨t, m, hreached, htest⟩
            · exact hitems other hother
  obtain ⟨kept, t, hend, hpure⟩ := ends_bind_ok.1 h
  obtain ⟨hkept, rfl⟩ := ends_pure.1 hpure
  obtain rfl : kept = [] := List.reverse_eq_nil_iff.1 (Except.ok.inj hkept).symm
  exact (hall [] s (hrel.refl s) hend).2

/-- What is kept is what passes, if every test can be told beforehand. -/
theorem ends_filterM {told : α → Bool} (hrel : Discipline rel)
    (h : ∀ item ∈ items, ∀ m, rel s m → ∃ m', rel m m' ∧ (test item).Ends m (.ok (told item)) m') :
    ∃ s', rel s s' ∧ (items.filterM test).Ends s (.ok (items.filter told)) s' := by
  have hall : ∀ kept, ∃ s', rel s s' ∧
      (items.filterAuxM test kept).Ends s (.ok ((items.filter told).reverse ++ kept)) s' := by
    induction items generalizing s with
    | nil => exact fun kept => ⟨s, hrel.refl s, ends_pure.2 ⟨rfl, rfl⟩⟩
    | cons item items ih =>
        intro kept
        obtain ⟨m, hreached, htest⟩ := h item List.mem_cons_self s (hrel.refl s)
        obtain ⟨s', hrest, hend⟩ := @ih m (fun other hother t ht =>
          h other (List.mem_cons_of_mem _ hother) t (hrel.trans hreached ht))
          (bif told item then item :: kept else kept)
        refine ⟨s', hrel.trans hreached hrest, htest.bind ?_⟩
        cases hpassed : told item <;> simpa [hpassed] using hend
  obtain ⟨s', hrest, hend⟩ := hall []
  exact ⟨s', hrest, hend.bind (ends_pure.2 ⟨by simp, rfl⟩)⟩

end Filter

/-! ## Loading manifests -/

theorem ends_resolve {path : Text} {r : Except Failure Location} :
    (resolve path).Ends s r s' ↔ r = s.tree.resolved s.here path ∧ s' = s := by
  rw [resolve, ends_get_bind, resolved]
  cases hreal : s.tree.realPlace s.here path with
  | error failure => simp [ends_bind, and_comm]
  | ok place =>
      rw [Ends.bind_iff (ends_lift.2 ⟨rfl, rfl⟩)]
      dsimp only
      generalize s.tree.look s.here place.path.text true = found
      -- no failure but a loop of links is told
      cases found with
      | ok item => exact ends_pure
      | error failure =>
          cases failure with
          | system cause path => cases cause <;> first | exact ends_throw | exact ends_pure
          | _ => exact ends_pure

theorem follows_readFrom (path : Text) : (Manifests.readFrom path).Follows Looks :=
  discipline_looks.orElseIf
    (discipline_looks.bind (follows_storage_readText _) fun _ =>
      discipline_looks.bind (discipline_looks.lift _) fun _ => discipline_looks.lift _)
    fun _ => discipline_looks.throw _

/-- A manifest that was loaded is remembered for the real place of its template. -/
theorem ends_load {r : Except Failure (Option Manifest)}
    (h : (Manifests.load template).Ends s r s') :
    s.Reads s' ∧ ∀ found, r = .ok found → ∃ place,
      s.tree.resolved s.here template.text = .ok place ∧
        ∀ manifest, found = some manifest → s'.manifests.lookup place = some manifest := by
  rcases ends_bind.1 h with ⟨place, m, hresolve, hnext⟩ | ⟨failure, hresolve, rfl⟩
  case inr =>
    obtain ⟨-, rfl⟩ := ends_resolve.1 hresolve
    exact ⟨.refl _, by simp⟩
  obtain ⟨hplace, rfl⟩ := ends_resolve.1 hresolve
  rw [ends_get_bind] at hnext
  cases hlookup : m.manifests.lookup place with
  | some known =>
      simp only [hlookup] at hnext
      obtain ⟨rfl, rfl⟩ := ends_pure.1 hnext
      refine ⟨.refl _, ?_⟩
      rintro found ⟨⟩
      exact ⟨place, hplace.symm, by rintro manifest ⟨⟩; exact hlookup⟩
  | none =>
      simp only [hlookup] at hnext
      rcases ends_bind.1 hnext with ⟨isThere, t, hexists, hlast⟩ | ⟨failure, hexists, rfl⟩
      case inr => exact ⟨(ends_storage_exists? hexists).1.reads, by simp⟩
      have hlooks := (ends_storage_exists? hexists).1
      cases isThere with
      | false =>
          obtain ⟨rfl, rfl⟩ := ends_pure.1 hlast
          refine ⟨hlooks.reads, ?_⟩
          rintro found ⟨⟩
          exact ⟨place, hplace.symm, by simp⟩
      | true =>
          rcases ends_bind.1 hlast with ⟨known, u, hread, hremember⟩ | ⟨failure, hread, rfl⟩
          case inr => exact ⟨(hlooks.trans (follows_readFrom _ _ _ _ hread)).reads, by simp⟩
          have hlooks' := hlooks.trans (follows_readFrom _ _ _ _ hread)
          rw [Manifests.remember, ends_modify_bind] at hremember
          obtain ⟨rfl, rfl⟩ := ends_pure.1 hremember
          refine ⟨⟨⟨hlooks'.here, hlooks'.faults, hlooks'.calm⟩, hlooks'.tree, hlooks'.journal,
            fun other manifest hother => ?_⟩, ?_⟩
          · simp [hlooks'.manifests, List.lookup_append, hother]
          · rintro found ⟨⟩
            refine ⟨place, hplace.symm, ?_⟩
            rintro manifest ⟨⟩
            simp [hlooks'.manifests, List.lookup_append, hlookup]

/-- A manifest that is remembered is not read again. -/
theorem ends_load_of_lookup (hplace : s.tree.resolved s.here template.text = .ok place)
    (hlookup : s.manifests.lookup place = some manifest) :
    (Manifests.load template).Ends s (.ok (some manifest)) s := by
  refine (ends_resolve.2 ⟨hplace.symm, rfl⟩).bind ?_
  rw [ends_get_bind, hlookup]
  exact ends_pure.2 ⟨rfl, rfl⟩

/-! ## Checking templates -/

theorem ends_renderTarget {directive : Directive} {vars : Variables}
    {r : Except Failure (Text × List Text)} (h : (renderTarget directive vars).Ends s r s') :
    s.Looks s' ∧ r = .ok ((directive.place vars).content,
      ((directive.place vars).warning?.map directive.unrenderedWarning).toList) := by
  rcases ends_bind.1 h with ⟨rendered, m, hrender, hpure⟩ | ⟨failure, hrender, -⟩
  · obtain ⟨hlooks, hrendered⟩ := ends_render hrender
    cases hrendered
    obtain ⟨rfl, rfl⟩ := ends_pure.1 hpure
    exact ⟨hlooks, rfl⟩
  · cases (ends_render hrender).2

end Action

namespace FileTree

/-- Something is there for a source, by its name or by its name with a suffix. -/
def HasSource (tree : FileTree) (here : Location) (suffix : Text) (template : FilePath)
    (source : Text) : Prop :=
  (tree.look here (template.child source).text false).isOk = true ∨
    (tree.look here ((template.child source).text ++ suffix) false).isOk = true

theorem HasSource.kept {tree later : FileTree} {here : Location} {source : Text}
    (h : tree.HasSource here suffix template source) (hkept : tree.IsKeptBy later) :
    later.HasSource here suffix template source :=
  h.imp (isOk_look_kept hkept) (isOk_look_kept hkept)

end FileTree

namespace Action

theorem ends_hasSource {source : Text} {r : Except Failure Bool}
    (h : (Manifests.hasSource suffix template source).Ends s r s') :
    s.Looks s' ∧ (∀ found, r = .ok found →
        (found = true ↔ s.tree.HasSource s.here suffix template source)) ∧
      (s.IsCalm → ∃ found, r = .ok found) := by
  rcases ends_bind.1 h with ⟨isThere, m, hexists, hnext⟩ | ⟨failure, hexists, rfl⟩
  case inr =>
    obtain ⟨hlooks, -, hcalm⟩ := ends_storage_exists? hexists
    exact ⟨hlooks, by simp, fun hs => absurd (hcalm hs) (by simp)⟩
  obtain ⟨hlooks, htold, -⟩ := ends_storage_exists? hexists
  have hthere := htold isThere rfl
  cases isThere with
  | true =>
      obtain ⟨rfl, rfl⟩ := ends_pure.1 hnext
      refine ⟨hlooks, ?_, fun _ => ⟨true, rfl⟩⟩
      rintro found ⟨⟩
      exact iff_of_true rfl (.inl hthere)
  | false =>
      obtain ⟨hlooks', htold', hcalm'⟩ := ends_storage_exists? hnext
      refine ⟨hlooks.trans hlooks', fun found hr => ?_, fun hs => ⟨_, hcalm' (hlooks.isCalm hs)⟩⟩
      have hfound := htold' found hr
      rw [hlooks.tree, hlooks.here] at hfound
      rw [HasSource, hthere, ← hfound]
      simp

theorem ends_isMissing {raw : Text} {r : Except Failure Bool}
    (h : (Manifests.isMissing suffix template raw).Ends s r s') :
    s.Looks s' ∧ (∀ missing, r = .ok missing → (missing = false ↔
        s.tree.HasSource s.here suffix template (Directive.parse raw).source)) ∧
      (s.IsCalm → ∃ missing, r = .ok missing) := by
  rcases ends_bind.1 h with ⟨_, m, hrender, hnext⟩ | ⟨failure, hrender, -⟩
  case inr => cases (ends_renderTarget hrender).2
  have hlooks := (ends_renderTarget hrender).1
  rcases ends_bind.1 hnext with ⟨found, t, hfind, hpure⟩ | ⟨failure, hfind, rfl⟩
  case inr =>
    obtain ⟨hlooks', -, hcalm⟩ := ends_hasSource hfind
    refine ⟨hlooks.trans hlooks', by simp, fun hs => ?_⟩
    obtain ⟨found, hfound⟩ := hcalm (hlooks.isCalm hs)
    cases hfound
  obtain ⟨hlooks', htold, -⟩ := ends_hasSource hfind
  obtain ⟨rfl, rfl⟩ := ends_pure.1 hpure
  refine ⟨hlooks.trans hlooks', ?_, fun _ => ⟨_, rfl⟩⟩
  rintro missing ⟨⟩
  rw [Bool.not_eq_false', htold found rfl, hlooks.tree, hlooks.here]

theorem follows_isMissing (suffix : Text) (template : FilePath) (raw : Text) :
    (Manifests.isMissing suffix template raw).Follows Looks :=
  fun _ _ _ h => (ends_isMissing h).1

theorem follows_load (template : FilePath) : (Manifests.load template).Follows Reads :=
  fun _ _ _ h => (ends_load h).1

theorem follows_storage_exists? (path : Text) : (Storage.exists? path).Follows Looks :=
  fun _ _ _ h => (ends_storage_exists? h).1

theorem follows_preflight (suffix : Text) (template : FilePath) (sectionName : Text)
    (name : Option Text) :
    (Manifests.preflight suffix template sectionName name).Follows Reads := by
  have hreads : ∀ s s' : Session, s.Looks s' → s.Reads s' := fun _ _ => Looks.reads
  refine discipline_reads.bind ((follows_storage_exists? _).mono hreads) fun isThere => ?_
  cases isThere with
  | false => exact discipline_reads.pure _
  | true =>
      refine discipline_reads.bind (follows_load _).attempt fun found => ?_
      rcases found with failure | found
      · cases failure
        case manifest => exact discipline_reads.pure _
        all_goals exact discipline_reads.throw _
      · cases found with
        | none => exact discipline_reads.pure _
        | some manifest =>
            dsimp only
            split
            · exact discipline_reads.pure _
            · refine discipline_reads.bind (discipline_reads.filterM fun raw _ => ?_) fun missing =>
                discipline_reads.pure _
              exact (follows_isMissing _ _ _).mono hreads

theorem entries_ne_nil_of_find? {sectionName : Text} {entry : Entry}
    (hentry : manifest.find? sectionName (some name) = some entry) :
    manifest.entries sectionName ≠ [] := by
  intro hnil
  rw [Manifest.find?, hnil] at hentry
  cases hentry

theorem selected_of_find? {sectionName : Text} {entry : Entry}
    (hentries : manifest.entries sectionName ≠ [])
    (hentry : manifest.find? sectionName (some name) = some entry) :
    Manifests.selected manifest sectionName (some name) = .ok [entry] := by
  obtain ⟨first, rest, heq⟩ := List.exists_cons_of_ne_nil hentries
  simp [Manifests.selected, heq, hentry]

/-- The steps of a check that passes. -/
theorem ends_preflight_steps {sectionName : Text} {name : Option Text} {report : Preflight}
    (h : (Manifests.preflight suffix template sectionName name).Ends s (.ok report) s')
    (hvalid : report.isValid = true) :
    ∃ m t manifest entries, (Storage.exists? template.text).Ends s (.ok true) m ∧
      (Manifests.load template).Ends m (.ok (some manifest)) t ∧
      Manifests.selected manifest sectionName name = .ok entries ∧
      ((entries.flatMap (·.includes)).filterM (Manifests.isMissing suffix template)).Ends t
        (.ok []) s' := by
  obtain ⟨isThere, m, hexists, hnext⟩ := ends_bind_ok.1 h
  cases isThere with
  | false =>
      obtain ⟨hreport, -⟩ := ends_pure.1 hnext
      cases hreport
      cases hvalid
  | true =>
      obtain ⟨found, t, hload, hlast⟩ := ends_attempt_bind.1 hnext
      rcases found with failure | found
      · cases failure
        case manifest =>
          obtain ⟨hreport, -⟩ := ends_pure.1 hlast
          cases hreport
          cases hvalid
        all_goals cases (ends_throw.1 hlast).1
      cases found with
      | none =>
          obtain ⟨hreport, -⟩ := ends_pure.1 hlast
          cases hreport
          cases hvalid
      | some manifest =>
          dsimp only at hlast
          split at hlast
          · obtain ⟨hreport, -⟩ := ends_pure.1 hlast
            cases hreport
            cases hvalid
          · rename_i entries hselected
            obtain ⟨missing, u, hfilter, hpure⟩ := ends_bind_ok.1 hlast
            obtain ⟨hreport, rfl⟩ := ends_pure.1 hpure
            cases hreport
            obtain rfl : missing = [] := List.isEmpty_iff.1 hvalid
            exact ⟨m, t, manifest, entries, hexists, hload, hselected, hfilter⟩

/-- A template that passes the check has a manifest, and sources for all that is asked for. -/
theorem ends_preflight {sectionName : Text} {name : Option Text} {report : Preflight}
    (h : (Manifests.preflight suffix template sectionName name).Ends s (.ok report) s')
    (hvalid : report.isValid = true) :
    (s.tree.look s.here template.text false).isOk = true ∧ ∃ place manifest entries,
      s.tree.resolved s.here template.text = .ok place ∧
      s'.manifests.lookup place = some manifest ∧
      Manifests.selected manifest sectionName name = .ok entries ∧
      ∀ raw ∈ entries.flatMap (·.includes),
        s.tree.HasSource s.here suffix template (Directive.parse raw).source := by
  obtain ⟨m, t, manifest, entries, hexists, hload, hselected, hfilter⟩ :=
    ends_preflight_steps h hvalid
  obtain ⟨hlooks, htold, -⟩ := ends_storage_exists? hexists
  obtain ⟨hreads, hplace⟩ := ends_load hload
  obtain ⟨place, hresolved, hlookup⟩ := hplace _ rfl
  rw [hlooks.tree, hlooks.here] at hresolved
  have hlooks' := discipline_looks.filterM (fun raw _ => follows_isMissing _ _ raw) _ _ _ hfilter
  refine ⟨htold true rfl, place, manifest, entries, hresolved, ?_, hselected, fun raw hraw => ?_⟩
  · rw [hlooks'.manifests]
    exact hlookup manifest rfl
  · obtain ⟨v, w, hreached, htested⟩ := tested_of_filterM discipline_looks
      (follows_isMissing _ _) hfilter raw hraw
    have hsource := ((ends_isMissing htested).2.1 false rfl).1 rfl
    rwa [hreached.tree, hreached.here, hreads.tree, hreads.here, hlooks.tree,
      hlooks.here] at hsource

theorem follows_findEntry (template : FilePath) (kind : Scaffold.Kind) (name : Text) :
    (Scaffold.findEntry template kind name).Follows Reads := by
  refine discipline_reads.bind (follows_load _) fun found => ?_
  split
  · exact discipline_reads.pure _
  · split <;> exact discipline_reads.pure _

theorem ends_findEntry {kind : Scaffold.Kind} {entry : Entry}
    (h : (Scaffold.findEntry template kind name).Ends s (.ok (.ok entry)) s') :
    ∃ place manifest, s.tree.resolved s.here template.text = .ok place ∧
      s'.manifests.lookup place = some manifest ∧ manifest.entries kind.sectionName ≠ [] ∧
      manifest.find? kind.sectionName (some name) = some entry := by
  obtain ⟨found, m, hload, hnext⟩ := ends_bind_ok.1 h
  obtain ⟨place, hresolved, hlookup⟩ := (ends_load hload).2 found rfl
  split at hnext
  · cases (ends_pure.1 hnext).1
  · rename_i manifest hmanifest
    obtain ⟨hfound, hentries⟩ := Option.filter_eq_some_iff.1 hmanifest
    split at hnext
    · rename_i known hfind
      obtain ⟨hentry, rfl⟩ := ends_pure.1 hnext
      cases hentry
      exact ⟨place, manifest, hresolved, hlookup manifest hfound, by simpa using hentries, hfind⟩
    · cases (ends_pure.1 hnext).1

end Action

/-! ## Preparing operations -/

namespace Scaffold.Operation

variable {library : Library} {operation : Operation} {request : FeatureRequest}
  {target : FilePath} {job other : Generator.Job}

theorem follows_target (operation : Operation) : operation.target.Follows Eq := by
  cases operation with
  | project request =>
      refine discipline_eq.bind ?_ fun _ => discipline_eq.pure _
      unfold absolute
      split
      · exact discipline_eq.pure _
      · refine discipline_eq.bind (discipline_eq.bind discipline_eq.get fun s => ?_) fun _ =>
          discipline_eq.pure _
        split
        · exact discipline_eq.pure _
        · exact discipline_eq.throw _
  | feature request =>
      refine discipline_eq.bind (fun s r s' h => ?_) fun _ => discipline_eq.pure _
      exact (ends_resolve.1 h).2.symm

theorem ends_target_feature {r : Except Failure FilePath} :
    (Operation.feature request).target.Ends s r s' ↔
      r = (s.tree.resolved s.here (FilePath.ofText request.projectPath).text).map Location.path ∧
        s' = s := by
  show (resolve (FilePath.ofText request.projectPath).text >>= fun place =>
    pure place.path).Ends s r s' ↔ _
  rw [ends_bind]
  simp only [ends_resolve, ends_pure]
  cases s.tree.resolved s.here (FilePath.ofText request.projectPath).text with
  | error failure => simp [Except.map, and_comm]
  | ok place => simp [Except.map]

theorem ends_target_project {request : ProjectRequest}
    (h : (Operation.project request).target.Ends s (.ok target) s') :
    target = (Location.path s.here).join
        ((FilePath.ofText request.targetFolder).child request.projectName) ∧
      ((FilePath.ofText request.targetFolder).isAbsolute = true ∨
        s.tree.get? s.here = some .directory) := by
  obtain ⟨folder, m, hfolder, hpure⟩ := ends_bind_ok.1 h
  obtain ⟨htarget, -⟩ := ends_pure.1 hpure
  cases htarget
  obtain ⟨rfl, hstart⟩ := ends_absolute hfolder
  exact ⟨FilePath.join_assoc _ _ _, hstart⟩

/-- Every target is an absolute path or one below a directory, in its shortest form. -/
theorem isProper_target (hwell : s.tree.WellFormed)
    (h : operation.target.Ends s (.ok target) s') : target.IsProper := by
  cases operation with
  | project request =>
      obtain ⟨folder, m, hfolder, hpure⟩ := ends_bind_ok.1 h
      obtain ⟨htarget, -⟩ := ends_pure.1 hpure
      cases htarget
      refine FilePath.IsProper.child ?_ _
      have hproper := FilePath.isProper_ofText request.targetFolder
      obtain ⟨rfl, habsolute | hhere⟩ := ends_absolute hfolder
      · rwa [FilePath.join, if_pos habsolute]
      · exact (FilePath.isProper_path (hwell.isProper hhere)).join hproper
  | feature request =>
      obtain ⟨htarget, -⟩ := ends_target_feature.1 h
      cases hresolved : s.tree.resolved s.here (FilePath.ofText request.projectPath).text with
      | error failure =>
          rw [hresolved] at htarget
          cases htarget
      | ok place =>
          rw [hresolved] at htarget
          cases htarget
          exact isProper_realPlace hwell (realPlace_of_resolved hresolved)

theorem follows_targetFault? (target : FilePath) (operation : Operation) :
    (operation.targetFault? target).Follows Looks := by
  cases operation <;>
    · refine discipline_looks.bind (follows_storage_exists? _) fun isThere => ?_
      split <;> exact discipline_looks.pure _

theorem follows_prepare (library : Library) (operation : Operation) :
    (operation.prepare library).Follows Reads := by
  have hreads : ∀ s s' : Session, s.Looks s' → s.Reads s' := fun _ _ => Looks.reads
  refine discipline_reads.bind ((follows_target operation).mono ?_) fun target => ?_
  · rintro s _ rfl
    exact .refl s
  refine discipline_reads.bind (follows_preflight _ _ _ _) fun report => ?_
  split
  · exact discipline_reads.pure _
  refine discipline_reads.bind ((follows_targetFault? _ _).mono hreads) fun message => ?_
  split
  · exact discipline_reads.pure _
  refine discipline_reads.bind (follows_findEntry _ _ _) fun entry => ?_
  split <;> exact discipline_reads.pure _

/-- The steps of a preparation that came to its end. -/
theorem ends_prepare (h : (operation.prepare library).Ends s (.ok (.ok job)) s') :
    ∃ report m m' t, operation.target.Ends s (.ok job.target) s ∧
      (Manifests.preflight library.suffix job.template operation.kind.sectionName
        (some operation.entryName)).Ends s (.ok report) m ∧ report.isValid = true ∧
      (operation.targetFault? job.target).Ends m (.ok none) m' ∧
      (findEntry job.template operation.kind operation.entryName).Ends m' (.ok (.ok job.entry)) t ∧
      t = s' ∧ job = ⟨library, job.entry, library.template operation.templateName, job.target,
        operation.vars job.target⟩ := by
  obtain ⟨target, u, htarget, hnext⟩ := ends_bind_ok.1 h
  obtain rfl := follows_target _ _ _ _ htarget
  obtain ⟨report, m, hpreflight, hchecked⟩ := ends_bind_ok.1 hnext
  split at hchecked
  · cases (ends_pure.1 hchecked).1
  rename_i hvalid
  obtain ⟨fault, m', hfault, hfree⟩ := ends_bind_ok.1 hchecked
  cases fault with
  | some message => cases (ends_pure.1 hfree).1
  | none =>
      obtain ⟨entry, t, hfind, hlast⟩ := ends_bind_ok.1 hfree
      cases entry with
      | error message => cases (ends_pure.1 hlast).1
      | ok entry =>
          obtain ⟨hjob, rfl⟩ := ends_pure.1 hlast
          cases hjob
          exact ⟨report, m, m', s', htarget, hpreflight, by simpa using hvalid, hfault, hfind, rfl,
            rfl⟩

theorem isProper_target_of_prepare (hwell : s.tree.WellFormed)
    (h : (operation.prepare library).Ends s (.ok (.ok job)) s') : job.target.IsProper := by
  obtain ⟨-, -, -, -, htarget, -⟩ := ends_prepare h
  exact isProper_target hwell htarget

/-- A project is only prepared where nothing is yet. -/
theorem look_target_of_prepare {request : ProjectRequest}
    (h : ((Operation.project request).prepare library).Ends s (.ok (.ok job)) s') :
    ∃ failure, s.tree.look s.here job.target.text false = .error failure := by
  obtain ⟨report, m, m', t, -, hpreflight, -, hfault, -⟩ := ends_prepare h
  have hpreflown := follows_preflight _ _ _ _ _ _ _ hpreflight
  obtain ⟨isThere, u, hexists, hlast⟩ := ends_bind_ok.1 hfault
  have hthere := (ends_storage_exists? hexists).2.1 isThere rfl
  rw [hpreflown.tree, hpreflown.here] at hthere
  cases isThere with
  | true => cases (ends_pure.1 hlast).1
  | false =>
      cases hlook : s.tree.look s.here job.target.text false with
      | error failure => exact ⟨failure, rfl⟩
      | ok item =>
          rw [hlook] at hthere
          cases hthere

/-- What an operation was prepared from: the template is there, and so are the manifest with the
entry and the sources of all directives. -/
structure Checked (library : Library) (operation : Operation) (job : Generator.Job)
    (s s' : Session) : Prop where
  template : (s.tree.look s.here job.template.text false).isOk = true
  manifest : ∃ place manifest, s.tree.resolved s.here job.template.text = .ok place ∧
    s'.manifests.lookup place = some manifest ∧ manifest.entries operation.kind.sectionName ≠ [] ∧
    manifest.find? operation.kind.sectionName (some operation.entryName) = some job.entry
  sources : ∀ raw ∈ job.entry.includes,
    s.tree.HasSource s.here library.suffix job.template (Directive.parse raw).source

theorem checked_of_prepare (h : (operation.prepare library).Ends s (.ok (.ok job)) s') :
    Checked library operation job s s' := by
  obtain ⟨report, m, m', _, -, hpreflight, hvalid, hfault, hfind, rfl, -⟩ := ends_prepare h
  have hpreflown := follows_preflight _ _ _ _ _ _ _ hpreflight
  have hlooks := follows_targetFault? _ _ _ _ _ hfault
  obtain ⟨htemplate, place, checked, entries, hresolved, hchecked, hselected, hsources⟩ :=
    ends_preflight hpreflight hvalid
  obtain ⟨place', manifest, hresolved', hlookup, hentries, hentry⟩ := ends_findEntry hfind
  rw [hlooks.tree, hlooks.here, hpreflown.tree, hpreflown.here, hresolved] at hresolved'
  cases hresolved'
  -- what the check found is what the entry is taken from
  obtain rfl : checked = manifest := by
    have hkept := (follows_findEntry _ _ _ _ _ _ hfind).remembered place checked
      (by rwa [hlooks.manifests])
    exact Option.some.inj (hkept.symm.trans hlookup)
  have hselected' : entries = [job.entry] :=
    Except.ok.inj (hselected.symm.trans (selected_of_find? hentries hentry))
  refine ⟨htemplate, ⟨place, checked, hresolved, hlookup, hentries, hentry⟩, fun raw hraw => ?_⟩
  exact hsources raw (by simpa [hselected'] using hraw)

/-- The entry is taken from a manifest that was remembered before. -/
theorem find?_of_prepare {place : Location} {manifest : Manifest}
    (hplace : s.tree.resolved s.here (library.template operation.templateName).text = .ok place)
    (hlookup : s.manifests.lookup place = some manifest)
    (h : (operation.prepare library).Ends s (.ok (.ok job)) s') :
    job.template = library.template operation.templateName ∧
      manifest.find? operation.kind.sectionName (some operation.entryName) = some job.entry := by
  obtain ⟨-, -, -, -, -, -, -, -, -, -, hjob⟩ := ends_prepare h
  have htemplate : job.template = library.template operation.templateName := by rw [hjob]
  obtain ⟨place', manifest', hplace', hlookup', -, hfind⟩ := (checked_of_prepare h).manifest
  rw [htemplate, hplace] at hplace'
  cases hplace'
  have hkept := (follows_prepare _ _ _ _ _ h).remembered _ _ hlookup
  obtain rfl : manifest = manifest' := Option.some.inj (hkept.symm.trans hlookup')
  exact ⟨htemplate, hfind⟩

/-! ## Preparing under the same conditions -/

theorem carries_target (operation : Operation) : operation.target.Carries SameFiles := by
  cases operation with
  | project request => exact (carries_absolute_sameFiles _).bind fun _ => .pure _
  | feature request =>
      exact Carries.bind (.of_told (fun s => s.tree.resolved s.here _) ends_resolve fun s t h => by
        rw [h.tree, h.here]) fun _ => .pure _

theorem carries_targetFault? (target : FilePath) (operation : Operation) :
    (operation.targetFault? target).Carries SameFiles := by
  cases operation <;>
    · refine (carries_storage_exists?_sameFiles _).bind fun found => ?_
      split <;> exact .pure _

/-- An operation is prepared if nothing speaks against its template, its entry and its target. -/
theorem exists_prepare {entry : Entry} {t : Session} (hcalm : s.IsCalm)
    (htarget : operation.target.Ends s (.ok target) s)
    (htemplate :
      (s.tree.look s.here (library.template operation.templateName).text false).isOk = true)
    (hload : (Manifests.load (library.template operation.templateName)).Ends s
      (.ok (some manifest)) m)
    (hentry : manifest.find? operation.kind.sectionName (some operation.entryName) = some entry)
    (hsources : ∀ raw ∈ entry.includes, s.tree.HasSource s.here library.suffix
      (library.template operation.templateName) (Directive.parse raw).source)
    (hfault : (operation.targetFault? target).Ends s (.ok none) t) :
    ∃ s', m.Looks s' ∧ (operation.prepare library).Ends s (.ok (.ok ⟨library, entry,
      library.template operation.templateName, target, operation.vars target⟩)) s' := by
  obtain ⟨hreads, hplace⟩ := ends_load hload
  obtain ⟨place, hresolved, hlookup⟩ := hplace _ rfl
  have hentries := entries_ne_nil_of_find? hentry
  obtain ⟨u, hlooks, hfilter⟩ : ∃ u, m.Looks u ∧ Ends (([entry].flatMap (·.includes)).filterM
      (Manifests.isMissing library.suffix (library.template operation.templateName))) m
        (.ok []) u := by
    have hnone : ([entry].flatMap (·.includes)).filter (fun _ => false) = [] := by simp
    rw [← hnone]
    refine ends_filterM discipline_looks fun raw hraw n hreached => ?_
    have hend := Ends.run (Manifests.isMissing library.suffix
      (library.template operation.templateName) raw) n
    obtain ⟨hlooks, htold, hdone⟩ := ends_isMissing hend
    obtain ⟨missing, hmissing⟩ := hdone (hreached.isCalm (hreads.isCalm hcalm))
    have hsource := hsources raw (by simpa using hraw)
    rw [← hreads.tree, ← hreads.here, ← hreached.tree, ← hreached.here,
      ← htold missing hmissing] at hsource
    exact ⟨_, hlooks, by rwa [hmissing, hsource] at hend⟩
  have hpreflight : (Manifests.preflight library.suffix (library.template operation.templateName)
      operation.kind.sectionName (some operation.entryName)).Ends s (.ok ⟨true, [], []⟩) u := by
    refine (ends_storage_exists?_of_look hcalm htemplate).bind ?_
    refine ends_attempt_bind.2 ⟨_, _, hload, ?_⟩
    simp only [selected_of_find? hentries hentry]
    exact hfilter.bind (ends_pure.2 ⟨rfl, rfl⟩)
  have hreads' := hreads.trans hlooks.reads
  obtain ⟨s', hfault', -⟩ := carries_targetFault? target operation s u
    ⟨hreads'.tree, hreads'.here, hcalm, hreads'.isCalm hcalm⟩ _ _ hfault
  have hlooks' := hlooks.trans (follows_targetFault? _ _ _ _ _ hfault')
  have hfind : (findEntry (library.template operation.templateName) operation.kind
      operation.entryName).Ends s' (.ok (.ok entry)) s' := by
    have hloaded : (Manifests.load (library.template operation.templateName)).Ends s'
        (.ok (some manifest)) s' :=
      ends_load_of_lookup (by rwa [hlooks'.tree, hlooks'.here, hreads.tree, hreads.here])
        (by rw [hlooks'.manifests, hlookup manifest rfl])
    refine hloaded.bind ?_
    have hfilter : (some manifest).filter (fun manifest =>
        !(manifest.entries operation.kind.sectionName).isEmpty) = some manifest := by
      simp [hentries]
    simp only [hfilter, hentry]
    exact ends_pure.2 ⟨rfl, rfl⟩
  exact ⟨s', hlooks', htarget.bind (hpreflight.bind (hfault'.bind (hfind.bind
    (ends_pure.2 ⟨rfl, rfl⟩))))⟩

/-! ## Preparing a feature again -/

/-- All that a feature was prepared from is there. -/
structure Ready (library : Library) (request : FeatureRequest) (job : Generator.Job)
    (s : Session) : Prop where
  job_eq : job = ⟨library, job.entry, library.template request.templateFolder, job.target,
    (Operation.feature request).vars job.target⟩
  target : ∃ place, job.target = place.path ∧
    s.tree.realPlace s.here (FilePath.ofText request.projectPath).text = .ok place
  isThere : (s.tree.look s.here job.target.text false).isOk = true
  template : (s.tree.look s.here job.template.text false).isOk = true
  manifest : ∃ place manifest, s.tree.realPlace s.here job.template.text = .ok place ∧
    s.manifests.lookup place = some manifest ∧
    manifest.entries Kind.feature.sectionName ≠ [] ∧
    manifest.find? Kind.feature.sectionName (some request.feature) = some job.entry
  sources : ∀ raw ∈ job.entry.includes,
    s.tree.HasSource s.here library.suffix job.template (Directive.parse raw).source

theorem ready_of_prepare
    (h : ((Operation.feature request).prepare library).Ends s (.ok (.ok job)) s') :
    Ready library request job s' ∧
      ∃ place, s'.tree.resolved s'.here job.template.text = .ok place := by
  obtain ⟨report, m, m', _, htarget, hpreflight, -, hfault, -, rfl, hjob⟩ := ends_prepare h
  obtain ⟨htemplate, ⟨place, manifest, hresolved, hmanifest⟩, hsources⟩ := checked_of_prepare h
  have hreads := follows_prepare _ _ _ _ _ h
  have hpreflown := follows_preflight _ _ _ _ _ _ _ hpreflight
  have hexists : (s.tree.look s.here job.target.text false).isOk = true := by
    obtain ⟨isThere, t, hexists, hlast⟩ := ends_bind_ok.1 hfault
    have hthere := (ends_storage_exists? hexists).2.1 isThere rfl
    rw [hpreflown.tree, hpreflown.here] at hthere
    cases isThere with
    | true => exact hthere
    | false => cases (ends_pure.1 hlast).1
  rw [hreads.tree, hreads.here]
  refine ⟨⟨hjob, ?_, ?_, ?_, ?_, ?_⟩, place, hresolved⟩
  all_goals try rw [hreads.tree, hreads.here]
  · obtain ⟨hmap, -⟩ := ends_target_feature.1 htarget
    cases hplace : s.tree.resolved s.here (FilePath.ofText request.projectPath).text with
    | error failure =>
        rw [hplace] at hmap
        cases hmap
    | ok place =>
        rw [hplace] at hmap
        exact ⟨place, Except.ok.inj hmap, realPlace_of_resolved hplace⟩
  · exact hexists
  · exact htemplate
  · exact ⟨place, manifest, realPlace_of_resolved hresolved, hmanifest⟩
  · exact hsources

/-- What a feature was prepared from stays while files and directories are added. -/
theorem Ready.kept (h : Ready library request job s) (hwell : s.tree.WellFormed)
    (hgrows : s.Grows s') : Ready library request job s' := by
  have hadded := hgrows.added
  have hlinks : s'.tree.HasLinksOf s.tree := fun place target =>
    ⟨hadded.unlinked place target, hadded.kept place (.link target)⟩
  obtain ⟨place, htarget, hreal⟩ := h.target
  obtain ⟨place', manifest, hreal', hlookup, hentry⟩ := h.manifest
  refine ⟨h.job_eq, ⟨place, htarget, ?_⟩, ?_, ?_, ⟨place', manifest, ?_, ?_, hentry⟩, ?_⟩
  all_goals try rw [hgrows.here]
  · exact realPlace_kept hwell hadded.well hadded.kept hlinks hreal
  · exact isOk_look_kept hadded.kept h.isThere
  · exact isOk_look_kept hadded.kept h.template
  · exact realPlace_kept hwell hadded.well hadded.kept hlinks hreal'
  · rwa [hgrows.manifests]
  · exact fun raw hraw => (h.sources raw hraw).kept hadded.kept

/-- A feature that is ready is prepared as before, unless a loop of links is in the way. -/
theorem Ready.again (h : Ready library request job s) (hcalm : s.IsCalm)
    (htarget : s.tree.look s.here job.target.text true = .ok .directory) {place : Location}
    (htemplate : s.tree.resolved s.here job.template.text = .ok place) :
    ∃ s', s.Looks s' ∧
      ((Operation.feature request).prepare library).Ends s (.ok (.ok job)) s' := by
  obtain ⟨origin, htarget', hreal⟩ := h.target
  obtain ⟨place', manifest, hreal', hlookup, -, hentry⟩ := h.manifest
  rw [realPlace_of_resolved htemplate] at hreal'
  cases hreal'
  have hjob := h.job_eq
  have htemplate' : job.template = library.template request.templateFolder := by rw [hjob]
  have hresolve : (Operation.feature request).target.Ends s (.ok job.target) s := by
    rw [htarget'] at htarget ⊢
    exact ends_target_feature.2 ⟨by rw [resolved_of_look hreal htarget]; rfl, rfl⟩
  have hfault : ((Operation.feature request).targetFault? job.target).Ends s (.ok none) s :=
    (ends_storage_exists?_of_look hcalm h.isThere).bind (ends_pure.2 ⟨rfl, rfl⟩)
  obtain ⟨s', hlooks, hprepare⟩ := exists_prepare hcalm hresolve (htemplate' ▸ h.template)
    (ends_load_of_lookup (htemplate' ▸ htemplate) hlookup) hentry (htemplate' ▸ h.sources) hfault
  exact ⟨s', hlooks, hjob ▸ hprepare⟩

end Scaffold.Operation

end Stencil
