import Stencil.Proofs.Catalogue.Ordering
import Stencil.Proofs.Project
import Stencil.Proofs.Scaffold.Contained
import Stencil.Proofs.Scaffold.Rendered
import Stencil.Proofs.Session.Fresh

/-!
# New projects in new directories

A project is made in a directory that was not there, and its template is recorded
in that directory.  So nothing that was there is changed, unless the path of the
project rises by a pair of dots from a directory that is made on the way.
-/

namespace Stencil

open FileTree Session Action Scaffold

variable {library : Library} {name : Text} {vars : Variables} {request : ProjectRequest}
  {boilerplate : Boilerplate} {job : Generator.Job} {s t s' : Session} {place base : Location}

/-! ## Directories of projects -/

/-- A run finds nothing at the target of a new project, so it makes the directory. -/
theorem Scaffold.Operation.RunsTo.fresh {start finish : Session}
    (h : (Operation.project request).RunsTo library s job start finish) (hwell : s.tree.WellFormed)
    (hrises : job.target.RisesIn s.tree s.here) :
    ∃ place, s.tree.get? place = none ∧ start.tree.get? place = some .directory ∧
      start.tree.locate start.here job.target.text true = .ok place := by
  obtain ⟨m, hprepare, hensure⟩ := h.prepared
  have hproper := h.isProper_target hwell
  have hreads := Operation.follows_prepare _ _ _ _ _ hprepare
  obtain ⟨failure, hfree⟩ := Operation.look_target_of_prepare hprepare
  rcases ends_guarded hensure with ⟨_, hr, -⟩ | ⟨u, hlooks, hmade⟩
  · cases hr
  rw [hproper.ofText_text] at hmade
  have htree : u.tree = s.tree := hlooks.tree.trans hreads.tree
  have hhere : u.here = s.here := hlooks.here.trans hreads.here
  rw [← htree] at hwell
  rw [← htree, ← hhere] at hrises hfree
  obtain ⟨place, hnone, hlocate⟩ := fresh_of_ensureDirectories hwell hproper hrises hfree hmade
  obtain ⟨other, hother, hget⟩ := look_eq_ok_iff.1 (look_of_ensureDirectories hwell hmade)
  rw [hlocate] at hother
  cases hother
  exact ⟨place, htree ▸ hnone, hget, hlocate⟩

/-- The file of a project lies in the directory of the project. -/
theorem Project.eq_of_locate_recordPath {folder name : Text} (hwell : t.tree.WellFormed)
    (hbase : t.tree.locate t.here
      ((Location.path t.here).join ((FilePath.ofText folder).child name)).text true = .ok base)
    (hlinks : ∀ below target, t.tree.get? (base ++ below) ≠ some (.link target))
    (h : t.tree.locate t.here (recordPath folder name).text true = .ok place) :
    place = base ++ [projectFile] := by
  have hproper := isProper_recordPath folder name
  rw [recordPath_eq] at h hproper
  change t.tree.locate t.here ((Location.path t.here).join (directoryOf folder name)).text true =
    .ok base at hbase
  have hway : ∃ links, Walks t.tree true links base [projectFile] place := by
    cases habsolute : (directoryOf folder name).isAbsolute with
    | true =>
        rw [FilePath.join, if_pos habsolute] at hbase
        exact FilePath.walks_of_below hwell hproper hbase h
    | false =>
        rw [FilePath.join, if_neg (by simp [habsolute])] at hbase
        exact FilePath.walks_of_relative hwell hproper habsolute (by simp) hbase h
  obtain ⟨links, hway⟩ := hway
  exact hway.eq_append (fun other hother => by
    rw [List.mem_singleton.1 hother]
    exact ⟨isName_projectFile.2.1, isName_projectFile.2.2.1⟩) hlinks

/-! ## What is written for a project -/

namespace Catalogue

/-- The directory of a job is new, and every new file lies in it, unless it serves a directive that
leads out.  What was there before is kept. -/
structure Founded (job : Generator.Job) (place here : Location) (tree later : FileTree) :
    Prop where
  kept : tree.IsKeptBy later
  fresh : tree.get? place = none
  located : later.locate here job.target.text true = .ok place
  files : ∀ file content, tree.get? file = none → later.get? file = some (.file content) →
    place <+: file ∨ ∃ raw ∈ job.entry.includes, selects job raw = true ∧
      leadsOut job raw = true ∧ (targetOf job raw).Serves later here file

variable {tree later latest : FileTree} {here : Location}

/-- More may be written, as long as it is written into the directory. -/
theorem Founded.extended (h : Founded job place here tree later) (hwell : later.WellFormed)
    (hplace : later.get? place = some .directory) (hextended : later.IsExtendedBy latest)
    (hkept : tree.IsKeptBy latest)
    (hfiles : ∀ file content, latest.get? file = some (.file content) →
      later.get? file = some (.file content) ∨ place <+: file) :
    Founded job place here tree latest := by
  refine ⟨hkept, h.fresh, locate_extend hextended h.located (by simp [hplace]), ?_⟩
  intro file content hnone hfile
  rcases hfiles file content hfile with hlater | hbelow
  · rcases h.files file content hnone hlater with hbelow | ⟨raw, hraw, hselected, hleads, hserves⟩
    · exact .inl hbelow
    · exact .inr ⟨raw, hraw, hselected, hleads, hserves.extended hwell hextended hlater⟩
  · exact .inl hbelow

/-- The template of a new project is recorded in the directory of the project. -/
theorem Founded.record {folder template : Text} {r : Except Failure FilePath}
    (h : Founded job place t.here tree t.tree) (hwell : tree.WellFormed)
    (hadded : tree.IsAddedTo t.tree) (hplace : t.tree.get? place = some .directory)
    (htarget : job.target = (Location.path t.here).join ((FilePath.ofText folder).child name))
    (hrecord : (Project.record folder name template).Ends t r s') :
    Founded job place t.here tree s'.tree := by
  have hopen : ∀ m, Ensures t m → Founded job place t.here tree m.tree := by
    intro m hensures
    obtain ⟨-, hadds⟩ := hensures.adds hadded.well
    refine h.extended hadded.well hplace hadds.kept.isExtendedBy (h.kept.trans hadds.kept) ?_
    intro file content hfile
    rcases hadds.added _ _ hfile with hold | ⟨-, hitem⟩
    · exact .inl hold
    · cases hitem
  rcases Project.ends_record_or hadded.well hrecord with
    ⟨-, -, hensures⟩ | ⟨fields, m, other, hrecords⟩
  · exact hopen _ hensures
  have hensures := hrecords.ensures
  have hwrites := hrecords.writes
  have hopened := hopen m hensures
  obtain ⟨hwell', hadds⟩ := hensures.adds hadded.well
  have hlinks := (hadded.trans (hadds.isAddedTo hwell')).unlinked_below hwell h.fresh
  have hlocated := hopened.located
  rw [htarget, ← hensures.here] at hlocated
  obtain rfl := Project.eq_of_locate_recordPath hwell' hlocated hlinks hwrites.located
  have hextended := hwrites.isExtendedBy (hlinks [Project.projectFile])
  refine hopened.extended hwell' (hadds.kept _ _ hplace) hextended ?_ ?_
  · intro old item hitem
    have hold : old ≠ place ++ [Project.projectFile] := by
      rintro rfl
      rw [hwell.get?_below h.fresh] at hitem
      cases hitem
    rw [hwrites.others old hold]
    exact hopened.kept _ _ hitem
  · intro file content hfile
    by_cases hfresh : file = place ++ [Project.projectFile]
    · exact .inr (hfresh ▸ List.prefix_append _ _)
    · exact .inl (by rwa [hwrites.others file hfresh] at hfile)

/-- A project that is made without a generator is made in a new directory. -/
theorem founded_of_perform {r : Except Failure Outcome} (hwell : s.tree.WellFormed)
    (hdirect : (Operation.project request).usesGenerator library s = false)
    (hsuccess : (Operation.project request).succeeds library s = true)
    (hrises : ∀ job, ((Operation.project request).prepare library).result s = .ok (.ok job) →
      job.target.RisesIn s.tree s.here)
    (h : ((Operation.project request).perform library).Ends s r s') :
    ∃ job place, ((Operation.project request).prepare library).result s = .ok (.ok job) ∧
      (Operation.project request).target.Ends s (.ok job.target) s ∧ s.tree.IsAddedTo s'.tree ∧
      s'.here = s.here ∧ s'.tree.get? place = some .directory ∧
      Founded job place s.here s.tree s'.tree := by
  obtain ⟨job, start, finish, hrun⟩ := exists_runsTo hdirect hsuccess
  obtain ⟨m, hprepare, -⟩ := hrun.prepared
  have hprepared := hprepare.result_eq
  have hproper := hrun.isProper_target hwell
  obtain ⟨place, hfresh, hplace, hlocate⟩ := hrun.fresh hwell (hrises job hprepared)
  -- what the run makes after the directory leaves the directory where it is
  obtain ⟨-, hsame⟩ := h.unique hrun.ended
  have hgrown : start.tree.IsAddedTo s'.tree := by
    rw [hsame]
    exact (hrun.grows hwell).added
  have hstart : s'.here = start.here := by
    rw [hsame]
    exact (hrun.grows hwell).here
  have hplace' := hgrown.kept _ _ hplace
  have hlocate' : s'.tree.locate s'.here job.target.text true = .ok place := by
    rw [hstart]
    exact locate_extend hgrown.kept.isExtendedBy hlocate (by simp [hplace])
  rcases gains_perform hwell hdirect h with htree | ⟨other, m', hprepare', hgains⟩
  · rw [htree, hfresh] at hplace'
    cases hplace'
  obtain rfl : other = job := by
    cases (hprepare'.unique hprepare).1
    rfl
  obtain ⟨-, -, -, -, htarget, -⟩ := Operation.ends_prepare hprepare
  refine ⟨other, place, hprepared, htarget, hgains.added, hgains.here, hplace', hgains.added.kept,
    hfresh, hgains.here ▸ hlocate', fun file content hnone hfile => ?_⟩
  have hlinks : ∀ base, s'.tree.locate s'.here other.target.text true = .ok base →
      ∀ below target, s'.tree.get? (base ++ below) ≠ some (.link target) := by
    intro base hbase
    rw [hlocate'] at hbase
    cases hbase
    exact hgains.added.unlinked_below hwell hfresh
  obtain ⟨path, hpath, hserves⟩ := hgains.served file _ hnone hfile
  rw [← hgains.here]
  refine (serves_of_concerns hgains.added.well hproper hlinks hpath hserves).imp_left ?_
  intro htarget
  obtain ⟨base, hbase, hbelow⟩ := htarget.below_of_file hfile
  rw [hlocate'] at hbase
  cases hbase
  exact hbelow

/-! ## Projects from boilerplates -/

/-- What a name and variables ask for, if they stand for a project at all. -/
def request? (library : Library) (name : Text) (vars : Variables) (s : Session) :
    Option ProjectRequest :=
  match (order library name vars).result s with
  | .ok (.ok (_, request)) => some request
  | _ => none

/-- The job that a project is made by. -/
def job? (library : Library) (name : Text) (vars : Variables) (s : Session) :
    Option Generator.Job :=
  (request? library name vars s).bind fun request =>
    match ((Operation.project request).prepare library).result
        ((order library name vars).after s) with
    | .ok (.ok job) => some job
    | _ => none

def usesGenerator (library : Library) (name : Text) (vars : Variables) (s : Session) : Bool :=
  (request? library name vars s).any fun request =>
    (Operation.project request).usesGenerator library ((order library name vars).after s)

def succeeds (library : Library) (name : Text) (vars : Variables) (s : Session) : Bool :=
  ((make library name vars).result s).toOption.any Outcome.success

theorem ends_recorded {folder : Text} {outcome : Outcome} {r : Except Failure Outcome}
    (h : (recorded boilerplate folder outcome).Ends s r s') :
    ∃ r' t, (Project.record boilerplate.targetFolder folder boilerplate.template).Ends s r' t ∧
      t.Looks s' := by
  have hrecording : ∀ {r : Except Failure Outcome} {t : Session},
      ((Project.record boilerplate.targetFolder folder boilerplate.template >>= fun _ =>
        pure outcome : Action Outcome)).Ends s r t →
      ∃ r', (Project.record boilerplate.targetFolder folder boilerplate.template).Ends s r' t := by
    intro r t hend
    obtain ⟨r', hrecord, -⟩ := ends_bind_pure.1 hend
    exact ⟨r', hrecord⟩
  rcases ends_orElseIf.1 h with ⟨_, hend, -⟩ | ⟨failure, t, hend, -, hhandle⟩ | ⟨_, hend, -⟩
  · exact (hrecording hend).imp fun _ hrecord => ⟨s', hrecord, .refl _⟩
  · obtain ⟨r', hrecord⟩ := hrecording hend
    exact ⟨r', t, hrecord, discipline_looks.bind (follows_printWarning _)
      (fun _ => discipline_looks.pure _) _ _ _ hhandle⟩
  · exact (hrecording hend).imp fun _ hrecord => ⟨s', hrecord, .refl _⟩

/-- A project is not made at all, it is made in vain, or it is made and its template recorded. -/
theorem ends_make {r : Except Failure Outcome} (h : (make library name vars).Ends s r s') :
    (s.Reads s' ∧ succeeds library name vars s = false) ∨
      ∃ boilerplate request t result u,
        (order library name vars).Ends s (.ok (.ok (boilerplate, request))) t ∧
        request.targetFolder = boilerplate.targetFolder ∧
        ((Operation.project request).perform library).Ends t result u ∧
        ((s' = u ∧ succeeds library name vars s = false) ∨
          (Operation.project request).succeeds library t = true ∧
            ∃ outcome, (recorded boilerplate request.projectName outcome).Ends u r s') := by
  have hsucceeds : succeeds library name vars s = r.toOption.any Outcome.success := by
    rw [succeeds, h.result_eq]
  rw [hsucceeds]
  rcases ends_bind.1 h with ⟨found, t, horder, hnext⟩ | ⟨failure, horder, rfl⟩
  case inr => exact .inl ⟨follows_order _ _ _ _ _ _ horder, rfl⟩
  rcases ends_order horder with ⟨outcome, rfl, hfailed⟩ | ⟨boilerplate, request, rfl, hordered⟩
  · obtain ⟨rfl, rfl⟩ := ends_pure.1 hnext
    exact .inl ⟨follows_order _ _ _ _ _ _ horder, hfailed⟩
  rcases ends_bind.1 hnext with ⟨outcome, u, hperform, hlast⟩ | ⟨failure, hperform, rfl⟩
  case inr => exact .inr ⟨_, _, t, _, s', horder, hordered.fields.1, hperform, .inl ⟨rfl, rfl⟩⟩
  refine .inr ⟨_, _, t, _, u, horder, hordered.fields.1, hperform, ?_⟩
  by_cases hdone : outcome.success = true
  · rw [if_pos hdone] at hlast
    refine .inr ⟨?_, outcome, hlast⟩
    rw [Operation.succeeds, Operation.outcome?_eq hperform]
    exact hdone
  · rw [if_neg hdone] at hlast
    obtain ⟨rfl, rfl⟩ := ends_pure.1 hlast
    exact .inl ⟨rfl, Bool.eq_false_iff.2 hdone⟩

/-- A boilerplate leaves everything that was there as it is, and makes its project in a new
directory, unless the path of the project rises from a directory that is not there. -/
theorem projects_stay_in_new_directories (library : Library) (name : Text) (vars : Variables)
    (s : Session) (hwell : s.tree.WellFormed)
    (hdirect : usesGenerator library name vars s = false)
    (hrises : ∀ job ∈ job? library name vars s, job.target.RisesIn s.tree s.here) :
    s.tree.IsKeptBy ((make library name vars).after s).tree ∧
      (succeeds library name vars s = true →
        ∃ request ∈ request? library name vars s, ∃ job ∈ job? library name vars s,
          job.target = (Location.path s.here).join
            ((FilePath.ofText request.targetFolder).child request.projectName) ∧
          ∃ place, Founded job place s.here s.tree ((make library name vars).after s).tree) := by
  rcases ends_make (Ends.run (make library name vars) s) with
    ⟨hreads, hfailed⟩ | ⟨boilerplate, request, t, result, u, horder, hfolder, hperform, hlast⟩
  · rw [hreads.tree, hfailed]
    exact ⟨.refl _, fun h => absurd h (by simp)⟩
  have hreads := follows_order _ _ _ _ _ _ horder
  have hrequest : request? library name vars s = some request := by
    rw [request?, horder.result_eq]
  rw [usesGenerator, hrequest, horder.after_eq, Option.any_some] at hdirect
  have hwell' : t.tree.WellFormed := hreads.tree ▸ hwell
  rcases hlast with ⟨hsame, hfailed⟩ | ⟨hsuccess, outcome, hrecorded⟩
  · have hkept := tree_isKeptBy_perform library _ t hwell' hdirect
    rw [hperform.after_eq, hreads.tree] at hkept
    rw [hsame, hfailed]
    exact ⟨hkept, fun h => absurd h (by simp)⟩
  have hjob : ∀ job, ((Operation.project request).prepare library).result t = .ok (.ok job) →
      job? library name vars s = some job := by
    intro job hprepared
    rw [job?, hrequest, Option.bind_some, horder.after_eq, hprepared]
  obtain ⟨job, place, hprepared, htarget, hadded, hhere, hplace, hfounded⟩ :=
    founded_of_perform hwell' hdirect hsuccess
      (fun job hprepared => hreads.tree ▸ hreads.here ▸ hrises job (hjob job hprepared)) hperform
  obtain ⟨r, v, hrecord, hlooks⟩ := ends_recorded hrecorded
  obtain ⟨htarget, -⟩ := Operation.ends_target_project htarget
  have hdone := Founded.record (hhere ▸ hfounded) hwell' hadded hplace
    (by rw [hhere, ← hfolder]; exact htarget) hrecord
  rw [← hlooks.tree, hhere, hreads.here, hreads.tree] at hdone
  exact ⟨hdone.kept, fun _ =>
    ⟨request, hrequest, job, hjob job hprepared, hreads.here ▸ htarget, place, hdone⟩⟩

namespace Sample

/-- A template with a boilerplate, beside a directory `p` that has a project file but no directory
for projects. -/
def workspace (raw : Text) : Session :=
  .start ⟨[(["t"], .directory), (["t", "w"], .directory), (["p"], .directory),
    (["t", "w", "scaffold.yaml"], Sample.file (("boilerplate:\n  - name: e\n" : Text) ++
      ("    targetFolder: apps\n    variables_schema:\n      properties:\n" : Text) ++
      ("        appName:\n          type: string\n    includes:\n      - " : Text) ++ raw)),
    (["t", "w", "f"], Sample.file "Hi"), (["p", "project.json"], Sample.file "\x7b\x7d")]⟩ ["p"]

def named (app : Text) : Variables := [(appKey, .text app)]

end Sample

/-- A project in a new directory `apps/n`. -/
theorem projects_stay_in_new_directories_workspace :
    let workspace := Sample.workspace "f"
    let later := (make Sample.library "e" (Sample.named "n")).after workspace
    workspace.tree.WellFormed ∧
      usesGenerator Sample.library "e" (Sample.named "n") workspace = false ∧
      succeeds Sample.library "e" (Sample.named "n") workspace = true ∧
      workspace.tree.IsKeptBy later.tree ∧
      ∃ request ∈ request? Sample.library "e" (Sample.named "n") workspace,
        ∃ job ∈ job? Sample.library "e" (Sample.named "n") workspace,
          job.target = (Location.path workspace.here).join
            ((FilePath.ofText request.targetFolder).child request.projectName) ∧
          ∃ place, Founded job place workspace.here workspace.tree later.tree := by
  have hwell : (Sample.workspace "f").tree.WellFormed := by decide +kernel
  obtain ⟨hdirect, hsuccess, htarget⟩ :
      usesGenerator Sample.library "e" (Sample.named "n") (Sample.workspace "f") = false ∧
        succeeds Sample.library "e" (Sample.named "n") (Sample.workspace "f") = true ∧
        ∀ job ∈ job? Sample.library "e" (Sample.named "n") (Sample.workspace "f"),
          job.target.isAbsolute = true ∧ (".." : Text) ∉ job.target.parts := by decide +kernel
  obtain ⟨hkept, hfounded⟩ := projects_stay_in_new_directories Sample.library "e"
    (Sample.named "n") (Sample.workspace "f") hwell hdirect fun job hjob =>
      FilePath.risesIn_of_not_mem (htarget job hjob).1 (htarget job hjob).2
  exact ⟨hwell, hdirect, hsuccess, hkept, hfounded hsuccess⟩

/-- A directive that leads out makes a file beside the new directory.  A project that is named by a
pair of dots lands in the directory above the one for projects, which was there, and the project
file in it is written over. -/
theorem files_outside_the_new_directory :
    let escaping := Sample.workspace "f->../../q"
    let escaped := (make Sample.library "e" (Sample.named "n")).after escaping
    let rising := Sample.workspace "f"
    let risen := (make Sample.library "e" (Sample.named "..")).after rising
    (usesGenerator Sample.library "e" (Sample.named "n") escaping = false ∧
      succeeds Sample.library "e" (Sample.named "n") escaping = true ∧
      (∀ job ∈ job? Sample.library "e" (Sample.named "n") escaping,
        job.target = ⟨.root, ["p", "apps", "n"]⟩) ∧
      (escaping.tree.get? ["p", "q"]).isNone ∧ (escaped.tree.get? ["p", "q"]).isSome) ∧
    usesGenerator Sample.library "e" (Sample.named "..") rising = false ∧
      succeeds Sample.library "e" (Sample.named "..") rising = true ∧
      (rising.tree.get? ["p"]).isSome ∧
      (rising.tree.get? ["p", "f"]).isNone ∧ (risen.tree.get? ["p", "f"]).isSome ∧
      rising.bytesAt? (.ofText "/p/project.json") ≠ risen.bytesAt? (.ofText "/p/project.json") := by
  decide +kernel

end Catalogue

end Stencil
