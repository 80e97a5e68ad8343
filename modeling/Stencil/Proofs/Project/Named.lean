import Stencil.Proofs.Project.Recorded

/-!
# Templates that files name

Two files can name the template of a project, and the file of the project goes first.
What is named counts if it is true, and it has to be a text then: any other value is
refused, and that is not told as a failure of the project.
-/

namespace Stencil.Project

open FileTree Session Action

variable {s s' : Session} {path directory : FilePath} {root : Location} {file : Text}
  {named : Value} {failure : Failure}

/-! ## What a file tells -/

abbrev OwnTells (s : Session) (root : Location) : Except Failure (Option Value) → Prop :=
  DataFiles.Tells s (root.path.child projectFile) DataFiles.jsonValue templateKey
    (unread (root.path.child projectFile))

abbrev SharedTells (s : Session) (root : Location) : Except Failure (Option Value) → Prop :=
  DataFiles.Tells s (root.path.child workspaceFile) DataFiles.yamlValue templateKey
    (unread (root.path.child workspaceFile))

/-- The template that a value stands for, which is one only for a text. -/
def spelled (file : Text) (named : Value) : Except Failure Source :=
  match Schema.spelling named with
  | .ok template => .ok ⟨template, file⟩
  | .error fault => .error (.invalid "ProjectConfig" [⟨["source_template"], fault, named⟩])

/-- What a file gives that names a value, or names none. -/
def given (file : Text) : Option Value → Except Failure (Option Source)
  | none => .ok none
  | some named => (spelled file named).map some

theorem ends_sourceIn (file : Text) (value : Value) :
    (sourceIn file value).Ends s
      (given file ((value.get? templateKey).filter Value.isTrue)) s := by
  rw [sourceIn]
  cases (value.get? templateKey).filter Value.isTrue with
  | none => exact ends_pure.2 ⟨rfl, rfl⟩
  | some named =>
      rw [given, spelled]
      dsimp only
      cases Schema.spelling named with
      | ok template => exact ends_pure.2 ⟨rfl, rfl⟩
      | error fault => exact ends_throw.2 ⟨rfl, rfl⟩

/-- Reading the source from one file, however the file is loaded. -/
def readFile {α : Type} (path : FilePath) (file : Text) (isCaught : Failure → Bool)
    (load : Action α) (seen : α → Value) : Action (Option Source) := do
  if ← isFile path.text then
    sourceIn file (seen (← orElseIf isCaught load fun failure => throw (unread path failure)))
  else return none

theorem exists_tells {α : Type} (file : Text) (put : Value → α) (seen : α → Value)
    {isCaught : Failure → Bool} {load : Action α} {parse : Text → Except Failure Value}
    (hload : ∀ content, s.tree.look s.here path.text true = .ok (.file content) →
      load.Ends s ((textOf content >>= parse).map put) s)
    (hcaught : ∀ content failure, textOf content >>= parse = .error failure →
      isCaught failure = true)
    (hseen : ∀ value, (seen (put value)).get? templateKey = value.get? templateKey) :
    ∃ told, DataFiles.Tells s path parse templateKey (unread path) told ∧
      (readFile path file isCaught load seen).Ends s (told >>= given file) s := by
  rcases DataFiles.isFile_cases s path with ⟨failure, hjudged, hfile⟩ | ⟨hjudged, hfile⟩ |
    ⟨content, hlook, hfile⟩
  · exact ⟨_, .unknown hjudged, ends_bind.2 (.inr ⟨failure, hfile, rfl⟩)⟩
  · refine ⟨_, .missing hjudged, ?_⟩
    rw [readFile, hfile.bind_iff]
    exact ends_pure.2 ⟨rfl, rfl⟩
  · have hend := hload content hlook
    cases hholds : textOf content >>= parse with
    | error failure =>
        rw [hholds] at hend
        refine ⟨_, .unreadable hlook hholds, ?_⟩
        rw [readFile, hfile.bind_iff, if_pos rfl]
        have hcatch := hcaught content failure hholds
        exact ends_bind.2 (.inr ⟨_, ends_orElseIf.2 (.inr (.inl
          ⟨failure, s, hend, hcatch, ends_throw.2 ⟨rfl, rfl⟩⟩)), rfl⟩)
    | ok value =>
        rw [hholds] at hend
        refine ⟨_, .held hlook hholds, ?_⟩
        rw [readFile, hfile.bind_iff, if_pos rfl,
          Ends.bind_iff (ends_orElseIf.2 (.inl ⟨_, hend, rfl⟩)), ← hseen]
        exact ends_sourceIn file _

theorem exists_ownTells (s : Session) (root : Location) : ∃ told, OwnTells s root told ∧
    (readOwn root.path).Ends s (told >>= given projectFile) s := by
  refine exists_tells projectFile DataFiles.entriesOf Value.map
    (fun content hlook => DataFiles.ends_readJson hlook) (fun content failure h => ?_)
    fun value => DataFiles.get?_entriesOf value (by decide)
  rw [DataFiles.isOfValue_of_jsonValue h, Bool.or_true]

theorem exists_sharedTells (s : Session) (root : Location) : ∃ told, SharedTells s root told ∧
    (readShared root.path).Ends s (told >>= given workspaceFile) s :=
  exists_tells workspaceFile id id
    (fun content hlook => by
      rw [Except.map_id]
      exact DataFiles.ends_readYaml hlook)
    (fun _ _ _ => rfl) fun _ => rfl

/-- What cannot be told of a file is a failure of the project if the file is there. -/
theorem project_or_of_tells {parse : Text → Except Failure Value}
    (h : DataFiles.Tells s path parse templateKey (unread path) (.error failure)) :
    (∃ message, failure = .project message) ∨
      judged FileItem.isFile (s.tree.look s.here path.text true) = .error failure := by
  cases h with
  | unknown there => exact .inr there
  | unreadable => exact .inl ⟨_, rfl⟩

theorem spelled_eq_ok {found : Source} (h : spelled file named = .ok found) :
    found.file = file ∧ Schema.spelling named = .ok found.template := by
  rw [spelled] at h
  cases hspelling : Schema.spelling named with
  | error fault =>
      rw [hspelling] at h
      cases h
  | ok template =>
      rw [hspelling] at h
      cases h
      exact ⟨rfl, rfl⟩

/-- Only the empty text and no bytes spell the empty text, and both count as false. -/
theorem ne_nil_of_spelling {template : Text} (hnamed : named.isTrue = true)
    (h : Schema.spelling named = .ok template) : template ≠ [] := by
  rintro rfl
  match named with
  | .text text =>
      cases h
      cases hnamed
  | .scalar (.bytes bytes) =>
      rw [Schema.spelling] at h
      cases hdecode : Text.decode bytes with
      | error error =>
          rw [hdecode] at h
          cases h
      | ok text =>
          rw [hdecode] at h
          cases h
          cases Text.encode_of_decode hdecode
          cases hnamed

/-! ## What is found -/

/-- What both files together say: the first one that names a value, or cannot be told, decides. -/
def choice (root : Location) :
    Except Failure (Option Value) → Except Failure (Option Value) → Except Failure Source
  | .error failure, _ => .error failure
  | .ok (some named), _ => spelled projectFile named
  | .ok none, .error failure => .error failure
  | .ok none, .ok (some named) => spelled workspaceFile named
  | .ok none, .ok none => .error (unknown root.path)

/-- How looking for the template of a project ends. -/
inductive Search (s : Session) (directory : FilePath) : Except Failure Source → Prop where
  | lost {failure : Failure} (resolved : s.tree.resolved s.here directory.text = .error failure) :
      Search s directory (.error failure)
  | told {root : Location} {own shared : Except Failure (Option Value)}
      (resolved : s.tree.resolved s.here directory.text = .ok root)
      (own_tells : OwnTells s root own) (shared_tells : SharedTells s root shared) :
      Search s directory (choice root own shared)

theorem Search.unique {r r' : Except Failure Source} (h : Search s directory r)
    (h' : Search s directory r') : r = r' := by
  cases h with
  | lost resolved =>
      cases h' with
      | lost resolved' =>
          cases resolved.symm.trans resolved'
          rfl
      | told resolved' => cases resolved.symm.trans resolved'
  | told resolved own shared =>
      cases h' with
      | lost resolved' => cases resolved.symm.trans resolved'
      | told resolved' own' shared' =>
          cases resolved.symm.trans resolved'
          rw [own.unique own', shared.unique shared']

theorem ends_found {first : Action (Option Source)} {next : Action Source}
    (h : first.Ends s (given file (some named)) s) :
    (first >>= fun found => match found with
      | some source => pure source
      | none => next).Ends s (spelled file named) s := by
  rw [given] at h
  cases hspelled : spelled file named with
  | error failure =>
      rw [hspelled] at h
      exact ends_bind.2 (.inr ⟨failure, h, rfl⟩)
  | ok source =>
      rw [hspelled] at h
      rw [Ends.bind_iff h]
      exact ends_pure.2 ⟨rfl, rfl⟩

theorem exists_search (s : Session) (directory : FilePath) :
    ∃ r, (source directory).Ends s r s ∧ Search s directory r := by
  have hresolve : (resolve directory.text).Ends s (s.tree.resolved s.here directory.text) s :=
    ends_resolve.2 ⟨rfl, rfl⟩
  cases hresolved : s.tree.resolved s.here directory.text with
  | error failure =>
      rw [hresolved] at hresolve
      exact ⟨_, ends_bind.2 (.inr ⟨failure, hresolve, rfl⟩), .lost hresolved⟩
  | ok root =>
      rw [hresolved] at hresolve
      obtain ⟨own, hown, hreadOwn⟩ := exists_ownTells s root
      obtain ⟨shared, hshared, hreadShared⟩ := exists_sharedTells s root
      refine ⟨_, ?_, .told hresolved hown hshared⟩
      simp only [source, hresolve.bind_iff]
      obtain failure | _ | named := own
      case error => exact ends_bind.2 (.inr ⟨failure, hreadOwn, rfl⟩)
      case ok.some => exact ends_found hreadOwn
      -- the file of the project names nothing, and the other file is asked
      have hnone : (readOwn root.path).Ends s (.ok none) s := hreadOwn
      rw [hnone.bind_iff]
      obtain failure | _ | named := shared
      case error => exact ends_bind.2 (.inr ⟨failure, hreadShared, rfl⟩)
      case ok.some => exact ends_found hreadShared
      have hnone : (readShared root.path).Ends s (.ok none) s := hreadShared
      rw [hnone.bind_iff]
      exact ends_throw.2 ⟨rfl, rfl⟩

/-- Whether a file of the project names a value, and none goes before it. -/
def Names (s : Session) (root : Location) (file : Text) (named : Value) : Prop :=
  file = projectFile ∧ OwnTells s root (.ok (some named)) ∨
    file = workspaceFile ∧ OwnTells s root (.ok none) ∧ SharedTells s root (.ok (some named))

/-- The failures that are told as something else than a failure of the project. -/
inductive Escapes (s : Session) (directory : FilePath) : Failure → Prop where
  | lost {failure : Failure} (resolved : s.tree.resolved s.here directory.text = .error failure) :
      Escapes s directory failure
  | unknown {root : Location} {file : Text} {failure : Failure}
      (resolved : s.tree.resolved s.here directory.text = .ok root)
      (file_mem : file ∈ [projectFile, workspaceFile])
      (there : judged FileItem.isFile (s.tree.look s.here (root.path.child file).text true) =
        .error failure) : Escapes s directory failure
  | refused {root : Location} {file : Text} {named : Value} {fault : Mismatch}
      (resolved : s.tree.resolved s.here directory.text = .ok root)
      (names : Names s root file named) (spelling : Schema.spelling named = .error fault) :
      Escapes s directory (.invalid "ProjectConfig" [⟨["source_template"], fault, named⟩])

/-- A file names what is found, or nothing is found. -/
theorem Search.names_or {r : Except Failure Source} (h : Search s directory r) :
    (∃ root file named, s.tree.resolved s.here directory.text = .ok root ∧
        Names s root file named ∧ r = spelled file named) ∨
      ∃ failure, r = .error failure ∧
        ((∃ message, failure = .project message) ∨ Escapes s directory failure) := by
  cases h with
  | lost resolved => exact .inr ⟨_, rfl, .inr (.lost resolved)⟩
  | @told root own shared resolved own_tells shared_tells =>
      obtain failure | _ | named := own
      case error =>
        exact .inr ⟨failure, rfl,
          (project_or_of_tells own_tells).imp_right (.unknown resolved (by simp))⟩
      case ok.some => exact .inl ⟨root, _, named, resolved, .inl ⟨rfl, own_tells⟩, rfl⟩
      obtain failure | _ | named := shared
      case error =>
        exact .inr ⟨failure, rfl,
          (project_or_of_tells shared_tells).imp_right (.unknown resolved (by simp))⟩
      case ok.some =>
        exact .inl ⟨root, _, named, resolved, .inr ⟨rfl, own_tells, shared_tells⟩, rfl⟩
      exact .inr ⟨_, rfl, .inl ⟨_, rfl⟩⟩

theorem Names.isTrue (h : Names s root file named) : named.isTrue = true := by
  rcases h with ⟨-, htells⟩ | ⟨-, -, htells⟩
  · exact htells.isTrue
  · exact htells.isTrue

/-- What a file names is what the search ends with. -/
theorem Names.search (h : Names s root file named)
    (hresolved : s.tree.resolved s.here directory.text = .ok root) :
    Search s directory (spelled file named) := by
  rcases h with ⟨rfl, hown⟩ | ⟨rfl, hown, hshared⟩
  · obtain ⟨shared, hshared, -⟩ := exists_sharedTells s root
    exact .told hresolved hown hshared
  · exact .told hresolved hown hshared

/-- The template of a project is that of the first file that names a value, if it can be spelled;
what else happens is a failure of the project, or it escapes. -/
theorem source_of_named (s : Session) (directory : FilePath) :
    (∀ r s', (source directory).Ends s r s' ↔ s' = s ∧ Search s directory r) ∧
      (∀ root file named, s.tree.resolved s.here directory.text = .ok root →
        Names s root file named → (source directory).Ends s (spelled file named) s) ∧
      (∀ found, Search s directory (.ok found) → found.template ≠ [] ∧
        ∃ root named, s.tree.resolved s.here directory.text = .ok root ∧
          Names s root found.file named ∧ Schema.spelling named = .ok found.template) ∧
      ∀ failure, Search s directory (.error failure) →
        (∃ message, failure = .project message) ∨ Escapes s directory failure := by
  have hends (r : Except Failure Source) (s' : Session) :
      (source directory).Ends s r s' ↔ s' = s ∧ Search s directory r := by
    obtain ⟨r', hend, hsearch⟩ := exists_search s directory
    constructor
    · intro h
      obtain ⟨rfl, rfl⟩ := h.unique hend
      exact ⟨rfl, hsearch⟩
    · rintro ⟨rfl, h⟩
      rwa [h.unique hsearch]
  refine ⟨hends, ?_, ?_, ?_⟩
  · intro root file named hresolved hnames
    exact (hends _ _).2 ⟨rfl, hnames.search hresolved⟩
  · intro found hsearch
    rcases hsearch.names_or with ⟨root, file, named, hresolved, hnames, hspelled⟩ | ⟨_, hfailed, -⟩
    · obtain ⟨rfl, hspelling⟩ := spelled_eq_ok hspelled.symm
      exact ⟨ne_nil_of_spelling hnames.isTrue hspelling, root, named, hresolved, hnames, hspelling⟩
    · cases hfailed
  · intro failure hsearch
    rcases hsearch.names_or with ⟨root, file, named, hresolved, hnames, hspelled⟩ |
      ⟨other, hfailed, htold⟩
    · rw [spelled] at hspelled
      cases hspelling : Schema.spelling named with
      | ok template =>
          rw [hspelling] at hspelled
          cases hspelled
      | error fault =>
          rw [hspelling] at hspelled
          cases hspelled
          exact .inr (.refused hresolved hnames hspelling)
    · cases hfailed
      exact htold

namespace Sample

def entitled (own shared : Text) : Session :=
  .start ⟨[(["n"], .directory), (["n", "project.json"], Scaffold.Sample.file own),
    (["n", "toolkit.yaml"], Scaffold.Sample.file shared)]⟩ []

end Sample

theorem source_of_named_shared :
    let s := Sample.entitled "\x7b\"sourceTemplate\": 0\x7d" "sourceTemplate: t"
    (source (directoryOf "." "n")).Ends s (.ok ⟨"t", workspaceFile⟩) s ∧
      ("t" : Text) ≠ [] := by
  intro s
  have hresult : ((source (directoryOf "." "n")).result s).toOption =
      some ⟨"t", workspaceFile⟩ := by decide +kernel
  obtain ⟨hends, -, hfound, -⟩ := source_of_named s (directoryOf "." "n")
  have hend := Ends.of_result hresult
  obtain ⟨hsame, hsearch⟩ := (hends _ _).1 hend
  rw [hsame] at hend
  exact ⟨hend, (hfound _ hsearch).1⟩

def isRefusal {α : Type} : Except Failure α → Bool
  | .error (.invalid _ _) => true
  | _ => false

/-- A number is refused by the record, which is no failure of the project. -/
theorem named_number_is_no_project_failure :
    let s := Sample.entitled "\x7b\"sourceTemplate\": 1\x7d" "sourceTemplate: t"
    ¬ ((∃ found, (source (directoryOf "." "n")).Ends s (.ok found) s ∧ found.template ≠ []) ∨
      ∃ message, (source (directoryOf "." "n")).Ends s (.error (.project message)) s) := by
  intro s
  have hrefused : isRefusal ((source (directoryOf "." "n")).result s) = true := by decide +kernel
  rintro (⟨found, hend, -⟩ | ⟨message, hend⟩) <;> rw [hend.result_eq] at hrefused <;> cases hrefused

end Stencil.Project
