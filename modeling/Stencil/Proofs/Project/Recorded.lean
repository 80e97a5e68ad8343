import Stencil.Proofs.FileTree.Absolute
import Stencil.Proofs.Project
import Stencil.Proofs.Scaffold.Rendered
import Stencil.Proofs.Session.Fresh

/-!
# Projects with a recorded template

A template that was recorded is the one that the project is found to be made from,
unless the absolute path of the file is too long to be looked at.  The other entries
of the file stay as they were, and so do the other files.
-/

namespace Stencil

open FileTree Session Action

variable {s m s' : Session} {place base root : Location} {folder name template : Text}
  {fields : List (Text × Value)} {r : Except Failure FilePath}

namespace Project

/-! ## Finding the template -/

theorem ends_sourceIn_of_lookup (hlookup : fields.lookup templateKey = some (.text template))
    (htemplate : template ≠ []) :
    (sourceIn projectFile (.map (Entries.ofFields fields))).Ends s
      (.ok (some ⟨template, projectFile⟩)) s := by
  have htrue : (Value.text template).isTrue = true := by
    cases template with
    | nil => exact absurd rfl htemplate
    | cons c template => rfl
  rw [sourceIn, Value.get?, Entries.get?_ofFields, hlookup, Option.filter_some, if_pos htrue]
  exact ends_pure.2 ⟨rfl, rfl⟩

variable {directory : FilePath}

/-- The template in the file of a project is found. -/
theorem ends_source_of_read (hresolved : s.tree.resolved s.here directory.text = .ok root)
    (hfile : (isFile (root.path.child projectFile).text).Ends s (.ok true) s)
    (hread : (DataFiles.readJson (root.path.child projectFile)).Ends s
      (.ok (Entries.ofFields fields)) s)
    (hlookup : fields.lookup templateKey = some (.text template)) (htemplate : template ≠ []) :
    (Project.source directory).Ends s (.ok ⟨template, projectFile⟩) s := by
  have hown : (readOwn root.path).Ends s (.ok (some ⟨template, projectFile⟩)) s := by
    rw [readOwn, hfile.bind_iff, if_pos rfl, Ends.bind_iff (ends_orElseIf.2 (.inl ⟨_, hread, rfl⟩))]
    exact ends_sourceIn_of_lookup hlookup htemplate
  rw [Project.source, Ends.bind_iff (ends_resolve.2 ⟨hresolved.symm, rfl⟩), hown.bind_iff]
  exact ends_pure.2 ⟨rfl, rfl⟩

/-- A file that cannot be told of keeps the template from being found. -/
theorem ends_source_of_unknown {failure : Failure}
    (hresolved : s.tree.resolved s.here directory.text = .ok root)
    (hfile : (isFile (root.path.child projectFile).text).Ends s (.error failure) s) :
    (Project.source directory).Ends s (.error failure) s := by
  have hown : (readOwn root.path).Ends s (.error failure) s :=
    ends_bind.2 (.inr ⟨failure, hfile, rfl⟩)
  rw [Project.source, Ends.bind_iff (ends_resolve.2 ⟨hresolved.symm, rfl⟩)]
  exact ends_bind.2 (.inr ⟨failure, hown, rfl⟩)

theorem child_projectFile (root : Location) :
    root.path.child projectFile = Location.path (root ++ [projectFile]) :=
  FilePath.child_of_isName isName_projectFile _

/-! ## What was recorded -/

/-- A file that is written anew was not there, unless its path rises from a directory that was
just made. -/
theorem Records.isFile_or_fresh (h : Records s folder name template r s' fields m place)
    (hwell : s.tree.WellFormed) (hrises : (directoryOf folder name).RisesIn s.tree s.here) :
    (isFile (recordPath folder name).text).Ends s (.ok true) s ∨ s.tree.get? place = none := by
  have hensured := h.ensured
  have hlocated := h.writes.located
  rw [parent_recordPath] at hensured
  obtain ⟨hwell', hadds⟩ := h.ensures.adds hwell
  rcases look_or_fresh_of_ensureDirectories hwell (isProper_directoryOf folder name) hrises
    hensured with hthere | ⟨base, hfree, hbase⟩
  · -- nothing is made then, and what the path leads to is a file or nothing
    obtain ⟨-, rfl⟩ := (ends_ensureDirectories_of_look hthere).1 hensured
    by_contra hnone
    obtain ⟨hmissing, hsome⟩ := not_or.1 hnone
    obtain ⟨item, hget⟩ := Option.ne_none_iff_exists'.1 hsome
    have hlook := look_eq_ok_iff.2 ⟨place, hlocated, hget⟩
    refine hmissing (ends_passes.2 ⟨(judged_eq_true.2 ⟨item, hlook, ?_⟩).symm, rfl⟩)
    cases item with
    | directory => exact absurd hget h.writes.unblocked
    | file content => rfl
    | link target => exact absurd hlook (look_not_link hwell target)
  · right
    have hproper := isProper_recordPath folder name
    rw [recordPath_eq] at hlocated hproper
    obtain ⟨links, hway⟩ := FilePath.walks_of_below hwell' hproper hbase hlocated
    exact get?_of_fresh hwell hadds hfree
      ⟨isName_projectFile.2.1, isName_projectFile.2.2.1⟩ hway

/-- Every place but that of the file is as it was, or a directory was made there. -/
theorem Records.others (h : Records s folder name template r s' fields m place)
    (hwell : s.tree.WellFormed) {other : Location} (hother : other ≠ place) :
    s'.tree.get? other = s.tree.get? other ∨
      s.tree.get? other = none ∧ s'.tree.get? other = some .directory := by
  obtain ⟨-, hadds⟩ := h.ensures.adds hwell
  rw [h.writes.others other hother]
  cases hget : m.tree.get? other with
  | none => exact .inl (hadds.kept.get?_eq_none hget).symm
  | some item =>
      rcases hadds.added other item hget with hold | ⟨hnone, rfl⟩
      · exact .inl hold.symm
      · exact .inr ⟨hnone, rfl⟩

/-- What is left after the template of a project was recorded: the file of the project holds the
entries with the template, and the template is found from the directory of the project if the
absolute path of the file can be looked at. -/
structure Recorded (s : Session) (folder name template : Text) (fields : List (Text × Value))
    (place root : Location) (s' : Session) : Prop where
  prior : Prior s folder name fields
  located : s'.tree.locate s'.here (recordPath folder name).text true = .ok place
  held : ∃ bytes, Text.encode (fileText (amended template fields)) = .ok bytes ∧
    s'.tree.get? place = some (.file (.bytes bytes))
  read : (DataFiles.readJson (recordPath folder name)).Ends s'
    (.ok (Entries.ofFields (amended template fields))) s'
  others : ∀ other, other ≠ place → s'.tree.get? other = s.tree.get? other ∨
    s.tree.get? other = none ∧ s'.tree.get? other = some .directory
  resolved : s'.tree.resolved s'.here (directoryOf folder name).text = .ok root
  found : (Location.path (root ++ [projectFile])).IsShort →
    (source (directoryOf folder name)).Ends s' (.ok ⟨template, projectFile⟩) s'
  unknown : ¬ (Location.path (root ++ [projectFile])).IsShort →
    (source (directoryOf folder name)).Ends s'
      (.error (.system .longName (Location.path (root ++ [projectFile])).text)) s'

theorem lookup_amended (template : Text) (fields : List (Text × Value)) (key : Text) :
    (amended template fields).lookup key =
      if key = templateKey then some (.text template) else fields.lookup key :=
  Keyed.lookup_put templateKey _ fields key

/-- The template takes the place of an older one, or it goes to the end. -/
theorem map_fst_amended (template : Text) (fields : List (Text × Value)) :
    (templateKey ∈ fields.map (·.1) →
        (amended template fields).map (·.1) = fields.map (·.1)) ∧
      (templateKey ∉ fields.map (·.1) →
        (amended template fields).map (·.1) = fields.map (·.1) ++ [templateKey]) := by
  rw [amended, Keyed.map_fst_put]
  exact ⟨fun h => if_pos h, fun h => if_neg h⟩

/-- What was recorded is found from the directory of the project. -/
theorem recorded_of_locate {bytes : Bytes} (hwell : s'.tree.WellFormed)
    (hprior : Prior s folder name fields) (htemplate : template ≠ [])
    (hlocate : s'.tree.locate s'.here (recordPath folder name).text true = .ok place)
    (hencode : Text.encode (fileText (amended template fields)) = .ok bytes)
    (hget : s'.tree.get? place = some (.file (.bytes bytes)))
    (hothers : ∀ other, other ≠ place → s'.tree.get? other = s.tree.get? other ∨
      s.tree.get? other = none ∧ s'.tree.get? other = some .directory) :
    ∃ root, Recorded s folder name template fields place root s' := by
  have hdata := isData_amended hprior.isData template
  have hproper := isProper_recordPath folder name
  have hbelow := hlocate
  rw [recordPath_eq] at hbelow hproper
  -- the directory of the project is where the absolute path of the file goes on from
  obtain ⟨root, hroot, hdirectory⟩ := look_eq_ok_iff.1
    (FilePath.look_of_below hwell hproper (by simp) hbelow)
  obtain ⟨links, hlinks, hway⟩ := FilePath.exists_walks_of_below hwell hproper hroot hbelow
  have hresolved := resolved_of_locate hwell hroot hdirectory
  refine ⟨root, {
    prior := hprior
    located := hlocate
    held := ⟨bytes, hencode, hget⟩
    read := ends_readJson_of_look hdata hencode (look_eq_ok_iff.2 ⟨place, hlocate, hget⟩)
    others := hothers
    resolved := hresolved
    found := fun hshort => ?_
    unknown := fun hlong => ?_ }⟩
  · have hlook : s'.tree.look s'.here (Location.path (root ++ [projectFile])).text true =
        .ok (.file (.bytes bytes)) :=
      look_eq_ok_iff.2 ⟨place,
        locate_concat hwell hdirectory isName_projectFile hshort hlinks hway, hget⟩
    rw [← child_projectFile] at hlook
    exact ends_source_of_read hresolved
      (ends_passes.2 ⟨(judged_eq_true.2 ⟨_, hlook, rfl⟩).symm, rfl⟩)
      (ends_readJson_of_look hdata hencode hlook) (by rw [lookup_amended, if_pos rfl]) htemplate
  · have hlook : s'.tree.look s'.here (Location.path (root ++ [projectFile])).text true =
        .error (.system .longName (Location.path (root ++ [projectFile])).text) :=
      look_concat_of_long hwell hdirectory isName_projectFile hlong
    rw [← child_projectFile] at hlook ⊢
    refine ends_source_of_unknown hresolved (ends_passes.2 ⟨?_, rfl⟩)
    rw [hlook]
    rfl

/-- A template that was recorded is found, and the file keeps its other entries in order.  What the
file held before is what counts, unless its path rises by a pair of dots from a directory that was
missing. -/
theorem recorded_template_is_found {path : FilePath} (hwell : s.tree.WellFormed)
    (htemplate : template ≠ []) (h : (record folder name template).Ends s (.ok path) s') :
    path = recordPath folder name ∧ ∃ fields place root,
      Recorded s folder name template fields place root s' ∧
      (templateKey ∈ fields.map (·.1) →
        (amended template fields).map (·.1) = fields.map (·.1)) ∧
      (templateKey ∉ fields.map (·.1) →
        (amended template fields).map (·.1) = fields.map (·.1) ++ [templateKey]) ∧
      (∀ key, (amended template fields).lookup key =
        if key = templateKey then some (.text template) else fields.lookup key) ∧
      ((directoryOf folder name).RisesIn s.tree s.here →
        (isFile (recordPath folder name).text).Ends s (.ok true) s ∨ s.tree.get? place = none) := by
  rcases ends_record_or hwell h with ⟨failure, hr, -⟩ | ⟨fields, m, place, hrecords⟩
  · cases hr
  obtain ⟨r, hwriting, hr⟩ := hrecords.writing
  cases hwriting with
  | emptied unencoded stores => cases hr
  | stored encoded stores =>
      cases hr
      obtain ⟨root, hrecorded⟩ := recorded_of_locate stores.well hrecords.prior htemplate
        (stores.locate (hrecords.ensures.adds hwell).1) encoded stores.held
        fun other hother => hrecords.others hwell hother
      obtain ⟨hreplaced, happended⟩ := map_fst_amended template fields
      exact ⟨rfl, fields, place, root, hrecorded, hreplaced, happended,
        lookup_amended template fields, hrecords.isFile_or_fresh hwell⟩

namespace Sample

/-- A project whose file holds a text. -/
def session (text : Text) : Session :=
  .start ⟨[(["n"], .directory), (["n", "project.json"], Scaffold.Sample.file text)]⟩ []

def plain : Session := session "\x7b\"a\": 1\x7d"

theorem wellFormed_plain : plain.tree.WellFormed := by decide +kernel

end Sample

theorem recorded_template_is_found_beside :
    let later := (record "." "n" "t").after Sample.plain
    Sample.plain.tree.WellFormed ∧ ("t" : Text) ≠ [] ∧
      (record "." "n" "t").Ends Sample.plain (.ok (recordPath "." "n")) later ∧
      (source (directoryOf "." "n")).Ends later (.ok ⟨"t", projectFile⟩) later ∧
      later.bytesAt? (recordPath "." "n") =
        some ((fileText (amended "t" [("a", .int 1)])).flatMap CodePoint.utf8) := by
  intro later
  have hend : (record "." "n" "t").Ends Sample.plain (.ok (recordPath "." "n")) later :=
    Ends.of_result (by decide +kernel)
  obtain ⟨-, fields, place, root, hrecorded, -⟩ :=
    recorded_template_is_found Sample.wellFormed_plain (by decide) hend
  obtain rfl : root = [("n" : Text)] := by
    have hroot : (later.tree.resolved later.here (directoryOf "." "n").text).toOption =
      some [("n" : Text)] := by decide +kernel
    rw [hrecorded.resolved] at hroot
    exact Option.some.inj hroot
  exact ⟨Sample.wellFormed_plain, by decide, hend, hrecorded.found ⟨by decide, by decide⟩,
    by decide +kernel⟩

/-- The path of the file leads to nothing as long as a directory on it is missing.  So the file is
taken to be missing, and it is written over once the directory was made. -/
theorem file_behind_missing_is_lost :
    let later := (record "missing/.." "n" "t").after Sample.plain
    Sample.plain.tree.WellFormed ∧
      Sample.plain.bytesAt? (recordPath "." "n") =
        some (("\x7b\"a\": 1\x7d" : Text).flatMap CodePoint.utf8) ∧
      ((record "missing/.." "n" "t").result Sample.plain).toOption =
        some (recordPath "missing/.." "n") ∧
      (later.tree.locate later.here (recordPath "missing/.." "n").text true).toOption =
        (Sample.plain.tree.locate Sample.plain.here (recordPath "." "n").text true).toOption ∧
      later.bytesAt? (recordPath "missing/.." "n") =
        some ((fileText (amended "t" (newFields "missing/.." "n"))).flatMap CodePoint.utf8) := by
  decide +kernel

end Project

end Stencil
