import Stencil.Catalogue.Creation
import Stencil.Proofs.FileTree.Inside
import Stencil.Proofs.Session.DataFiles

/-!
# Recorded templates

The template of a new project is recorded in one file.  The path of that file
starts in the current directory, while the project was made at an absolute path;
both lead to the same directory.  The template is put among the entries of the file,
or among those of a new file.
-/

namespace Stencil

open FileTree Session Action

variable {s m s' : Session} {place : Location} {folder name template : Text}
  {fields : List (Text × Value)}

namespace Project

/-- The file that the template of a project is recorded in. -/
def recordPath (folder name : Text) : FilePath :=
  ((FilePath.ofText folder).child name).child projectFile

/-- The directory of a project. -/
def directoryOf (folder name : Text) : FilePath := (FilePath.ofText folder).child name

theorem isName_projectFile : IsName projectFile := by decide

theorem isProper_directoryOf (folder name : Text) : (directoryOf folder name).IsProper :=
  (FilePath.isProper_ofText folder).child name

theorem recordPath_eq (folder name : Text) :
    recordPath folder name = (directoryOf folder name).below [projectFile] :=
  FilePath.child_of_isName isName_projectFile _

theorem isProper_recordPath (folder name : Text) : (recordPath folder name).IsProper := by
  rw [recordPath_eq]
  exact (isProper_directoryOf folder name).below (Location.isProper_nil.concat isName_projectFile)

theorem parent_recordPath (folder name : Text) :
    (recordPath folder name).parent = directoryOf folder name := by
  rw [recordPath_eq, FilePath.parent_below]

/-! ## Recording -/

/-- The entries of a new project file. -/
def newFields (folder name : Text) : List (Text × Value) :=
  [("name", .text name), ("sourceRoot", .text (folder ++ ("/" : Text) ++ name)),
    ("projectType", .text "application")]

theorem fresh_eq (folder name : Text) :
    fresh folder name = Entries.ofFields (newFields folder name) :=
  rfl

/-- What the file of a project holds before its template is recorded. -/
inductive Prior (s : Session) (folder name : Text) : List (Text × Value) → Prop where
  | held {fields : List (Text × Value)}
      (there : (isFile (recordPath folder name).text).Ends s (.ok true) s)
      (read : (DataFiles.readJson (recordPath folder name)).Ends s
        (.ok (Entries.ofFields fields)) s) : Prior s folder name fields
  | absent (missing : (isFile (recordPath folder name).text).Ends s (.ok false) s) :
      Prior s folder name (newFields folder name)

/-- The entries with the template among them. -/
def amended (template : Text) (fields : List (Text × Value)) : List (Text × Value) :=
  Keyed.put templateKey (.text template) fields

/-- The text of a project file. -/
def fileText (fields : List (Text × Value)) : Text :=
  Json.write (.map (Entries.ofFields fields)) ++ ("\n" : Text)

theorem Prior.isData (h : Prior s folder name fields) :
    Json.IsData (.map (Entries.ofFields fields)) := by
  cases h with
  | held there read =>
      obtain ⟨-, other, heq, hdata⟩ := ends_readJson_ok read
      rwa [heq]
  | absent missing =>
      refine .map _ (by simp [newFields, Text.ofString]) ?_
      simp only [newFields, List.forall_mem_cons]
      exact ⟨.text _, .text _, .text _, List.forall_mem_nil _⟩

theorem isData_amended (h : Json.IsData (.map (Entries.ofFields fields))) (template : Text) :
    Json.IsData (.map (Entries.ofFields (amended template fields))) := by
  obtain ⟨hnodup, hfields⟩ := Json.isData_map_iff.1 h
  refine .map _ (Keyed.nodup_put hnodup) fun field hfield => ?_
  rcases Keyed.eq_or_mem_of_mem_put hfield with rfl | hmem
  · exact .text template
  · exact hfields field hmem

/-- Recording writes the entries with the template to the file. -/
structure Records (s : Session) (folder name template : Text) (r : Except Failure FilePath)
    (s' : Session) (fields : List (Text × Value)) (m : Session) (place : Location) : Prop where
  prior : Prior s folder name fields
  ensured : (ensureDirectories (recordPath folder name).parent).Ends s (.ok ()) m
  ensures : Ensures s m
  writing : ∃ r', m.Writing (recordPath folder name).text (fileText (amended template fields)) place
    r' s' ∧ r = r'.map fun _ => recordPath folder name

/-- The entries with the template are written, or something fails before the file is opened. -/
theorem ends_writeAmended {r : Except Failure FilePath} (hwell : s.tree.WellFormed)
    (hprior : Prior s folder name fields)
    (h : ((DataFiles.writeJson (recordPath folder name)
        (.map (Entries.insert (Entries.ofFields fields) (.text templateKey) (.text template))) >>=
      fun _ => pure (recordPath folder name) : Action FilePath)).Ends s r s') :
    (∃ failure, r = .error failure ∧ Ensures s s') ∨
      ∃ m place, Records s folder name template r s' fields m place := by
  rw [Entries.insert_ofFields] at h
  obtain ⟨r', hwritten, rfl⟩ := ends_bind_pure.1 h
  rcases ends_writeFile_or hwell hwritten with ⟨failure, rfl, hensures⟩ |
    ⟨m, place, hensure, hensures, hwriting⟩
  · exact .inl ⟨failure, rfl, hensures⟩
  · exact .inr ⟨m, place, hprior, hensure, hensures, r', hwriting, rfl⟩

/-- Recording fails before the file is opened, or it writes to the file. -/
theorem ends_record_or {r : Except Failure FilePath} (hwell : s.tree.WellFormed)
    (h : (record folder name template).Ends s r s') :
    (∃ failure, r = .error failure ∧ Ensures s s') ∨
      ∃ fields m place, Records s folder name template r s' fields m place := by
  rcases ends_bind.1 h with ⟨found, m, hfound, hnext⟩ | ⟨failure, hfound, rfl⟩
  case inr => exact .inl ⟨failure, rfl, (ends_passes.1 hfound).2 ▸ discipline_ensures.refl _⟩
  obtain rfl := (ends_passes.1 hfound).2
  cases found with
  | true =>
      rcases ends_bind.1 hnext with ⟨entries, t, hread, hlast⟩ | ⟨failure, hread, rfl⟩
      · obtain ⟨rfl, fields, rfl, -⟩ := ends_readJson_ok hread
        exact (ends_writeAmended hwell (.held hfound hread) hlast).imp_right fun h => ⟨fields, h⟩
      · obtain rfl := follows_readJson _ _ _ _ hread
        exact .inl ⟨failure, rfl, discipline_ensures.refl _⟩
  | false =>
      rw [fresh_eq] at hnext
      exact (ends_writeAmended hwell (.absent hfound) hnext).imp_right fun h => ⟨_, h⟩

theorem Records.exists_stores {r : Except Failure FilePath}
    (h : Records s folder name template r s' fields m place) :
    ∃ content, m.Stores (recordPath folder name).text content place s' := by
  obtain ⟨r', hwriting, -⟩ := h.writing
  exact hwriting.exists_stores

theorem Records.writes {r : Except Failure FilePath}
    (h : Records s folder name template r s' fields m place) :
    m.Writes (recordPath folder name).text place s' := by
  obtain ⟨content, hstores⟩ := h.exists_stores
  exact hstores.toWrites

end Project

end Stencil
