import Stencil.Session.DataFiles
import Stencil.Proofs.Json.Data
import Stencil.Proofs.Session.Storage
import Stencil.Proofs.Session.Writing

/-!
# Data files

Writing a text stores its bytes in one file, or empties the file if the text cannot
be encoded.  A mapping that was stored as JSON is read back with its entries.
-/

namespace Stencil

open FileTree Session Action

/-- One file is written, and nothing else is done to the files. -/
structure Session.Writes (path : Text) (place : Location) (s s' : Session) : Prop where
  here : s'.here = s.here
  located : s.tree.locate s.here path true = .ok place
  unblocked : s.tree.get? place ≠ some .directory
  written : ∃ content, s'.tree.get? place = some (.file content)
  others : ∀ other, other ≠ place → s'.tree.get? other = s.tree.get? other

/-- One file holds a content after a path was written to, and nothing else is done. -/
structure Session.Stores (path : Text) (content : Content) (place : Location) (s s' : Session) :
    Prop extends s.Writes path place s' where
  well : s'.tree.WellFormed
  held : s'.tree.get? place = some (.file content)

variable {s m s' : Session} {place : Location} {path : FilePath} {text : Text} {content : Content}

namespace Session

/-- An item is written over by a file only if it is a file itself. -/
theorem Writes.isExtendedBy {path : Text} (h : s.Writes path place s')
    (hlink : ∀ target, s.tree.get? place ≠ some (.link target)) :
    s.tree.IsExtendedBy s'.tree := by
  intro other item hget
  by_cases hother : other = place
  · subst hother
    obtain ⟨content, hwritten⟩ := h.written
    refine ⟨_, hwritten, ?_⟩
    cases item with
    | directory => exact absurd hget h.unblocked
    | file old => rfl
    | link target => exact absurd hget (hlink target)
  · exact ⟨item, (h.others other hother).trans hget, rfl⟩

theorem stores_put (hwell : s.tree.WellFormed)
    (hlocate : s.tree.locate s.here path.text true = .ok place)
    (hget : s.tree.get? place ≠ some .directory) (content : Content) :
    s.Stores path.text content place { s with tree := s.tree.put place (.file content) } := by
  have hplace : place ≠ [] := by
    rintro rfl
    exact hget rfl
  have hput (other : Location) : (s.tree.put place (.file content)).get? other =
      if other = place then some (.file content) else s.tree.get? other := get?_put hplace other
  exact {
    here := rfl
    located := hlocate
    unblocked := hget
    written := ⟨content, by simp [hput]⟩
    others := fun other hother => by simp [hput, hother]
    well := hwell.put (hasRoom_of_locate hwell hlocate hplace) (fun h => absurd h hget) rfl
    held := by simp [hput] }

theorem Stores.sets {old : Content} {called : Text} (h : s.Stores called old place m)
    (h' : m.Sets place content s') : s.Stores called content place s' where
  here := h'.here.trans h.here
  located := h.located
  unblocked := h.unblocked
  written := ⟨content, h'.held⟩
  others other hother := (h'.others other hother).trans (h.others other hother)
  well := h'.well h.well
  held := h'.held

/-- The path of a file that was written leads to it. -/
theorem Writes.locate {called : Text} (h : s.Writes called place s') (hwell : s.tree.WellFormed) :
    s'.tree.locate s'.here called true = .ok place := by
  have hextended := h.isExtendedBy fun target hget =>
    look_not_link hwell target (look_eq_ok_iff.2 ⟨place, h.located, hget⟩)
  obtain ⟨content, hwritten⟩ := h.written
  rw [h.here]
  exact locate_extend hextended h.located (by simp [hwritten])

/-- How writing a text ends once the file is open. -/
inductive Writing (s : Session) (called text : Text) (place : Location) :
    Except Failure Unit → Session → Prop where
  | stored {bytes : Bytes} {s' : Session} (encoded : Text.encode text = .ok bytes)
      (stores : s.Stores called (.bytes bytes) place s') : Writing s called text place (.ok ()) s'
  | emptied {error : EncodeError} {s' : Session} (unencoded : Text.encode text = .error error)
      (stores : s.Stores called (.bytes []) place s') :
      Writing s called text place (.error (.unencodable error)) s'

theorem Writing.exists_stores {called : Text} {r : Except Failure Unit}
    (h : s.Writing called text place r s') : ∃ content, s.Stores called content place s' := by
  cases h with
  | stored encoded stores => exact ⟨_, stores⟩
  | emptied unencoded stores => exact ⟨_, stores⟩

end Session

namespace Action

theorem ends_writeText_or {r : Except Failure Unit} (hwell : s.tree.WellFormed)
    (h : (writeText (FilePath.text path) text).Ends s r s') :
    (∃ failure, r = .error failure ∧ s' = s) ∨ ∃ place, s.Writing path.text text place r s' := by
  rcases ends_bind.1 h with ⟨place, m, hopen, hnext⟩ | ⟨failure, hopen, rfl⟩
  case inr => exact .inl ⟨failure, rfl, (ends_openForWriting hopen).1⟩
  obtain ⟨rfl, hopened⟩ := ends_openForWriting hopen
  obtain ⟨hlocate, hget⟩ := (hopened place).1 rfl
  have hemptied := stores_put hwell hlocate hget (.bytes [])
  rw [(ends_putContent.2 ⟨rfl, rfl⟩).bind_iff] at hnext
  refine .inr ⟨place, ?_⟩
  rcases ends_bind.1 hnext with ⟨bytes, t, hlift, hput⟩ | ⟨other, hlift, rfl⟩
  · obtain ⟨hencode, rfl⟩ := ends_lift_mapError_ok.1 hlift
    obtain ⟨rfl, rfl⟩ := ends_putContent.1 hput
    exact .stored hencode (hemptied.sets (sets_put hemptied.well hemptied.held _))
  · obtain ⟨⟨error, hencode, rfl⟩, rfl⟩ := ends_lift_mapError_error.1 hlift
    exact .emptied hencode hemptied

/-- The directories above the file are made, and then the file is written, or something failed
before it was opened. -/
theorem ends_writeFile_or {r : Except Failure Unit} (hwell : s.tree.WellFormed)
    (h : (writeFile path text).Ends s r s') :
    (∃ failure, r = .error failure ∧ Ensures s s') ∨
      ∃ m place, (ensureDirectories path.parent).Ends s (.ok ()) m ∧ Ensures s m ∧
        m.Writing path.text text place r s' := by
  rcases ends_bind.1 h with ⟨_, m, hensure, hwrite⟩ | ⟨failure, hensure, rfl⟩
  · have hensures := follows_ensureDirectories _ _ _ _ hensure
    rcases ends_writeText_or (hensures.adds hwell).1 hwrite with
      ⟨failure, rfl, rfl⟩ | ⟨place, hwriting⟩
    · exact .inl ⟨failure, rfl, hensures⟩
    · exact .inr ⟨m, place, hensure, hensures, hwriting⟩
  · exact .inl ⟨failure, rfl, follows_ensureDirectories _ _ _ _ hensure⟩

/-! ## JSON files -/

theorem follows_readJson (path : FilePath) : (DataFiles.readJson path).Follows Eq := by
  refine discipline_eq.bind (follows_readText _) fun text => ?_
  refine discipline_eq.bind (discipline_eq.lift _) fun value => ?_
  split <;> exact discipline_eq.pure _

/-- Reading a JSON file gives entries of data, and leaves everything as it is. -/
theorem ends_readJson_ok {entries : List (Scalar × Value)}
    (h : (DataFiles.readJson path).Ends s (.ok entries) s') :
    s' = s ∧ ∃ fields, entries = Entries.ofFields fields ∧
      Json.IsData (.map (Entries.ofFields fields)) := by
  refine ⟨(follows_readJson _ _ _ _ h).symm, ?_⟩
  obtain ⟨text, m, -, hnext⟩ := ends_bind_ok.1 h
  obtain ⟨value, t, hlift, hlast⟩ := ends_bind_ok.1 hnext
  obtain ⟨hread, -⟩ := ends_lift_mapError_ok.1 hlift
  have hdata := Json.isData_of_read hread
  split at hlast
  · cases (ends_pure.1 hlast).1
    cases hdata with
    | map fields hnodup hfields => exact ⟨fields, rfl, .map fields hnodup hfields⟩
  · cases (ends_pure.1 hlast).1
    exact ⟨[(DataFiles.rootKey, value)], rfl, .map _ (by simp) (by simpa using hdata)⟩

end Action

namespace DataFiles

/-- What a JSON file that holds a value is read as. -/
def entriesOf : Value → List (Scalar × Value)
  | .map entries => entries
  | other => [(.text rootKey, other)]

/-- A value that is no mapping has no entries of its own. -/
theorem get?_entriesOf (value : Value) {key : Text} (hkey : key ≠ rootKey) :
    (Value.map (entriesOf value)).get? key = value.get? key := by
  cases value with
  | map entries => rfl
  | _ => simp [entriesOf, Value.get?, Entries.get?, Entries.equals_text, hkey.symm]

/-! ## What a file is read as -/

def jsonValue (text : Text) : Except Failure Value := (Json.read text).mapError .json

def yamlValue (text : Text) : Except Failure Value := (Yaml.read text).mapError .yaml

theorem ends_readText_of_look (hlook : s.tree.look s.here path.text true = .ok (.file content)) :
    (readText path.text).Ends s (textOf content) s := by
  have hrun := Ends.run (readText path.text) s
  obtain ⟨htext, hsame⟩ := ends_readText hlook hrun
  rwa [htext, hsame] at hrun

theorem ends_readJson (hlook : s.tree.look s.here path.text true = .ok (.file content)) :
    (readJson path).Ends s ((textOf content >>= jsonValue).map entriesOf) s := by
  have hread := ends_readText_of_look hlook
  cases htext : textOf content with
  | error failure =>
      rw [htext] at hread
      exact ends_bind.2 (.inr ⟨failure, hread, rfl⟩)
  | ok text =>
      rw [htext] at hread
      rw [readJson, hread.bind_iff]
      change Ends _ s ((jsonValue text).map entriesOf) s
      have hvalue : (lift ((Json.read text).mapError .json)).Ends s (jsonValue text) s :=
        ends_lift.2 ⟨rfl, rfl⟩
      cases hjson : jsonValue text with
      | error failure =>
          rw [hjson] at hvalue
          exact ends_bind.2 (.inr ⟨failure, hvalue, rfl⟩)
      | ok value =>
          rw [hjson] at hvalue
          rw [hvalue.bind_iff]
          cases value <;> exact ends_pure.2 ⟨rfl, rfl⟩

theorem ends_readYaml (hlook : s.tree.look s.here path.text true = .ok (.file content)) :
    (readYaml path).Ends s (textOf content >>= yamlValue) s := by
  have hread := ends_readText_of_look hlook
  cases htext : textOf content with
  | error failure =>
      rw [htext] at hread
      exact ends_bind.2 (.inr ⟨failure, hread, rfl⟩)
  | ok text =>
      rw [htext] at hread
      rw [readYaml, hread.bind_iff]
      exact ends_lift.2 ⟨rfl, rfl⟩

/-- What keeps the value of a JSON file from being told. -/
theorem isOfValue_of_jsonValue {failure : Failure}
    (h : textOf content >>= jsonValue = .error failure) : failure.isOfValue = true := by
  cases htext : textOf content with
  | error other =>
      rw [htext] at h
      obtain rfl : other = failure := Except.error.inj h
      cases content with
      | program program => cases htext
      | bytes bytes =>
          rw [textOf] at htext
          cases hdecode : Text.decode bytes with
          | error error =>
              rw [hdecode] at htext
              cases htext
              rfl
          | ok text =>
              rw [hdecode] at htext
              cases htext
  | ok text =>
      rw [htext] at h
      change (Json.read text).mapError .json = .error failure at h
      cases hread : Json.read text with
      | error error =>
          rw [hread] at h
          cases h
          rfl
      | ok value =>
          rw [hread] at h
          cases h

/-! ## What a file tells of a key -/

/-- What a file tells of a key: the value of it, if the file is there and that value counts as
true.  What keeps the file from being read is told in other words. -/
inductive Tells (s : Session) (path : FilePath) (parse : Text → Except Failure Value) (key : Text)
    (reword : Failure → Failure) : Except Failure (Option Value) → Prop where
  | missing (there : judged FileItem.isFile (s.tree.look s.here path.text true) = .ok false) :
      Tells s path parse key reword (.ok none)
  | unknown {failure : Failure}
      (there : judged FileItem.isFile (s.tree.look s.here path.text true) = .error failure) :
      Tells s path parse key reword (.error failure)
  | unreadable {content : Content} {failure : Failure}
      (there : s.tree.look s.here path.text true = .ok (.file content))
      (fails : textOf content >>= parse = .error failure) :
      Tells s path parse key reword (.error (reword failure))
  | held {content : Content} {value : Value}
      (there : s.tree.look s.here path.text true = .ok (.file content))
      (holds : textOf content >>= parse = .ok value) :
      Tells s path parse key reword (.ok ((value.get? key).filter Value.isTrue))

section Tells

variable {parse : Text → Except Failure Value} {key : Text} {reword : Failure → Failure}
  {told told' : Except Failure (Option Value)}

theorem Tells.unique (h : Tells s path parse key reword told)
    (h' : Tells s path parse key reword told') : told = told' := by
  cases h <;> cases h' <;> simp_all [judged, FileItem.isFile]

theorem Tells.isTrue {value : Value} (h : Tells s path parse key reword (.ok (some value))) :
    value.isTrue = true := by
  generalize htold : Except.ok (some value) = told at h
  cases h with
  | missing => cases htold
  | unknown => cases htold
  | unreadable => cases htold
  | held => exact (Option.filter_eq_some_iff.1 (Except.ok.inj htold).symm).2

/-- A file is there, or there is none, or that cannot be told. -/
theorem isFile_cases (s : Session) (path : FilePath) :
    (∃ failure, judged FileItem.isFile (s.tree.look s.here path.text true) = .error failure ∧
        (isFile path.text).Ends s (.error failure) s) ∨
      judged FileItem.isFile (s.tree.look s.here path.text true) = .ok false ∧
        (isFile path.text).Ends s (.ok false) s ∨
      ∃ content, s.tree.look s.here path.text true = .ok (.file content) ∧
        (isFile path.text).Ends s (.ok true) s := by
  have hend : (isFile path.text).Ends s
      (judged FileItem.isFile (s.tree.look s.here path.text true)) s := ends_passes.2 ⟨rfl, rfl⟩
  cases hjudged : judged FileItem.isFile (s.tree.look s.here path.text true) with
  | error failure => exact .inl ⟨failure, rfl, hjudged ▸ hend⟩
  | ok there =>
      rw [hjudged] at hend
      cases there with
      | false => exact .inr (.inl ⟨rfl, hend⟩)
      | true =>
          obtain ⟨item, hlook, hitem⟩ := judged_eq_true.1 hjudged
          cases item with
          | file content => exact .inr (.inr ⟨content, hlook, hend⟩)
          | directory => cases hitem
          | link target => cases hitem

end Tells

/-- A value of data that is stored is read again. -/
theorem ends_readJson_of_stored {value : Value} {bytes : Bytes} (hdata : Json.IsData value)
    (hencode : Text.encode (Json.write value ++ ("\n" : Text)) = .ok bytes)
    (hlook : s.tree.look s.here path.text true = .ok (.file (.bytes bytes))) :
    (readJson path).Ends s (.ok (entriesOf value)) s := by
  have hread := ends_readJson hlook
  have htext : textOf (.bytes bytes) = .ok (Json.write value ++ ("\n" : Text)) := by
    rw [textOf, Text.decode_of_encode hencode, Except.mapError, Except.map,
      Text.unifyLineEnds_eq_self_iff.2 (Json.carriageReturn_not_mem_write hdata)]
  have hvalue : jsonValue (Json.write value ++ ("\n" : Text)) = .ok value := by
    rw [jsonValue, Json.read_write hdata, Except.mapError]
  rw [htext] at hread
  change Ends _ s ((jsonValue _).map entriesOf) s at hread
  rwa [hvalue] at hread

end DataFiles

/-- A mapping of data that is stored is read with its entries. -/
theorem Action.ends_readJson_of_look {fields : List (Text × Value)} {bytes : Bytes}
    (hdata : Json.IsData (.map (Entries.ofFields fields)))
    (hencode : Text.encode (Json.write (.map (Entries.ofFields fields)) ++ ("\n" : Text)) =
      .ok bytes)
    (hlook : s.tree.look s.here path.text true = .ok (.file (.bytes bytes))) :
    (DataFiles.readJson path).Ends s (.ok (Entries.ofFields fields)) s :=
  DataFiles.ends_readJson_of_stored hdata hencode hlook

end Stencil
