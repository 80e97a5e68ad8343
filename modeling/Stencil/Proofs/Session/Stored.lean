import Stencil.Proofs.Session.DataFiles

/-!
# Data that is stored and read again

A value of data that is written to a file as JSON is read from the file again, with
its entries in their order and whatever its texts hold.  It is written whenever the
file can be opened, so nothing in the value keeps it from being stored.
-/

namespace Stencil

open FileTree Session Action

variable {s s' : Session} {value : Value} {path : FilePath} {text : Text} {bytes : Bytes}

namespace Json

/-- No text in the value holds one half of a surrogate pair on its own. -/
def IsPlain (value : Value) : Prop := ∀ c, Contains c value → c.isSurrogate = false

theorem isPlain_scalar {scalar : Scalar} (h : ∀ text, scalar ≠ .text text) :
    IsPlain (.scalar scalar) := by
  rintro c ⟨⟩
  exact absurd rfl (h _)

theorem isPlain_text (h : ∀ c ∈ text, c.isSurrogate = false) : IsPlain (.text text) := by
  intro c hcontains
  cases hcontains with
  | text hc => exact h c hc

theorem isPlain_list {items : List Value} (h : ∀ item ∈ items, IsPlain item) :
    IsPlain (.list items) := by
  intro c hcontains
  cases hcontains with
  | item hitem hc => exact h _ hitem c hc

theorem isPlain_map {fields : List (Text × Value)}
    (h : ∀ field ∈ fields, (∀ c ∈ field.1, c.isSurrogate = false) ∧ IsPlain field.2) :
    IsPlain (.map (Entries.ofFields fields)) := by
  intro c hcontains
  obtain ⟨field, hfield, hc⟩ := contains_map_iff.1 hcontains
  exact hc.elim ((h field hfield).1 c) ((h field hfield).2 c)

end Json

namespace DataFiles

/-- What writing a file starts with, whatever is written to it. -/
def opening (path : FilePath) : Action Location := do
  ensureDirectories path.parent
  openForWriting path.text

def storeAndRead (path : FilePath) (value : Value) : Action (List (Scalar × Value)) := do
  writeJson path value
  readJson path

theorem writeFile_eq (path : FilePath) (text : Text) :
    writeFile path text = (opening path >>= fun place => do
      putContent place (.bytes [])
      putContent place (.bytes (← lift ((Text.encode text).mapError .unencodable)))) := by
  simp only [writeFile, opening, writeText, bind_assoc]

/-- A text that can be encoded is stored, unless the file cannot be opened. -/
theorem ends_writeFile_of_encode {r : Except Failure Unit} (hwell : s.tree.WellFormed)
    (hencode : Text.encode text = .ok bytes) (h : (writeFile path text).Ends s r s') :
    (∃ failure, r = .error failure ∧ (opening path).Ends s (.error failure) s') ∨
      ∃ place m, (opening path).Ends s (.ok place) m ∧ r = .ok () ∧
        m.tree.WellFormed ∧ m.Stores path.text (.bytes bytes) place s' := by
  rw [writeFile_eq] at h
  rcases ends_bind.1 h with ⟨place, m, hopening, hnext⟩ | ⟨failure, hopening, rfl⟩
  case inr => exact .inl ⟨failure, rfl, hopening⟩
  obtain ⟨_, t, hensure, hopen⟩ := ends_bind_ok.1 hopening
  obtain ⟨rfl, hopened⟩ := ends_openForWriting hopen
  obtain ⟨hlocate, hget⟩ := (hopened place).1 rfl
  have hwell' := ((follows_ensureDirectories _ _ _ _ hensure).adds hwell).1
  have hemptied := stores_put hwell' hlocate hget (.bytes [])
  rw [(ends_putContent.2 ⟨rfl, rfl⟩).bind_iff, hencode, Except.mapError,
    Ends.bind_iff (ends_lift.2 ⟨rfl, rfl⟩)] at hnext
  obtain ⟨rfl, rfl⟩ := ends_putContent.1 hnext
  exact .inr ⟨place, _, hopening, rfl, hwell',
    hemptied.sets (sets_put hemptied.well hemptied.held _)⟩

/-- A value that is written to a file is read from it again, or the file cannot be opened. -/
theorem written_json_is_read (hwell : s.tree.WellFormed) (hdata : Json.IsData value)
    (hplain : Json.IsPlain value) (path : FilePath) :
    (∃ place m s', (opening path).Ends s (.ok place) m ∧
        (storeAndRead path value).Ends s (.ok (entriesOf value)) s' ∧
        s'.tree.get? place = some (.file (.bytes
          ((Json.write value ++ ("\n" : Text)).flatMap CodePoint.utf8)))) ∨
      ∃ failure s', (opening path).Ends s (.error failure) s' ∧
        (storeAndRead path value).Ends s (.error failure) s' := by
  obtain ⟨bytes, hencode⟩ :
      ∃ bytes, Text.encode (Json.write value ++ ("\n" : Text)) = .ok bytes := by
    cases hencode : Text.encode (Json.write value ++ ("\n" : Text)) with
    | ok bytes => exact ⟨bytes, rfl⟩
    | error error =>
        obtain ⟨c, hsurrogate, hcontains⟩ := Json.exists_surrogate_of_encode hdata hencode
        rw [hplain c hcontains] at hsurrogate
        cases hsurrogate
  have hwrite := Ends.run (writeJson path value) s
  rcases ends_writeFile_of_encode hwell hencode hwrite with ⟨failure, hr, hopening⟩ |
    ⟨place, m, hopening, hr, hwell', hstores⟩
  · rw [hr] at hwrite
    exact .inr ⟨failure, _, hopening, ends_bind.2 (.inr ⟨failure, hwrite, rfl⟩)⟩
  · rw [hr] at hwrite
    have hlook := look_eq_ok_iff.2 ⟨place, hstores.locate hwell', hstores.held⟩
    refine .inl ⟨place, m, _, hopening,
      hwrite.bind (ends_readJson_of_stored hdata hencode hlook), ?_⟩
    rw [hstores.held, (Text.encode_eq_ok_iff.1 hencode).2]

namespace Sample

/-- What a file could break: line ends, quotes, letters of every width and empty parts. -/
def inner : List (Text × Value) :=
  [("b\r", .text "\r\n\u2028\"\\\t\x00/é😀"), ("a", .map (Entries.ofFields []))]

def fields : List (Text × Value) :=
  [("z\u2029\"", .list [.null, .bool true, .int (-7), .float .zero, .list []]),
    ("", .map (Entries.ofFields inner))]

theorem isData_fields : Json.IsData (.map (Entries.ofFields fields)) := by
  refine Json.isData_map_iff.2 ⟨by decide, ?_⟩
  simp only [fields, inner, List.forall_mem_cons]
  refine ⟨.list _ ?_, Json.isData_map_iff.2 ⟨by decide, ?_⟩, by simp⟩
  · simp only [List.forall_mem_cons]
    exact ⟨.null, .bool true, .int (-7) (by decide), .float .zero (by decide +kernel),
      .list [] (by simp), by simp⟩
  · simp only [List.forall_mem_cons]
    exact ⟨.text _, .map [] (by simp) (by simp), by simp⟩

theorem isPlain_fields : Json.IsPlain (.map (Entries.ofFields fields)) := by
  refine Json.isPlain_map ?_
  simp only [fields, inner, List.forall_mem_cons]
  refine ⟨⟨by decide, Json.isPlain_list ?_⟩, ⟨by decide, Json.isPlain_map ?_⟩, by simp⟩
  · simp only [List.forall_mem_cons]
    exact ⟨Json.isPlain_scalar nofun, Json.isPlain_scalar nofun, Json.isPlain_scalar nofun,
      Json.isPlain_scalar nofun, Json.isPlain_list (by simp), by simp⟩
  · simp only [List.forall_mem_cons]
    exact ⟨⟨by decide, Json.isPlain_text (by decide)⟩, ⟨by decide, Json.isPlain_map (by simp)⟩,
      by simp⟩

end Sample

theorem written_json_is_read_nested :
    let s : Session := .start ⟨[]⟩ []
    let value : Value := .map (Entries.ofFields Sample.fields)
    let later := (storeAndRead (.ofText "d/f") value).after s
    s.tree.WellFormed ∧ Json.IsData value ∧ Json.IsPlain value ∧
      (storeAndRead (.ofText "d/f") value).Ends s (.ok (Entries.ofFields Sample.fields)) later ∧
      later.tree.get? ["d", "f"] = some (.file (.bytes
        ((Json.write value ++ ("\n" : Text)).flatMap CodePoint.utf8))) := by
  intro s value later
  have hwell : s.tree.WellFormed := by decide +kernel
  have hopening : (opening (.ofText "d/f")).Ends s (.ok ["d", "f"])
      ((opening (.ofText "d/f")).after s) := Ends.of_result (by decide +kernel)
  refine ⟨hwell, Sample.isData_fields, Sample.isPlain_fields, ?_⟩
  rcases written_json_is_read hwell Sample.isData_fields Sample.isPlain_fields (.ofText "d/f") with
    ⟨place, m, s', hopens, hend, hheld⟩ | ⟨failure, s', hfails, -⟩
  · obtain ⟨hplace, -⟩ := hopens.unique hopening
    obtain rfl := Except.ok.inj hplace
    obtain rfl : later = s' := hend.after_eq
    exact ⟨hend, hheld⟩
  · cases (hfails.unique hopening).1

end DataFiles

end Stencil
