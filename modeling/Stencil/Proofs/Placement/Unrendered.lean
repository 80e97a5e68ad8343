import Stencil.Proofs.Placement.Handled
import Stencil.Proofs.Text.LineEnds
import Stencil.Proofs.Text.Utf8

/-!
# Files that are left unrendered

A text that cannot be rendered is written back like one that can.  It was read
with its line ends unified, so its file keeps its bytes only if there is no
carriage return among them, or if writing fails as well.
-/

namespace Stencil

open FileTree Session

/-- The bytes of a file, unless it is a program. -/
def FileTree.bytes? (tree : FileTree) (place : Location) : Option Bytes :=
  match tree.get? place with
  | some (.file (.bytes bytes)) => some bytes
  | _ => none

theorem FileTree.bytes?_eq_some_iff {tree : FileTree} {place : Location} {bytes : Bytes} :
    tree.bytes? place = some bytes ↔ tree.get? place = some (.file (.bytes bytes)) := by
  unfold bytes?
  split
  · rename_i other hget
    simp [hget]
  · rename_i hnone
    simpa using hnone bytes

namespace Template

theorem content_of_warning {template warning : Text} {vars : Variables}
    (h : (renderOrKeep template vars).warning? = some warning) :
    (renderOrKeep template vars).content = template := by
  unfold renderOrKeep at h ⊢
  split
  · rename_i hrender
    simp [hrender, Rendered.warning?] at h
  · rfl

end Template

namespace Placement

theorem unrendered_inj {path warning other : Text} :
    unrendered path warning = unrendered path other ↔ warning = other := by
  simp [unrendered]

theorem unrendered_ne_skipping {path warning other kind : Text} {failure : Failure} :
    unrendered path warning ≠ skipping kind other failure := by
  intro h
  simp [unrendered, skipping, Text.ofString] at h

variable {s s' : Session} {place : Location} {path warning : Text} {vars : Variables}
  {bytes : Bytes} {warnings : List Text}

theorem mem_unrendered_iff {fallback? : Option Text} :
    unrendered path warning ∈ (fallback?.map (unrendered path)).toList ↔
      fallback? = some warning := by
  cases fallback? <;> simp [unrendered_inj, eq_comm]

theorem HoldsTemplate.exists_decode {file : FilePath} {text : Text}
    (h : HoldsTemplate file (.bytes bytes) text) :
    ∃ source, Text.decode bytes = .ok source ∧ text = Text.unifyLineEnds source := by
  have hread := h.read
  cases hdecode : Text.decode bytes with
  | error error => simp [Action.textOf, hdecode, Except.mapError, Except.map] at hread
  | ok source =>
      simp only [Action.textOf, hdecode, Except.mapError, Except.map, Except.ok.injEq] at hread
      exact ⟨source, rfl, hread.symm⟩

/-- A file that is left unrendered holds its text with unified line ends, or it could not be
written either. -/
theorem unrendered_file_unifies_line_ends (hwell : s.tree.WellFormed)
    (hlocate : s.tree.locate s.here (Storage.plain path) true = .ok place)
    (hbytes : s.tree.bytes? place = some bytes)
    (h : (fillFile path vars).Ends s (.ok warnings) s')
    (hleft : unrendered path warning ∈ warnings) :
    (∀ other, other ≠ place → s'.tree.get? other = s.tree.get? other) ∧
      ∃ later, s'.tree.bytes? place = some later ∧
        ((∃ text, Text.decode bytes = .ok text ∧
            Text.encode (Text.unifyLineEnds text) = .ok later ∧
            warnings = [unrendered path warning] ∧ (later = bytes ↔ Text.returnByte ∉ bytes)) ∨
          ∃ failure, s.Plans .write path failure ∧
            warnings = [unrendered path warning, skipping "file" path failure] ∧ later = bytes) := by
  obtain ⟨ending, later, hhandled, hr, hsets⟩ :=
    Action.ends_fillFile_of_locate hwell hlocate (bytes?_eq_some_iff.1 hbytes) h
  refine ⟨hsets.others, ?_⟩
  cases hhandled with
  | binary _ | plain _ _ =>
      cases hr
      cases hleft
  | unread _ _ _ =>
      cases hr
      exact absurd (List.mem_singleton.1 hleft) unrendered_ne_skipping
  | unencodable _ _ | broken _ _ => cases hr
  | @rendered text written htemplate hencode =>
      cases hr
      have hwarning := mem_unrendered_iff.1 hleft
      obtain ⟨source, hdecode, rfl⟩ := htemplate.exists_decode
      rw [Template.content_of_warning hwarning] at hencode
      obtain ⟨later, hlater, hsame⟩ :=
        Text.exists_encode_unifyLineEnds (Text.encode_of_decode hdecode)
      rw [hencode] at hlater
      cases hlater
      exact ⟨written, bytes?_eq_some_iff.2 hsets.held,
        .inl ⟨source, hdecode, hencode, by simp [hwarning], hsame⟩⟩
  | unwritten htemplate hplans _ =>
      cases hr
      have hwarning := mem_unrendered_iff.1
        ((List.mem_append.1 hleft).resolve_right fun hmem =>
          unrendered_ne_skipping (List.mem_singleton.1 hmem))
      exact ⟨bytes, bytes?_eq_some_iff.2 hsets.held, .inr ⟨_, hplans, by simp [hwarning], rfl⟩⟩

/-! ## Small directories -/

namespace Sample

def file (text : Text) : FileItem := .file (.bytes (text.flatMap CodePoint.utf8))

/-- A directory with items of its own, and what is beside it. -/
def session (items : List (Location × FileItem)) : Session :=
  .start ⟨(["d"], .directory) :: items⟩ []

def directory : Location := ["d"]

def inside : Location := ["d", "a"]

/-- A directory with two items. -/
def pair (first second : FileItem) : Session :=
  session [(["d", "a"], first), (["d", "b"], second)]

/-- A text with a name that is not known, on a line of another system. -/
def unknown : Session := session [(["d", "a"], file "{{ a.b }}\r\n")]

end Sample

theorem unrendered_file_unifies_line_ends_unknown :
    let path : Text := "d/a"
    let later := (fillFile path []).after Sample.unknown
    let warning : Text := "Template rendering error: 'a' is undefined"
    let bytes := ("{{ a.b }}\r\n" : Text).flatMap CodePoint.utf8
    Sample.unknown.tree.WellFormed ∧
      Sample.unknown.tree.locate Sample.unknown.here (Storage.plain path) true = .ok Sample.inside ∧
      Sample.unknown.tree.bytes? Sample.inside = some bytes ∧
      (fillFile path []).Ends Sample.unknown (.ok [unrendered path warning]) later ∧
      (∀ other, other ≠ Sample.inside → later.tree.get? other = Sample.unknown.tree.get? other) ∧
      ∃ more, later.tree.bytes? Sample.inside = some more ∧
        ((∃ text, Text.decode bytes = .ok text ∧
            Text.encode (Text.unifyLineEnds text) = .ok more ∧
            [unrendered path warning] = [unrendered path warning] ∧
            (more = bytes ↔ Text.returnByte ∉ bytes)) ∨
          ∃ failure, Sample.unknown.Plans .write path failure ∧
            [unrendered path warning] = [unrendered path warning, skipping "file" path failure] ∧
            more = bytes) := by
  have hwell : Sample.unknown.tree.WellFormed := by decide +kernel
  have hlocate : (Sample.unknown.tree.locate Sample.unknown.here (Storage.plain "d/a")
      true).toOption = some Sample.inside := by decide +kernel
  have hbytes : Sample.unknown.tree.bytes? Sample.inside =
      some (("{{ a.b }}\r\n" : Text).flatMap CodePoint.utf8) := by decide +kernel
  have hresult : ((fillFile "d/a" []).result Sample.unknown).toOption =
      some [unrendered "d/a" "Template rendering error: 'a' is undefined"] := by decide +kernel
  exact ⟨hwell, Action.eq_ok_of_toOption hlocate, hbytes, Action.Ends.of_result hresult,
    unrendered_file_unifies_line_ends hwell (Action.eq_ok_of_toOption hlocate) hbytes
      (Action.Ends.of_result hresult) List.mem_cons_self⟩

/-- So a file that is reported as left unrendered need not have its old bytes. -/
theorem unrendered_file_loses_returns :
    let later := (fillFile "d/a" []).after Sample.unknown
    Sample.unknown.faults = [] ∧ Sample.unknown.interruptions = [] ∧
      ((fillFile "d/a" []).result Sample.unknown).toOption =
        some [unrendered "d/a" "Template rendering error: 'a' is undefined"] ∧
      Sample.unknown.tree.bytes? Sample.inside =
        some (("{{ a.b }}\r\n" : Text).flatMap CodePoint.utf8) ∧
      later.tree.bytes? Sample.inside = some (("{{ a.b }}\n" : Text).flatMap CodePoint.utf8) := by
  decide +kernel

end Placement

end Stencil
