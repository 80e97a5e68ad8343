import Stencil.Proofs.FileTree.RealPlace

/-!
# Absolute paths of places

The absolute path of a place leads there, unless the path is too long in all or in
one of its parts.  Nothing can be told of it then.
-/

namespace Stencil

open FileTree

/-- A path that can be walked for its length, and for that of its parts. -/
def FilePath.IsShort (path : FilePath) : Prop :=
  path.text.byteLength < longestPath ∧ ∀ part ∈ path.parts, part.byteLength ≤ longestName

namespace FileTree

variable {tree : FileTree} {here place root : Location} {names : List Text} {file : Text}
  {links : Nat}

theorem fault?_path (hproper : place.IsProper) (hplace : place ≠ []) :
    PathText.fault? place.path.text = none := by
  rw [FilePath.text_eq (FilePath.isProper_path hproper) hplace, PathText.fault?_eq_none_iff]
  intro c hc
  rcases List.mem_append.1 hc with hc | hc
  · rw [List.mem_singleton.1 hc]
    decide
  · rcases Text.eq_or_mem_of_mem_joinWith hc with rfl | ⟨part, hpart, hc⟩
    · decide
    · exact PathText.fault?_eq_none_iff.1
        (Option.isNone_iff_eq_none.1 (hproper part hpart).2.2.2.2) c hc

theorem start_path (hproper : place.IsProper) : tree.start here place.path.text = some [] := by
  rw [start, (FilePath.isProper_path hproper).isAbsolute_text]
  rfl

/-- The absolute path of a directory goes on as the ways from that directory do. -/
theorem locate_concat (hwell : tree.WellFormed) (hget : tree.get? root = some .directory)
    (hfile : IsName file) (hshort : (Location.path (root ++ [file])).IsShort)
    (hlinks : links ≤ mostLinks) (hway : Walks tree true links root [file] place) :
    tree.locate here (Location.path (root ++ [file])).text true = .ok place := by
  have hroot := hwell.isProper hget
  have hproper := hroot.concat hfile
  have hne : root ++ [file] ≠ [] := by simp
  have hdown : Walks tree true 0 [] root root :=
    Walks.down hwell (fun name hname => ⟨(hroot name hname).2.1, (hroot name hname).2.2.1,
      hshort.2 name (List.mem_append_left _ hname)⟩) (by simp) hget
  refine locate_eq_ok_iff.2 ⟨⟨fault?_path hproper hne, ?_, hshort.1⟩, [], start_path hproper, ?_⟩
  · rw [FilePath.text_eq (FilePath.isProper_path hproper) hne]
    exact List.cons_ne_nil _ _
  · rw [(FilePath.isProper_path hproper).steps_text hne]
    exact (hdown.append hget (by simp) hway).mono (by omega)

theorem walkNames_longName {jump : Location → List Text → Except Cause Location}
    (hwell : tree.WellFormed) (hnames : ∀ name ∈ names, IsName name)
    (hget : tree.get? (here ++ names.dropLast) = some .directory)
    (hlong : ∃ name ∈ names, longestName < name.byteLength) :
    walkNames tree true jump here names = .error .longName := by
  induction names generalizing here with
  | nil =>
      obtain ⟨name, hname, -⟩ := hlong
      cases hname
  | cons name rest ih =>
      obtain ⟨⟨-, hdot, hup, -⟩, hrest⟩ := List.forall_mem_cons.1 hnames
      rw [walkNames, if_neg hdot, if_neg hup]
      split
      · rfl
      · rename_i hshort
        have hlater : ∃ other ∈ rest, longestName < other.byteLength := by
          obtain ⟨other, hother, hlong⟩ := hlong
          rcases List.mem_cons.1 hother with rfl | hother
          · exact absurd hlong hshort
          · exact ⟨other, hother, hlong⟩
        have hne : rest ≠ [] := by
          rintro rfl
          obtain ⟨other, hother, -⟩ := hlater
          cases hother
        rw [List.dropLast_cons_of_ne_nil hne, show here ++ name :: rest.dropLast =
          here ++ [name] ++ rest.dropLast by simp] at hget
        have hnext : tree.get? (here ++ [name]) = some .directory := by
          by_cases hnil : rest.dropLast = []
          · simpa [hnil] using hget
          · exact hwell.get?_above hnil hget
        simp only [hnext]
        exact ih hrest hget hlater

/-- Nothing can be told of an absolute path that is too long. -/
theorem look_concat_of_long (hwell : tree.WellFormed) (hget : tree.get? root = some .directory)
    (hfile : IsName file) (hlong : ¬ (Location.path (root ++ [file])).IsShort) :
    tree.look here (Location.path (root ++ [file])).text true =
      .error (.system .longName (Location.path (root ++ [file])).text) := by
  have hproper := (hwell.isProper hget).concat hfile
  have hne : root ++ [file] ≠ [] := by simp
  have htext : ¬ (Location.path (root ++ [file])).text.isEmpty = true := by
    rw [List.isEmpty_iff, FilePath.text_eq (FilePath.isProper_path hproper) hne]
    exact List.cons_ne_nil _ _
  refine look_of_locate_error ?_
  rw [locate, fault?_path hproper hne]
  dsimp only
  rw [if_neg htext, start_path hproper]
  split
  · rfl
  · rename_i hbytes
    have hname : ∃ name ∈ root ++ [file], longestName < name.byteLength := by
      by_contra hnone
      push Not at hnone
      exact hlong ⟨Nat.not_le.1 hbytes, hnone⟩
    rw [(FilePath.isProper_path hproper).steps_text hne]
    have hwalk : walk tree true mostLinks [] (root ++ [file]) = .error .longName :=
      walkNames_longName hwell hproper (by simpa using hget) hname
    simp only [show (Location.path (root ++ [file])).parts = root ++ [file] from rfl, hwalk]

end FileTree

end Stencil
