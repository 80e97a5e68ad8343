import Stencil.Proofs.FileTree.Locate

/-!
# Trees of one shape

Two trees have one shape if they differ in nothing but what their files hold.
Every path leads to the same place in both, or fails in the same way.
-/

namespace Stencil.FileTree

def SameShape (tree later : FileTree) : Prop :=
  ∀ place, (later.get? place).map FileItem.outline = (tree.get? place).map FileItem.outline

variable {tree later latest : FileTree} {followLast : Bool} {here place : Location}
  {path : Text} {names : List Text} {content : Content} {item : FileItem} {failure : Failure}

namespace SameShape

theorem refl (tree : FileTree) : tree.SameShape tree := fun _ => rfl

theorem symm (h : tree.SameShape later) : later.SameShape tree := fun place => (h place).symm

theorem trans (h : tree.SameShape later) (h' : later.SameShape latest) : tree.SameShape latest :=
  fun place => (h' place).trans (h place)

/-- What a file holds is no part of the shape. -/
theorem of_written (hold : tree.get? place = some (.file content)) {more : Content}
    (hwritten : later.get? place = some (.file more))
    (hothers : ∀ other, other ≠ place → later.get? other = tree.get? other) :
    tree.SameShape later := by
  intro other
  by_cases hother : other = place
  · subst hother
    simp [hold, hwritten, FileItem.outline]
  · rw [hothers other hother]

theorem isExtendedBy (h : tree.SameShape later) : tree.IsExtendedBy later := by
  intro place item hget
  have houtline := h place
  rw [hget, Option.map_some, Option.map_eq_some_iff] at houtline
  exact houtline

theorem isSome_eq (h : tree.SameShape later) (place : Location) :
    (later.get? place).isSome = (tree.get? place).isSome := by
  have houtline := congrArg Option.isSome (h place)
  rwa [Option.isSome_map, Option.isSome_map] at houtline

/-- What is no file is the same in both trees. -/
theorem get?_eq (h : tree.SameShape later)
    (hfile : ∀ content, tree.get? place ≠ some (.file content)) :
    later.get? place = tree.get? place := by
  have houtline := h place
  cases hget : tree.get? place with
  | none => simpa [hget] using houtline
  | some item =>
      obtain ⟨other, hother, heq⟩ := h.isExtendedBy _ _ hget
      rw [hother]
      cases item with
      | directory => rw [FileItem.outline_eq_directory.1 heq]
      | file content => exact absurd hget (hfile content)
      | link target => rw [FileItem.outline_eq_link.1 heq]

/-! ## Paths in both trees -/

theorem walkNames_eq (h : tree.SameShape later)
    (jump : Location → List Text → Except Cause Location) :
    later.walkNames followLast jump here names = tree.walkNames followLast jump here names := by
  induction names generalizing here with
  | nil => rfl
  | cons name rest ih =>
      rw [walkNames, walkNames, ih, ih]
      dsimp only
      rw [ih]
      have houtline := h (here ++ [name])
      cases hget : tree.get? (here ++ [name]) with
      | none =>
          rw [hget, Option.map_none, Option.map_eq_none_iff] at houtline
          rw [houtline]
      | some item =>
          obtain ⟨other, hother, heq⟩ := h.isExtendedBy _ _ hget
          rw [hother]
          cases item with
          | directory => rw [FileItem.outline_eq_directory.1 heq]
          | file content =>
              obtain ⟨more, rfl⟩ := FileItem.outline_eq_file.1 heq
              rfl
          | link target => rw [FileItem.outline_eq_link.1 heq]

theorem walk_eq (h : tree.SameShape later) (links : Nat) :
    later.walk followLast links = tree.walk followLast links := by
  induction links with
  | zero =>
      funext here names
      exact h.walkNames_eq _
  | succ links ih =>
      funext here names
      rw [walk, walk, ih, h.walkNames_eq]

theorem start_eq (h : tree.SameShape later) : later.start here path = tree.start here path := by
  have hhere : (later.get? here).any FileItem.isDirectory =
      (tree.get? here).any FileItem.isDirectory := by
    rw [Bool.eq_iff_iff, any_isDirectory_iff, any_isDirectory_iff]
    exact ⟨h.symm.isExtendedBy.directory, h.isExtendedBy.directory⟩
  rw [start, start, hhere]

theorem locate_eq (h : tree.SameShape later) :
    later.locate here path followLast = tree.locate here path followLast := by
  rw [locate, locate, h.start_eq, h.walk_eq]

theorem look_directory (h : tree.SameShape later)
    (hlook : tree.look here path followLast = .ok .directory) :
    later.look here path followLast = .ok .directory := by
  obtain ⟨place, hlocate, hget⟩ := look_eq_ok_iff.1 hlook
  exact look_eq_ok_iff.2 ⟨place, h.locate_eq.trans hlocate, h.isExtendedBy.directory hget⟩

theorem look_error (h : tree.SameShape later)
    (hlook : tree.look here path followLast = .error failure) :
    later.look here path followLast = .error failure := by
  cases hlocate : tree.locate here path followLast with
  | error other =>
      rw [look_of_locate_error hlocate] at hlook
      rw [look_of_locate_error (h.locate_eq.trans hlocate), hlook]
  | ok place =>
      cases hget : tree.get? place with
      | some item =>
          rw [look_eq_ok_iff.2 ⟨place, hlocate, hget⟩] at hlook
          cases hlook
      | none =>
          have hnone : later.get? place = none := by
            rw [← Option.isNone_iff_eq_none, ← Option.not_isSome, h.isSome_eq, hget]
            rfl
          rw [look_of_locate_ok hlocate hget] at hlook
          rw [look_of_locate_ok (h.locate_eq.trans hlocate) hnone, hlook]

/-- The same names are in every directory. -/
theorem mem_names_iff (h : tree.SameShape later) (hwell : tree.WellFormed)
    (hwell' : later.WellFormed) {name : Text} :
    name ∈ later.names place ↔ name ∈ tree.names place := by
  rw [hwell'.mem_names, hwell.mem_names, h.isSome_eq]

end SameShape

/-! ## What links lead to -/

/-- A way that follows its links does not end at one. -/
theorem Walks.not_link {links : Nat} (h : Walks tree true links here names place)
    (hwell : tree.WellFormed) (hhere : tree.get? here = some .directory) (target : Text) :
    tree.get? place ≠ some (.link target) := by
  induction h with
  | done => simp [hhere]
  | dot _ ih => exact ih hhere
  | up _ ih => exact ih (hwell.get?_dropLast hhere)
  | free _ hget => simp [hget]
  | enter _ hget _ ih => exact ih hget
  | file _ hget => simp [hget]
  | link _ _ hfollow => cases hfollow
  | jump _ _ _ _ ih => exact ih (behind_directory hhere _)

theorem look_not_link (hwell : tree.WellFormed) (target : Text) :
    tree.look here path true ≠ .ok (.link target) := by
  intro hlook
  obtain ⟨place, hlocate, hget⟩ := look_eq_ok_iff.1 hlook
  obtain ⟨-, origin, hstart, hway⟩ := locate_eq_ok_iff.1 hlocate
  exact hway.not_link hwell (start_isDirectory hstart) target hget

end Stencil.FileTree
