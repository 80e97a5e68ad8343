import Stencil.Proofs.FileTree.Walk

/-!
# What paths lead to

A path is located by a way that starts where the path says.  What it leads to
stays the same in trees that keep or extend the tree.
-/

namespace Stencil.FileTree

variable {tree later : FileTree} {followLast : Bool} {here place origin : Location}
  {path : Text} {item : FileItem} {failure : Failure}

/-! ## Locating -/

theorem locate_eq_ok_iff :
    tree.locate here path followLast = .ok place ↔
      PathText.IsUsable path ∧ ∃ origin, tree.start here path = some origin ∧
        Walks tree followLast mostLinks origin (PathText.steps path) place := by
  unfold locate PathText.IsUsable
  cases hfault : PathText.fault? path with
  | some fault => simp
  | none =>
      by_cases hempty : path = []
      · simp [hempty]
      by_cases hlong : longestPath ≤ path.byteLength
      · simp [hempty, hlong, Nat.not_lt.2 hlong]
      cases hstart : tree.start here path with
      | none => simp [hempty, hlong]
      | some origin =>
          simp only [List.isEmpty_iff, hempty, hlong, if_false, ne_eq, not_false_eq_true,
            true_and, Nat.not_le.1 hlong, Option.some.injEq, exists_eq_left']
          rw [← walk_eq_ok_iff]
          cases walk tree followLast mostLinks origin (PathText.steps path) <;> simp

theorem locate_eq_error (h : tree.locate here path followLast = .error failure) :
    PathText.fault? path = some failure ∨ ∃ cause, failure = .system cause path := by
  unfold locate at h
  split at h
  · rename_i fault hfault
    cases h
    exact .inl hfault
  · right
    split at h
    · cases h
      exact ⟨_, rfl⟩
    split at h
    · cases h
      exact ⟨_, rfl⟩
    split at h
    · cases h
      exact ⟨_, rfl⟩
    split at h <;> cases h
    exact ⟨_, rfl⟩

theorem start_isDirectory (h : tree.start here path = some origin) :
    tree.get? origin = some .directory := by
  unfold start at h
  split at h
  · cases h
    rfl
  · split at h
    · rename_i hhere
      cases h
      exact any_isDirectory_iff.1 hhere
    · cases h

theorem start_extend (hextended : tree.IsExtendedBy later)
    (h : tree.start here path = some origin) : later.start here path = some origin := by
  unfold start at h ⊢
  split at h
  · rename_i habsolute
    rw [if_pos habsolute]
    exact h
  · rename_i habsolute
    rw [if_neg habsolute]
    split at h
    · rename_i hhere
      rw [if_pos (any_isDirectory_iff.2 (hextended.directory (any_isDirectory_iff.1 hhere)))]
      exact h
    · cases h

theorem locate_extend (hextended : tree.IsExtendedBy later)
    (h : tree.locate here path followLast = .ok place)
    (hend : tree.get? place = none → ∀ target, later.get? place ≠ some (.link target)) :
    later.locate here path followLast = .ok place := by
  obtain ⟨husable, origin, hstart, hway⟩ := locate_eq_ok_iff.1 h
  exact locate_eq_ok_iff.2
    ⟨husable, origin, start_extend hextended hstart, hway.extend hextended hend⟩

theorem isSome_or_hasRoom (hwell : tree.WellFormed)
    (h : tree.locate here path followLast = .ok place) :
    (tree.get? place).isSome ∨ tree.HasRoom place := by
  obtain ⟨husable, origin, hstart, hway⟩ := locate_eq_ok_iff.1 h
  exact hway.isSome_or_hasRoom hwell (start_isDirectory hstart) fun name hname =>
    ⟨PathText.isStep_of_mem_steps hname, PathText.fault?_of_mem_steps husable.1 hname⟩

theorem hasRoom_of_locate (hwell : tree.WellFormed)
    (h : tree.locate here path followLast = .ok place) (hplace : place ≠ []) :
    tree.HasRoom place := by
  rcases isSome_or_hasRoom hwell h with hsome | hroom
  · obtain ⟨item, hget⟩ := Option.isSome_iff_exists.1 hsome
    exact hwell.hasRoom hplace hget
  · exact hroom

theorem locate_unfollowed (h : tree.locate here path true = .ok place) :
    ∃ other, tree.locate here path false = .ok other ∧
      ((tree.get? place).isSome → (tree.get? other).isSome) := by
  obtain ⟨husable, origin, hstart, hway⟩ := locate_eq_ok_iff.1 h
  obtain ⟨other, hother, hsome⟩ := hway.unfollowed
  exact ⟨other, locate_eq_ok_iff.2 ⟨husable, origin, hstart, hother⟩, hsome⟩

theorem locate_followed (h : tree.locate here path false = .ok place)
    (hget : ∀ target, tree.get? place ≠ some (.link target)) :
    tree.locate here path true = .ok place := by
  obtain ⟨husable, origin, hstart, hway⟩ := locate_eq_ok_iff.1 h
  exact locate_eq_ok_iff.2 ⟨husable, origin, hstart, hway.followed hget⟩

/-! ## Looking -/

theorem look_eq_ok_iff :
    tree.look here path followLast = .ok item ↔
      ∃ place, tree.locate here path followLast = .ok place ∧ tree.get? place = some item := by
  unfold look
  cases hlocate : tree.locate here path followLast with
  | error failure => simp [bind, Except.bind]
  | ok place =>
      cases hget : tree.get? place <;> simp [bind, Except.bind, hget, pure, Except.pure]

theorem look_of_locate_ok (h : tree.locate here path followLast = .ok place)
    (hget : tree.get? place = none) :
    tree.look here path followLast = .error (.system .missing path) := by
  simp only [look, h, bind, Except.bind, hget]
  rfl

theorem look_of_locate_error (h : tree.locate here path followLast = .error failure) :
    tree.look here path followLast = .error failure := by
  simp [look, h, bind, Except.bind]

theorem look_eq_error (h : tree.look here path followLast = .error failure) :
    PathText.fault? path = some failure ∨ ∃ cause, failure = .system cause path := by
  cases hlocate : tree.locate here path followLast with
  | error other =>
      rw [look_of_locate_error hlocate] at h
      cases h
      exact locate_eq_error hlocate
  | ok place =>
      cases hget : tree.get? place with
      | none =>
          rw [look_of_locate_ok hlocate hget] at h
          cases h
          exact .inr ⟨_, rfl⟩
      | some item =>
          rw [look_eq_ok_iff.2 ⟨place, hlocate, hget⟩] at h
          cases h

theorem look_kept (hkept : tree.IsKeptBy later) (h : tree.look here path followLast = .ok item) :
    later.look here path followLast = .ok item := by
  obtain ⟨place, hlocate, hget⟩ := look_eq_ok_iff.1 h
  refine look_eq_ok_iff.2 ⟨place, locate_extend hkept.isExtendedBy hlocate ?_, hkept _ _ hget⟩
  simp [hget]

theorem isOk_look_kept (hkept : tree.IsKeptBy later)
    (h : (tree.look here path followLast).isOk = true) :
    (later.look here path followLast).isOk = true := by
  cases hlook : tree.look here path followLast with
  | error failure =>
      rw [hlook] at h
      cases h
  | ok item =>
      rw [look_kept hkept hlook]
      rfl

/-- Where something is behind a path there is something at it. -/
theorem look_unfollowed (h : tree.look here path true = .ok item) :
    ∃ other, tree.look here path false = .ok other := by
  obtain ⟨place, hlocate, hget⟩ := look_eq_ok_iff.1 h
  obtain ⟨other, hother, hsome⟩ := locate_unfollowed hlocate
  obtain ⟨found, hfound⟩ := Option.isSome_iff_exists.1 (hsome (by simp [hget]))
  exact ⟨found, look_eq_ok_iff.2 ⟨other, hother, hfound⟩⟩

/-- A path that nothing is at leads nowhere, whether or not links are followed. -/
theorem locate_of_look_error (h : tree.look here path false = .error failure) :
    (∀ place, tree.locate here path true ≠ .ok place) ∨
      ∃ place, tree.get? place = none ∧ ∀ followLast, tree.locate here path followLast = .ok place := by
  cases hlocate : tree.locate here path false with
  | error other =>
      left
      intro place hplace
      obtain ⟨found, hfound, -⟩ := locate_unfollowed hplace
      rw [hlocate] at hfound
      cases hfound
  | ok place =>
      right
      have hget : tree.get? place = none := by
        by_contra hsome
        obtain ⟨item, hitem⟩ := Option.ne_none_iff_exists'.1 hsome
        rw [look_eq_ok_iff.2 ⟨place, hlocate, hitem⟩] at h
        cases h
      refine ⟨place, hget, fun followLast => ?_⟩
      cases followLast with
      | false => exact hlocate
      | true => exact locate_followed hlocate (by simp [hget])

end Stencil.FileTree

namespace Stencil.FilePath

variable {tree : FileTree} {here : Location} {path : FilePath} {rest : List Text}

/-- Paths that go on from a path start where it starts. -/
theorem start_below (hproper : path.IsProper) (hrest : Location.IsProper rest) :
    tree.start here (path.below rest).text = tree.start here path.text := by
  have habsolute : PathText.isAbsolute (path.below rest).text = PathText.isAbsolute path.text := by
    rw [hproper.isAbsolute_text, (hproper.below hrest).isAbsolute_text, isAbsolute_below]
  simp [FileTree.start, habsolute]

end Stencil.FilePath
