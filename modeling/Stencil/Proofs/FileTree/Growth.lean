import Stencil.Proofs.FileTree.WellFormed

/-!
# Trees that grow

A tree extends another one if everything is still there, be it that files hold
something else, and it keeps another one if files hold the same as well.  Paths
lead to the same places in every extension.
-/

namespace Stencil

namespace FileItem

/-- An item up to what a file holds. -/
def outline : FileItem → FileItem
  | .file _ => .file (.bytes [])
  | item => item

@[simp] theorem outline_eq_directory {item : FileItem} :
    item.outline = .directory ↔ item = .directory := by
  cases item <;> simp [outline]

@[simp] theorem outline_eq_link {item : FileItem} {target : Text} :
    item.outline = .link target ↔ item = .link target := by
  cases item <;> simp [outline]

theorem outline_eq_file {item : FileItem} {content : Content} :
    item.outline = outline (.file content) ↔ ∃ other, item = .file other := by
  cases item <;> simp [outline]

end FileItem

namespace FileTree

variable {tree later latest : FileTree} {place : Location} {item : FileItem}

/-! ## Extensions -/

def IsExtendedBy (tree later : FileTree) : Prop :=
  ∀ place item, tree.get? place = some item →
    ∃ other, later.get? place = some other ∧ other.outline = item.outline

theorem IsExtendedBy.refl (tree : FileTree) : tree.IsExtendedBy tree :=
  fun _ item h => ⟨item, h, rfl⟩

theorem IsExtendedBy.trans (h : tree.IsExtendedBy later) (h' : later.IsExtendedBy latest) :
    tree.IsExtendedBy latest := by
  intro place item hget
  obtain ⟨other, hother, heq⟩ := h place item hget
  obtain ⟨last, hlast, heq'⟩ := h' place other hother
  exact ⟨last, hlast, heq'.trans heq⟩

theorem IsExtendedBy.directory (h : tree.IsExtendedBy later)
    (hget : tree.get? place = some .directory) : later.get? place = some .directory := by
  obtain ⟨other, hother, heq⟩ := h _ _ hget
  rw [hother, FileItem.outline_eq_directory.1 heq]

theorem IsExtendedBy.link (h : tree.IsExtendedBy later) {target : Text}
    (hget : tree.get? place = some (.link target)) : later.get? place = some (.link target) := by
  obtain ⟨other, hother, heq⟩ := h _ _ hget
  rw [hother, FileItem.outline_eq_link.1 heq]

theorem IsExtendedBy.file (h : tree.IsExtendedBy later) {content : Content}
    (hget : tree.get? place = some (.file content)) :
    ∃ other, later.get? place = some (.file other) := by
  obtain ⟨other, hother, heq⟩ := h _ _ hget
  obtain ⟨content', rfl⟩ := FileItem.outline_eq_file.1 heq
  exact ⟨content', hother⟩

theorem IsExtendedBy.isSome (h : tree.IsExtendedBy later) (hget : (tree.get? place).isSome) :
    (later.get? place).isSome := by
  obtain ⟨item, hitem⟩ := Option.isSome_iff_exists.1 hget
  obtain ⟨other, hother, -⟩ := h _ _ hitem
  simp [hother]

theorem HasRoom.extend (hroom : tree.HasRoom place) (h : tree.IsExtendedBy later) :
    later.HasRoom place := by
  obtain ⟨above, name, hplace, habove, hname⟩ := hroom
  exact ⟨above, name, hplace, h.directory habove, hname⟩

/-- An item may take the place of nothing, or of one with its outline. -/
theorem isExtendedBy_put (hplace : place ≠ [])
    (hold : ∀ old, tree.get? place = some old → item.outline = old.outline) :
    tree.IsExtendedBy (tree.put place item) := by
  intro other old hget
  rw [get?_put hplace]
  split
  · rename_i heq
    subst heq
    exact ⟨item, rfl, hold old hget⟩
  · exact ⟨old, hget, rfl⟩

/-! ## Trees that are kept -/

def IsKeptBy (tree later : FileTree) : Prop :=
  ∀ place item, tree.get? place = some item → later.get? place = some item

theorem IsKeptBy.refl (tree : FileTree) : tree.IsKeptBy tree := fun _ _ h => h

theorem IsKeptBy.trans (h : tree.IsKeptBy later) (h' : later.IsKeptBy latest) :
    tree.IsKeptBy latest :=
  fun place item hget => h' place item (h place item hget)

theorem IsKeptBy.isExtendedBy (h : tree.IsKeptBy later) : tree.IsExtendedBy later :=
  fun place item hget => ⟨item, h place item hget, rfl⟩

theorem IsKeptBy.get?_eq_none (h : tree.IsKeptBy later) (hget : later.get? place = none) :
    tree.get? place = none := by
  by_contra hsome
  obtain ⟨item, hitem⟩ := Option.ne_none_iff_exists'.1 hsome
  rw [h _ _ hitem] at hget
  cases hget

theorem isKeptBy_put (hplace : place ≠ []) (hold : tree.get? place = none) :
    tree.IsKeptBy (tree.put place item) := by
  intro other old hget
  rw [get?_put hplace, if_neg]
  · exact hget
  · rintro rfl
    rw [hold] at hget
    cases hget

/-! ## Directories that are added -/

/-- Everything is kept, and nothing but directories is new. -/
structure AddsDirectories (tree later : FileTree) : Prop where
  kept : tree.IsKeptBy later
  added : ∀ place item, later.get? place = some item →
    tree.get? place = some item ∨ tree.get? place = none ∧ item = .directory

theorem AddsDirectories.refl (tree : FileTree) : tree.AddsDirectories tree :=
  ⟨.refl tree, fun _ _ => .inl⟩

theorem AddsDirectories.trans (h : tree.AddsDirectories later) (h' : later.AddsDirectories latest) :
    tree.AddsDirectories latest := by
  refine ⟨h.kept.trans h'.kept, fun place item hget => ?_⟩
  rcases h'.added place item hget with hlater | ⟨hnone, rfl⟩
  · exact h.added place item hlater
  · exact .inr ⟨h.kept.get?_eq_none hnone, rfl⟩

theorem addsDirectories_put (hplace : place ≠ []) (hold : tree.get? place = none) :
    tree.AddsDirectories (tree.put place .directory) := by
  refine ⟨isKeptBy_put hplace hold, fun other item hget => ?_⟩
  rw [get?_put hplace] at hget
  split at hget
  · rename_i heq
    cases hget
    exact .inr ⟨heq ▸ hold, rfl⟩
  · exact .inl hget

/-! ## Trees without some items -/

section

/-- The tree without the items that ways lead to from a place. -/
def without (tree : FileTree) (base : Location) (ways : List Location) : FileTree :=
  ways.foldl (fun tree way => tree.remove (base ++ way)) tree

variable {base other : Location} {ways : List Location}

theorem get?_remove (hother : other ≠ []) :
    (tree.remove place).get? other = if place <+: other then none else tree.get? other := by
  rw [get?_of_ne_nil hother, get?_of_ne_nil hother]
  refine (Keyed.lookup_filter (fun other => !place.isPrefixOf other) other tree.items).trans ?_
  simp only [Bool.not_eq_true', ← Bool.not_eq_true, List.isPrefixOf_iff_prefix]
  by_cases hbelow : place <+: other <;> simp [hbelow]

theorem WellFormed.remove (h : tree.WellFormed) (place : Location) :
    (tree.remove place).WellFormed := by
  have hmem : ∀ entry ∈ (tree.remove place).items, entry ∈ tree.items ∧ ¬ place <+: entry.1 := by
    intro entry hentry
    obtain ⟨hmem, hkeeps⟩ := List.mem_filter.1 hentry
    exact ⟨hmem, by simpa [← List.isPrefixOf_iff_prefix] using hkeeps⟩
  refine ⟨?_, fun entry hentry => h.occupied _ (hmem entry hentry).1,
    fun entry hentry => h.named _ (hmem entry hentry).1, fun entry hentry => ?_,
    fun entry hentry => h.linked _ (hmem entry hentry).1⟩
  · exact h.distinct.sublist (List.filter_sublist.map _)
  · obtain ⟨hold, hprefix⟩ := hmem entry hentry
    have hhoused := h.housed entry hold
    by_cases hnil : entry.1.dropLast = []
    · simp [hnil]
    · rw [get?_remove hnil, if_neg fun habove => hprefix (habove.trans (List.dropLast_prefix _))]
      exact hhoused

theorem get?_without (hother : other ≠ []) : (tree.without base ways).get? other =
    if ∃ way ∈ ways, base ++ way <+: other then none else tree.get? other := by
  induction ways generalizing tree with
  | nil => simp [without]
  | cons way ways ih =>
      rw [without, List.foldl_cons, ← without, ih, get?_remove hother]
      by_cases hway : base ++ way <+: other <;> simp [hway]

theorem WellFormed.without (h : tree.WellFormed) : (tree.without base ways).WellFormed := by
  induction ways generalizing tree with
  | nil => exact h
  | cons way ways ih => exact ih (h.remove (base ++ way))

/-- What is left is as it was. -/
theorem without_isKeptBy : (tree.without base ways).IsKeptBy tree := by
  intro other item hget
  by_cases hother : other = []
  · subst hother
    exact hget
  · rw [get?_without hother] at hget
    split at hget
    · cases hget
    · exact hget

end

end FileTree

end Stencil
