import Mathlib.Data.List.Induction
import Stencil.FileTree.Walk
import Stencil.Proofs.Keyed

/-!
# Well-formed trees

The trees that a file system can hold: no place occurs twice, what is in a
directory has a proper name, and everything but the root lies in a directory.
Putting an item where there is room for it keeps a tree well-formed.
-/

namespace Stencil

/-- A name that something in a directory can have. -/
def IsName (name : Text) : Prop :=
  name ≠ [] ∧ name ≠ ("." : Text) ∧ name ≠ (".." : Text) ∧ FilePath.slash ∉ name ∧
    (PathText.fault? name).isNone

instance : DecidablePred IsName := fun name =>
  inferInstanceAs (Decidable (name ≠ [] ∧ name ≠ ("." : Text) ∧ name ≠ (".." : Text) ∧
    FilePath.slash ∉ name ∧ (PathText.fault? name).isNone))

/-- A place whose names can all occur. -/
def Location.IsProper (place : Location) : Prop := ∀ name ∈ place, IsName name

instance : DecidablePred Location.IsProper := fun place =>
  inferInstanceAs (Decidable (∀ name ∈ place, IsName name))

theorem Location.isProper_nil : Location.IsProper [] := fun _ hname => by cases hname

theorem Location.IsProper.concat {place : Location} {name : Text} (h : place.IsProper)
    (hname : IsName name) : Location.IsProper (place ++ [name]) := by
  intro other hother
  rcases List.mem_append.1 hother with hother | hother
  · exact h other hother
  · rwa [List.mem_singleton.1 hother]

namespace FileTree

/-- Whether the target of a link, if the item is one, is a path at all. -/
def targetIsPath : FileItem → Bool
  | .link target => (PathText.fault? target).isNone
  | _ => true

structure WellFormed (tree : FileTree) : Prop where
  distinct : (tree.items.map (·.1)).Nodup
  occupied : ∀ entry ∈ tree.items, entry.1 ≠ []
  named : ∀ entry ∈ tree.items, Location.IsProper entry.1
  housed : ∀ entry ∈ tree.items, (tree.get? entry.1.dropLast).any FileItem.isDirectory = true
  linked : ∀ entry ∈ tree.items, targetIsPath entry.2 = true

instance (tree : FileTree) : Decidable tree.WellFormed :=
  decidable_of_iff
    ((tree.items.map (·.1)).Nodup ∧ (∀ entry ∈ tree.items, entry.1 ≠ []) ∧
      (∀ entry ∈ tree.items, Location.IsProper entry.1) ∧
      (∀ entry ∈ tree.items, (tree.get? entry.1.dropLast).any FileItem.isDirectory = true) ∧
      ∀ entry ∈ tree.items, targetIsPath entry.2 = true)
    ⟨fun ⟨h₁, h₂, h₃, h₄, h₅⟩ => ⟨h₁, h₂, h₃, h₄, h₅⟩,
      fun ⟨h₁, h₂, h₃, h₄, h₅⟩ => ⟨h₁, h₂, h₃, h₄, h₅⟩⟩

variable {tree later : FileTree} {place above : Location} {name : Text} {item : FileItem}

/-! ## What is at a place -/

@[simp] theorem isDirectory_iff : item.isDirectory = true ↔ item = .directory := by
  cases item <;> simp [FileItem.isDirectory]

@[simp] theorem any_isDirectory_iff {found : Option FileItem} :
    found.any FileItem.isDirectory = true ↔ found = some .directory := by
  cases found <;> simp

@[simp] theorem get?_nil : tree.get? [] = some .directory := rfl

theorem ne_nil_of_get? (h : tree.get? place ≠ some .directory) : place ≠ [] := by
  rintro rfl
  exact h rfl

theorem get?_of_ne_nil (h : place ≠ []) : tree.get? place = tree.items.lookup place := by
  simp [get?, h]

theorem get?_put (h : place ≠ []) (other : Location) :
    (tree.put place item).get? other = if other = place then some item else tree.get? other := by
  by_cases hother : other = []
  · subst hother
    simp [h.symm]
  · rw [get?_of_ne_nil hother, get?_of_ne_nil hother]
    exact Keyed.lookup_put place item tree.items other

theorem WellFormed.get?_eq_some_iff (h : tree.WellFormed) (hplace : place ≠ []) :
    tree.get? place = some item ↔ (place, item) ∈ tree.items := by
  rw [get?_of_ne_nil hplace]
  exact Keyed.lookup_eq_some_iff h.distinct

theorem WellFormed.isProper (h : tree.WellFormed) (hget : tree.get? place = some item) :
    place.IsProper := by
  by_cases hplace : place = []
  · subst hplace
    exact fun name hname => absurd hname List.not_mem_nil
  · exact h.named _ ((h.get?_eq_some_iff hplace).1 hget)

theorem WellFormed.isPath (h : tree.WellFormed) {target : Text}
    (hget : tree.get? place = some (.link target)) :
    PathText.fault? target = none := by
  have hplace : place ≠ [] := by
    rintro rfl
    cases hget
  simpa [targetIsPath] using h.linked _ ((h.get?_eq_some_iff hplace).1 hget)

theorem WellFormed.get?_parent (h : tree.WellFormed)
    (hget : tree.get? (above ++ [name]) = some item) : tree.get? above = some .directory := by
  have hmem := (h.get?_eq_some_iff (by simp)).1 hget
  simpa using h.housed _ hmem

theorem WellFormed.get?_above (h : tree.WellFormed) {rest : Location} (hrest : rest ≠ [])
    (hget : tree.get? (above ++ rest) = some item) : tree.get? above = some .directory := by
  induction rest using List.reverseRecOn generalizing item with
  | nil => exact absurd rfl hrest
  | append_singleton rest name ih =>
      rw [← List.append_assoc] at hget
      have hparent := h.get?_parent hget
      by_cases hnil : rest = []
      · simpa [hnil] using hparent
      · exact ih hnil hparent

theorem WellFormed.get?_dropLast (h : tree.WellFormed)
    (hget : tree.get? place = some .directory) : tree.get? place.dropLast = some .directory := by
  rcases List.eq_nil_or_concat' place with rfl | ⟨above, name, rfl⟩
  · rfl
  · simpa using h.get?_parent hget

theorem WellFormed.directory_above (h : tree.WellFormed)
    (hget : tree.get? place = some .directory) (habove : above <+: place) :
    tree.get? above = some .directory := by
  obtain ⟨rest, rfl⟩ := habove
  by_cases hrest : rest = []
  · simpa [hrest] using hget
  · exact h.get?_above hrest hget

theorem WellFormed.get?_below (h : tree.WellFormed) (hget : tree.get? place = none)
    (rest : Location) : tree.get? (place ++ rest) = none := by
  by_cases hrest : rest = []
  · simpa [hrest] using hget
  · by_contra hsome
    obtain ⟨item, hitem⟩ := Option.ne_none_iff_exists'.1 hsome
    rw [h.get?_above hrest hitem] at hget
    cases hget

/-! ## Names in directories -/

theorem childName?_eq_some_iff :
    childName? above place = some name ↔ place = above ++ [name] := by
  rcases List.eq_nil_or_concat' place with rfl | ⟨other, last, rfl⟩
  · simp [childName?]
  · simp only [childName?, List.reverse_append, List.reverse_cons, List.reverse_nil,
      List.nil_append, List.singleton_append, List.reverse_reverse]
    split
    · rename_i h
      subst h
      simp [eq_comm]
    · rename_i h
      simp only [reduceCtorEq, false_iff]
      intro heq
      exact h (List.append_inj_left' heq rfl)

theorem WellFormed.mem_names (h : tree.WellFormed) :
    name ∈ tree.names above ↔ (tree.get? (above ++ [name])).isSome := by
  rw [names, Text.sort, List.mem_mergeSort, List.mem_filterMap, Option.isSome_iff_exists]
  constructor
  · rintro ⟨⟨place, item⟩, hmem, hname⟩
    obtain rfl := childName?_eq_some_iff.1 hname
    exact ⟨item, (h.get?_eq_some_iff (by simp)).2 hmem⟩
  · rintro ⟨item, hget⟩
    exact ⟨(above ++ [name], item), (h.get?_eq_some_iff (by simp)).1 hget,
      childName?_eq_some_iff.2 rfl⟩

theorem WellFormed.mem_names_of_below (h : tree.WellFormed) {rest : Location}
    (hget : tree.get? (above ++ name :: rest) = some item) : name ∈ tree.names above := by
  rw [h.mem_names]
  by_cases hrest : rest = []
  · subst hrest
    simp [hget]
  · rw [List.append_cons] at hget
    simp [h.get?_above hrest hget]

theorem WellFormed.isName_of_mem_names (h : tree.WellFormed) (hname : name ∈ tree.names above) :
    IsName name := by
  obtain ⟨item, hitem⟩ := Option.isSome_iff_exists.1 (h.mem_names.1 hname)
  exact h.isProper hitem name (by simp)

theorem WellFormed.names_nodup (h : tree.WellFormed) : (tree.names above).Nodup := by
  rw [names, Text.sort, (List.mergeSort_perm _ _).nodup_iff]
  have hkeys : tree.items.filterMap (fun entry => childName? above entry.1) =
      (tree.items.map (·.1)).filterMap (childName? above) := by
    rw [List.filterMap_map]
    rfl
  show (tree.items.filterMap fun entry => childName? above entry.1).Nodup
  rw [hkeys]
  refine List.Nodup.filterMap ?_ h.distinct
  intro first second name hfirst hsecond
  rw [childName?_eq_some_iff.1 hfirst, childName?_eq_some_iff.1 hsecond]

/-! ## Putting items -/

/-- A place where an item can be put: in a directory, under a proper name. -/
def HasRoom (tree : FileTree) (place : Location) : Prop :=
  ∃ above name, place = above ++ [name] ∧ tree.get? above = some .directory ∧ IsName name

theorem HasRoom.ne_nil (h : tree.HasRoom place) : place ≠ [] := by
  obtain ⟨above, name, rfl, -, -⟩ := h
  simp

theorem WellFormed.hasRoom (h : tree.WellFormed) (hplace : place ≠ [])
    (hget : tree.get? place = some item) : tree.HasRoom place := by
  obtain ⟨above, name, rfl⟩ := (List.eq_nil_or_concat' place).resolve_left hplace
  exact ⟨above, name, rfl, h.get?_parent hget, h.isProper hget name (by simp)⟩

theorem WellFormed.put (h : tree.WellFormed) (hroom : tree.HasRoom place)
    (hold : tree.get? place = some .directory → item = .directory)
    (hitem : targetIsPath item = true) : (tree.put place item).WellFormed := by
  have hplace := hroom.ne_nil
  obtain ⟨above, name, rfl, habove, hname⟩ := hroom
  have hmem {entry} (hentry : entry ∈ (tree.put (above ++ [name]) item).items) :
      entry = (above ++ [name], item) ∨ entry ∈ tree.items ∧ entry.1 ≠ above ++ [name] :=
    Keyed.mem_put h.distinct hentry
  refine ⟨Keyed.nodup_put h.distinct, ?_, ?_, ?_, ?_⟩
  · intro entry hentry
    rcases hmem hentry with rfl | ⟨hentry, -⟩
    · exact hplace
    · exact h.occupied _ hentry
  · intro entry hentry
    rcases hmem hentry with rfl | ⟨hentry, -⟩
    · intro other hother
      rcases List.mem_append.1 hother with hother | hother
      · exact h.isProper habove other hother
      · rw [List.mem_singleton.1 hother]
        exact hname
    · exact h.named _ hentry
  · intro entry hentry
    rw [any_isDirectory_iff, get?_put hplace]
    rcases hmem hentry with rfl | ⟨hentry, -⟩
    · simpa using habove
    · have hhoused := any_isDirectory_iff.1 (h.housed _ hentry)
      split
      · rename_i heq
        rw [heq] at hhoused
        rw [hold hhoused]
      · exact hhoused
  · intro entry hentry
    rcases hmem hentry with rfl | ⟨hentry, -⟩
    · exact hitem
    · exact h.linked _ hentry

end FileTree

end Stencil
