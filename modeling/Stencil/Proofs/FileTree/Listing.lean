import Stencil.Proofs.FileTree.WellFormed
import Stencil.Proofs.Text.Order

/-!
# Listings

The places with a property in the order of their names, and so the files below a
place: what is in a directory comes where its name stands.  There is only one such
list.
-/

namespace Stencil

/-- Places are compared name by name. -/
def Location.Precedes : Location → Location → Prop :=
  List.Lex fun first second => Text.precedes first second = true

namespace Location

/-- The places with a property, each one once, in the order of their names. -/
structure Enumerates (property : Location → Prop) (places : List Location) : Prop where
  ordered : places.Pairwise Precedes
  mem_iff : ∀ place, place ∈ places ↔ property place

theorem not_precedes_self (place : Location) : ¬ place.Precedes place := by
  intro h
  induction place with
  | nil => cases h
  | cons name rest ih =>
      cases h with
      | rel hname => simp [Text.precedes_iff] at hname
      | cons hrest => exact ih hrest

namespace Enumerates

variable {property : Location → Prop} {places : List Location} {place : Location}

theorem nodup (h : Enumerates property places) : places.Nodup := by
  refine h.ordered.imp fun {first second} hprecedes heq => ?_
  subst heq
  exact not_precedes_self first hprecedes

theorem nil (h : ∀ place, ¬ property place) : Enumerates property [] :=
  ⟨.nil, fun place => by simp [h place]⟩

theorem singleton (h : ∀ other, other = place ↔ property other) : Enumerates property [place] :=
  ⟨List.pairwise_singleton _ _, fun other => by rw [List.mem_singleton, h other]⟩

/-- The places that start with one name come after those that start with an earlier one. -/
theorem flatMap {names : List Text} {placesOf : Text → List Location}
    (hnames : names.Pairwise fun first second => Text.precedes first second = true)
    (hnil : ¬ property []) (hmem : ∀ name rest, property (name :: rest) → name ∈ names)
    (hplaces : ∀ name ∈ names, Enumerates (fun rest => property (name :: rest)) (placesOf name)) :
    Enumerates property (names.flatMap fun name => (placesOf name).map (name :: ·)) := by
  refine ⟨List.pairwise_flatMap.2 ⟨fun name hname => ?_, ?_⟩, fun place => ?_⟩
  · exact List.pairwise_map.2 ((hplaces name hname).ordered.imp .cons)
  · refine hnames.imp fun {first second} hfirst => ?_
    intro place hplace other hother
    obtain ⟨rest, -, rfl⟩ := List.mem_map.1 hplace
    obtain ⟨rest', -, rfl⟩ := List.mem_map.1 hother
    exact .rel hfirst
  · rw [List.mem_flatMap]
    constructor
    · rintro ⟨name, hname, hplace⟩
      obtain ⟨rest, hrest, rfl⟩ := List.mem_map.1 hplace
      exact ((hplaces name hname).mem_iff rest).1 hrest
    · intro hplace
      cases place with
      | nil => exact absurd hplace hnil
      | cons name rest =>
          have hname := hmem name rest hplace
          exact ⟨name, hname, List.mem_map_of_mem (((hplaces name hname).mem_iff rest).2 hplace)⟩

end Enumerates

end Location

namespace FileTree

variable {tree : FileTree} {place : Location} {content : Content}

/-- All files below a place, each one once, in the order of their names. -/
structure ListsFiles (tree : FileTree) (place : Location) (files : List Location) : Prop where
  ordered : files.Pairwise Location.Precedes
  mem_iff : ∀ rest, rest ∈ files ↔ ∃ content, tree.get? (place ++ rest) = some (.file content)

theorem WellFormed.names_pairwise (h : tree.WellFormed) :
    (tree.names place).Pairwise fun first second => Text.precedes first second = true := by
  refine Text.pairwise_sort ?_
  have hnodup : (Text.sort (tree.items.filterMap fun entry => childName? place entry.1)).Nodup :=
    h.names_nodup
  rwa [Text.sort, (List.mergeSort_perm _ _).nodup_iff] at hnodup

theorem listsFiles_file (hwell : tree.WellFormed)
    (hget : tree.get? place = some (.file content)) : tree.ListsFiles place [[]] := by
  refine ⟨List.pairwise_singleton _ _, fun rest => ?_⟩
  rw [List.mem_singleton]
  constructor
  · rintro rfl
    exact ⟨content, by rwa [List.append_nil]⟩
  · rintro ⟨other, hother⟩
    by_contra hrest
    rw [hwell.get?_above hrest hother] at hget
    cases hget

/-- The files of a directory are those of its names, one name after the other. -/
theorem listsFiles_directory (hwell : tree.WellFormed)
    (hget : tree.get? place = some .directory) {filesOf : Text → List Location}
    (hfiles : ∀ name ∈ tree.names place, tree.ListsFiles (place ++ [name]) (filesOf name)) :
    tree.ListsFiles place
      ((tree.names place).flatMap fun name => (filesOf name).map (name :: ·)) := by
  have hlist := @Location.Enumerates.flatMap
    (fun rest => ∃ content, tree.get? (place ++ rest) = some (.file content)) _ filesOf
    hwell.names_pairwise (by simp [hget])
    (fun name rest ⟨_, hcontent⟩ => hwell.mem_names_of_below hcontent)
    fun name hname => ⟨(hfiles name hname).ordered, by simpa using (hfiles name hname).mem_iff⟩
  exact ⟨hlist.ordered, hlist.mem_iff⟩

theorem ListsFiles.nodup {files : List Location} (h : tree.ListsFiles place files) :
    files.Nodup :=
  Location.Enumerates.nodup ⟨h.ordered, h.mem_iff⟩

end FileTree

end Stencil
