import Stencil.Proofs.FileTree.Inside

/-!
# Items of directories below a path

The ways that lead from a path over the names in directories, links followed.  A
way that is listed goes over directories, and each of its names is listed.
-/

namespace Stencil.FileTree

/-- The text that an item below a directory is called by; the directory has its own. -/
def textBelow (path : Text) (way : List Text) : Text :=
  if way = [] then path else ((FilePath.ofText path).below way).text

/-- The last name of a way is in the directory that the others lead to. -/
structure Lists (tree : FileTree) (here : Location) (path : Text) (way : List Text) : Prop where
  proper : Location.IsProper way
  listed : ∃ above name place, way = above ++ [name] ∧
    tree.locate here (textBelow path above) true = .ok place ∧
    tree.get? place = some .directory ∧ name ∈ tree.names place

variable {tree later : FileTree} {here place : Location} {path name : Text}
  {way front rest : List Text}

@[simp] theorem textBelow_nil : textBelow path [] = path := rfl

theorem textBelow_of_ne_nil (hway : way ≠ []) :
    textBelow path way = ((FilePath.ofText path).below way).text :=
  if_neg hway

theorem ofText_textBelow (hway : Location.IsProper way) :
    FilePath.ofText (textBelow path way) = (FilePath.ofText path).below way := by
  by_cases hnil : way = []
  · rw [hnil, textBelow_nil, FilePath.below_nil]
  · rw [textBelow_of_ne_nil hnil, ((FilePath.isProper_ofText path).below hway).ofText_text]

/-- The text of an item is the shortest for its path. -/
theorem text_ofText_textBelow (hway : Location.IsProper way) (hne : way ≠ []) :
    (FilePath.ofText (textBelow path way)).text = textBelow path way := by
  rw [ofText_textBelow hway, textBelow_of_ne_nil hne]

theorem text_child_textBelow (hway : Location.IsProper way) (hname : IsName name) :
    ((FilePath.ofText (textBelow path way)).child name).text = textBelow path (way ++ [name]) := by
  rw [ofText_textBelow hway, FilePath.child_of_isName hname, FilePath.below_below,
    textBelow_of_ne_nil (by simp)]

theorem locate_textBelow (h : tree.locate here (textBelow path way) true = .ok place) :
    tree.locate here ((FilePath.ofText path).below way).text true = .ok place := by
  by_cases hnil : way = []
  · subst hnil
    rw [FilePath.below_nil]
    exact locate_ofText h
  · rwa [textBelow_of_ne_nil hnil] at h

/-- Where no links are, a way leads straight down. -/
theorem place_of_locate_textBelow {base : Location} (hwell : tree.WellFormed)
    (hway : Location.IsProper way) (hbase : tree.locate here path true = .ok base)
    (hunlinked : ∀ rest target, tree.get? (base ++ rest) ≠ some (.link target))
    (h : tree.locate here (textBelow path way) true = .ok place) : place = base ++ way := by
  obtain ⟨links, hwalk⟩ := FilePath.walks_of_below hwell
    ((FilePath.isProper_ofText path).below hway) (locate_ofText hbase) (locate_textBelow h)
  exact hwalk.eq_append (fun name hname => ⟨(hway name hname).2.1, (hway name hname).2.2.1⟩)
    hunlinked

theorem fits_of_locate_textBelow {base : Location} (hwell : tree.WellFormed)
    (hway : Location.IsProper way) (hbase : tree.locate here path true = .ok base)
    (h : tree.locate here (textBelow path way) true = .ok place) (hname : name ∈ way) :
    Fits name := by
  obtain ⟨links, hwalk⟩ := FilePath.walks_of_below hwell
    ((FilePath.isProper_ofText path).below hway) (locate_ofText hbase) (locate_textBelow h)
  exact hwalk.fits hname (hway name hname).2.1 (hway name hname).2.2.1

/-- What lies below a place, and is no link, is found on its way if the way can be walked. -/
theorem locate_textBelow_of_get? {base : Location} {item : FileItem} (hwell : tree.WellFormed)
    (hbase : tree.locate here path true = .ok base) (hdirectory : tree.get? base = some .directory)
    (hway : Location.IsProper way) (husable : PathText.IsUsable (textBelow path way))
    (hfits : ∀ name ∈ way, Fits name) (hget : tree.get? (base ++ way) = some item)
    (hitem : ∀ target, item ≠ .link target) :
    tree.locate here (textBelow path way) true = .ok (base ++ way) := by
  by_cases hnil : way = []
  · subst hnil
    rwa [List.append_nil]
  have hpath := FilePath.isProper_ofText path
  rw [textBelow_of_ne_nil hnil] at husable ⊢
  obtain ⟨-, origin, hstart, hwalk⟩ := locate_eq_ok_iff.1 (locate_ofText hbase)
  rw [(PathText.spells_text hpath).walks_iff] at hwalk
  have hdown : Walks tree true 0 base way (base ++ way) := .down hwell hfits hitem hget
  refine locate_eq_ok_iff.2 ⟨husable, origin, ?_, ?_⟩
  · rw [FilePath.start_below hpath hway, hstart]
  · rw [(PathText.spells_text (hpath.below hway)).walks_iff, FilePath.parts_below]
    exact hwalk.append hdirectory hnil hdown

/-- A way below a path is a path. -/
theorem fault?_textBelow (hway : Location.IsProper way) (hpath : PathText.fault? path = none) :
    PathText.fault? (textBelow path way) = none := by
  by_cases hnil : way = []
  · rwa [hnil]
  have hproper := (FilePath.isProper_ofText path).below hway
  rw [textBelow_of_ne_nil hnil, FilePath.text_eq hproper (by simp [hnil])]
  obtain ⟨rest, hrest, hparts⟩ := FilePath.exists_anchorText_append path
  rw [PathText.fault?_eq_none_iff] at hpath ⊢
  intro c hc
  rcases List.mem_append.1 hc with hc | hc
  · exact hpath c (hrest ▸ List.mem_append_left rest hc)
  rcases Text.eq_or_mem_of_mem_joinWith hc with rfl | ⟨part, hpart, hc⟩
  · decide
  rcases List.mem_append.1 hpart with hpart | hpart
  · rw [hparts] at hpart
    have hmem := (Text.mem_of_mem_splitOn (List.mem_filter.1 hpart).1 hc).1
    exact hpath c (hrest ▸ List.mem_append_right _ hmem)
  · have hname := Option.isNone_iff_eq_none.1 (hway part hpart).2.2.2.2
    exact PathText.fault?_eq_none_iff.1 hname c hc

/-- No path has more parts than its text can be long. -/
theorem length_parts_le_of_locate {other : FilePath} (hother : other.IsProper)
    (h : tree.locate here other.text true = .ok place) : other.parts.length ≤ longestPath := by
  by_cases hnil : other.parts = []
  · simp [hnil]
  obtain ⟨⟨-, -, hlong⟩, -⟩ := locate_eq_ok_iff.1 h
  have hsplit := congrArg List.length (hother.splitOn_text hnil)
  have hpieces : (Text.splitOn FilePath.slash other.text).length ≤ other.text.length + 1 :=
    Text.length_splitOn_le
  have hbytes := Text.length_le_byteLength other.text
  simp only [List.length_append, List.length_replicate] at hsplit
  omega

/-- No way is longer than a path can be. -/
theorem length_le_of_locate (hway : Location.IsProper way)
    (h : tree.locate here (textBelow path way) true = .ok place) : way.length ≤ longestPath := by
  have hparts := length_parts_le_of_locate ((FilePath.isProper_ofText path).below hway)
    (locate_textBelow h)
  rw [FilePath.parts_below, List.length_append] at hparts
  omega

theorem Walks.isSome_of_cons {links : Nat}
    (h : Walks tree true links here (name :: rest) place) (hname : IsName name)
    (hsome : (tree.get? place).isSome) : (tree.get? (here ++ [name])).isSome := by
  cases h with
  | dot => exact absurd rfl hname.2.1
  | up => exact absurd rfl hname.2.2.1
  | free _ _ => exact hsome
  | enter _ hget _ => simp [hget]
  | file _ hget => simp [hget]
  | link _ _ hfollow => cases hfollow
  | jump _ hget _ _ => simp [hget]

namespace Lists

/-- A way that goes on leads to a directory first. -/
theorem look_front (h : tree.Lists here path (front ++ rest)) (hwell : tree.WellFormed)
    (hfront : front ≠ []) (hrest : rest ≠ []) :
    tree.look here (textBelow path front) true = .ok .directory := by
  obtain ⟨above, name, place, hway, hlocate, hget, -⟩ := h.listed
  obtain ⟨rest, last, rfl⟩ := (List.eq_nil_or_concat' rest).resolve_left hrest
  rw [← List.append_assoc] at hway
  obtain rfl := List.append_inj_left' hway rfl
  by_cases hnil : rest = []
  · subst hnil
    rw [List.append_nil] at hlocate
    exact look_eq_ok_iff.2 ⟨place, hlocate, hget⟩
  · have hproper : ((FilePath.ofText path).below (front ++ rest)).IsProper :=
      (FilePath.isProper_ofText path).below fun other hother => h.proper other (by
        rw [← List.append_assoc]
        exact List.mem_append_left _ hother)
    have hbelow := locate_textBelow hlocate
    rw [← FilePath.below_below] at hproper hbelow
    rw [textBelow_of_ne_nil hfront]
    exact FilePath.look_of_below hwell hproper hnil hbelow

theorem mem_names (h : tree.Lists here path (front ++ name :: rest)) (hwell : tree.WellFormed)
    (hlocate : tree.locate here (textBelow path front) true = .ok place) :
    name ∈ tree.names place := by
  obtain ⟨above, last, other, hway, hother, hget, hmem⟩ := h.listed
  by_cases hnil : rest = []
  · subst hnil
    obtain ⟨rfl, hlast⟩ := List.append_inj' hway rfl
    obtain rfl := List.singleton_inj.1 hlast
    rw [hlocate] at hother
    cases hother
    exact hmem
  obtain ⟨rest, final, rfl⟩ := (List.eq_nil_or_concat' rest).resolve_left hnil
  rw [← List.cons_append, ← List.append_assoc] at hway
  obtain rfl := List.append_inj_left' hway rfl
  have hname : IsName name := h.proper name (by simp)
  have hproper : ((FilePath.ofText path).below (front ++ name :: rest)).IsProper :=
    (FilePath.isProper_ofText path).below fun other hother => h.proper other (by
      rw [← List.cons_append, ← List.append_assoc]
      exact List.mem_append_left _ hother)
  have hbelow := locate_textBelow hother
  rw [← FilePath.below_below] at hproper hbelow
  obtain ⟨links, hwalk⟩ := FilePath.walks_of_below hwell hproper (locate_textBelow hlocate) hbelow
  exact hwell.mem_names.2 (hwalk.isSome_of_cons hname (by simp [hget]))

end Lists

end Stencil.FileTree
