import Stencil.Proofs.FileTree.Shape
import Stencil.Proofs.FileTree.Source

/-!
# Regions

A region is what lies below a place that a path leads to, if no link is in it.
Paths that go on from the path stay in the region, and everything in the region
can be reached by them.  A place where nothing is yet is a region, and it stays
one while files and directories are put into it.
-/

namespace Stencil

open FileTree

variable {tree later : FileTree} {followLast : Bool} {here place other : Location}
  {path : FilePath} {rest : Location} {item : FileItem}

/-! ## Paths with a way -/

/-- A path that leads to a place, whether or not its last link is followed. -/
structure FilePath.LeadsTo (tree : FileTree) (here : Location) (path : FilePath)
    (place : Location) : Prop where
  proper : path.IsProper
  named : path.parts ≠ []
  way : ∀ followLast, ∃ origin, tree.start here path.text = some origin ∧
    Walks tree followLast mostLinks origin path.parts place

namespace FilePath

theorem isUsable_anchor (anchor : Anchor) : PathText.IsUsable (FilePath.mk anchor []).text := by
  cases anchor <;> exact ⟨by decide, by decide, by decide⟩

theorem isUsable_parent (hproper : path.IsProper) (husable : PathText.IsUsable path.text) :
    PathText.IsUsable path.parent.text := by
  obtain ⟨hfault, -, hlong⟩ := husable
  obtain ⟨anchor, parts⟩ := path
  by_cases hfront : parts.dropLast = []
  · rw [parent, hfront]
    exact isUsable_anchor anchor
  · have hproper' := hproper.parent
    have hnamed : parts ≠ [] := by
      rintro rfl
      exact hfront rfl
    have htext : (FilePath.mk anchor parts).text = (FilePath.mk anchor parts).parent.text ++
        (slash :: parts.getLast hnamed) := by
      rw [text_eq hproper hnamed, text_eq hproper' hfront, parent]
      conv_lhs => rw [← List.dropLast_append_getLast hnamed]
      rw [Text.joinWith_append _ hfront (by simp)]
      simp
    rw [htext] at hfault hlong
    refine ⟨?_, ?_, ?_⟩
    · rw [PathText.fault?_eq_none_iff] at hfault ⊢
      exact fun c hc => hfault c (List.mem_append_left _ hc)
    · rw [text_eq hproper' hfront]
      obtain ⟨c, more, heq, -⟩ := joinWith_eq_cons hproper' hfront
      simp [heq]
    · rw [Text.byteLength_append] at hlong
      omega

/-- The parent of a path leads to the directory that the last name is looked for in. -/
theorem look_parent (hwell : tree.WellFormed) (hproper : path.IsProper)
    (hnamed : path.parts ≠ [])
    (hlocate : tree.locate here path.text followLast = .ok place) :
    tree.look here path.parent.text true = .ok .directory := by
  obtain ⟨husable, origin, hstart, hway⟩ := locate_eq_ok_iff.1 hlocate
  have husable' := isUsable_parent hproper husable
  obtain ⟨anchor, parts⟩ := path
  obtain ⟨front, last, rfl⟩ := (List.eq_nil_or_concat' parts).resolve_left hnamed
  have hparent : (FilePath.mk anchor (front ++ [last])).parent = ⟨anchor, front⟩ := by
    simp [parent]
  rw [hparent] at husable' ⊢
  have hproper' : (FilePath.mk anchor front).IsProper := hparent ▸ hproper.parent
  rw [hproper.steps_text hnamed] at hway
  obtain ⟨-, middle, -, hfirst, hmiddle, -⟩ :=
    hway.of_append hwell (start_isDirectory hstart) (by simp)
  refine look_eq_ok_iff.2 ⟨middle, locate_eq_ok_iff.2 ⟨husable', origin, ?_, ?_⟩, hmiddle⟩
  · have habsolute : PathText.isAbsolute (FilePath.mk anchor front).text =
        PathText.isAbsolute (FilePath.mk anchor (front ++ [last])).text := by
      rw [hproper.isAbsolute_text, hproper'.isAbsolute_text]
      rfl
    rwa [start, habsolute]
  · rw [(PathText.spells_text hproper').walks_iff]
    exact hfirst

/-- A path without names leads to a directory. -/
theorem named_of_locate (hget : tree.get? place ≠ some .directory)
    (hlocate : tree.locate here path.text followLast = .ok place) : path.parts ≠ [] := by
  intro hnil
  obtain ⟨anchor, parts⟩ := path
  subst hnil
  have hsteps : PathText.steps (FilePath.mk anchor []).text = [("." : Text)] := by
    cases anchor <;> decide
  obtain ⟨-, origin, hstart, hway⟩ := locate_eq_ok_iff.1 hlocate
  rw [hsteps] at hway
  obtain rfl := hway.unique (.dot (@Walks.done tree followLast 0 _))
  exact hget (start_isDirectory hstart)

theorem leadsTo_of_locate (hproper : path.IsProper) (hget : tree.get? place = none)
    (hlocate : ∀ followLast, tree.locate here path.text followLast = .ok place) :
    path.LeadsTo tree here place := by
  have hnamed : path.parts ≠ [] := named_of_locate (by simp [hget]) (hlocate true)
  refine ⟨hproper, hnamed, fun followLast => ?_⟩
  obtain ⟨-, origin, hstart, hway⟩ := locate_eq_ok_iff.1 (hlocate followLast)
  rw [hproper.steps_text hnamed] at hway
  exact ⟨origin, hstart, hway⟩

namespace LeadsTo

theorem extend (h : path.LeadsTo tree here place) (hextended : tree.IsExtendedBy later)
    (hplace : ∀ target, later.get? place ≠ some (.link target)) :
    path.LeadsTo later here place := by
  refine ⟨h.proper, h.named, fun followLast => ?_⟩
  obtain ⟨origin, hstart, hway⟩ := h.way followLast
  exact ⟨origin, start_extend hextended hstart, hway.extend hextended fun _ => hplace⟩

/-- The ways that go on from a path go on from its place. -/
theorem walks_below (h : path.LeadsTo tree here place) (hwell : tree.WellFormed)
    (hrest : rest.IsProper)
    (hlocate : tree.locate here (path.below rest).text followLast = .ok other) :
    ∃ links, Walks tree followLast links place rest other := by
  obtain ⟨-, origin, hstart, hway⟩ := locate_eq_ok_iff.1 hlocate
  rw [(h.proper.below hrest).steps_text (by simp [h.named]), parts_below] at hway
  rw [start_below h.proper hrest] at hstart
  by_cases hnil : rest = []
  · subst hnil
    obtain ⟨origin', hstart', hway'⟩ := h.way followLast
    rw [hstart] at hstart'
    cases hstart'
    rw [List.append_nil] at hway
    rw [hway.unique hway']
    exact ⟨0, .done⟩
  · obtain ⟨fewer, middle, -, hfirst, -, hlast⟩ :=
      hway.of_append hwell (start_isDirectory hstart) hnil
    obtain ⟨origin', hstart', hway'⟩ := h.way true
    rw [hstart] at hstart'
    cases hstart'
    rw [hfirst.unique hway'] at hlast
    exact ⟨fewer, hlast⟩

end LeadsTo

end FilePath

/-! ## Regions -/

structure FileTree.Region (tree : FileTree) (here : Location) (path : FilePath)
    (place : Location) : Prop where
  well : tree.WellFormed
  leads : path.LeadsTo tree here place
  unlinked : ∀ rest target, tree.get? (place ++ rest) ≠ some (.link target)
  reached : ∀ rest item, tree.get? (place ++ rest) = some item →
    PathText.IsUsable (path.below rest).text ∧ ∀ name ∈ rest, Fits name

/-- Nothing but what is below a place is changed, and nothing is removed. -/
structure FileTree.ChangesBelow (place : Location) (tree later : FileTree) : Prop where
  extended : tree.IsExtendedBy later
  outside : ∀ other, ¬ place <+: other → later.get? other = tree.get? other

namespace FileTree.ChangesBelow

theorem refl (place : Location) (tree : FileTree) : tree.ChangesBelow place tree :=
  ⟨.refl tree, fun _ _ => rfl⟩

theorem trans {latest : FileTree} (h : ChangesBelow place tree later)
    (h' : ChangesBelow place later latest) : ChangesBelow place tree latest :=
  ⟨h.extended.trans h'.extended, fun other hother =>
    (h'.outside other hother).trans (h.outside other hother)⟩

theorem above (h : ChangesBelow (place ++ rest) tree later) : ChangesBelow place tree later :=
  ⟨h.extended, fun other hother =>
    h.outside other fun hprefix => hother ((List.prefix_append place rest).trans hprefix)⟩

/-- If nothing was at the place, then nothing is changed at all. -/
theorem isKeptBy (h : ChangesBelow place tree later) (hwell : tree.WellFormed)
    (hnone : tree.get? place = none) : tree.IsKeptBy later := by
  intro other item hget
  rw [h.outside other]
  · exact hget
  · rintro ⟨below, rfl⟩
    rw [hwell.get?_below hnone below] at hget
    cases hget

/-- What is below one name does not change with what is below another one. -/
theorem beside {name name' : Text} (h : ChangesBelow (place ++ [name]) tree later)
    (hname : name' ≠ name) (rest : Location) :
    later.get? (place ++ name' :: rest) = tree.get? (place ++ name' :: rest) := by
  refine h.outside _ fun hprefix => hname ?_
  rw [List.prefix_append_right_inj] at hprefix
  exact (List.cons_prefix_cons.1 hprefix).1.symm

end FileTree.ChangesBelow

namespace FileTree.Region

theorem fresh (hwell : tree.WellFormed) (hproper : path.IsProper)
    (hget : tree.get? place = none)
    (hlocate : ∀ followLast, tree.locate here path.text followLast = .ok place) :
    tree.Region here path place := by
  have hbelow := hwell.get?_below hget
  exact ⟨hwell, FilePath.leadsTo_of_locate hproper hget hlocate, by simp [hbelow], by simp [hbelow]⟩

variable (h : tree.Region here path place)
include h

/-- What the files of a tree hold does not matter. -/
theorem of_sameShape (hshape : tree.SameShape later) (hwell : later.WellFormed) :
    later.Region here path place := by
  have hunlinked : ∀ rest target, later.get? (place ++ rest) ≠ some (.link target) :=
    fun rest target hget => h.unlinked rest target (hshape.symm.isExtendedBy.link hget)
  refine ⟨hwell, h.leads.extend hshape.isExtendedBy fun target => ?_, hunlinked,
    fun rest item hget => ?_⟩
  · simpa using hunlinked [] target
  · obtain ⟨old, hold, -⟩ := hshape.symm.isExtendedBy _ _ hget
    exact h.reached rest old hold

theorem locate_eq (hrest : rest.IsProper)
    (hlocate : tree.locate here (path.below rest).text followLast = .ok other) :
    other = place ++ rest ∧ ∀ name ∈ rest, Fits name := by
  obtain ⟨links, hway⟩ := h.leads.walks_below h.well hrest hlocate
  refine ⟨hway.eq_append (fun name hname => ?_) h.unlinked, fun name hname => ?_⟩
  · obtain ⟨-, hdot, hup, -⟩ := hrest name hname
    exact ⟨hdot, hup⟩
  obtain ⟨-, hdot, hup, -⟩ := hrest name hname
  exact hway.fits hname hdot hup

theorem isProper (hget : tree.get? (place ++ rest) = some item) : rest.IsProper :=
  fun name hname => h.well.isProper hget name (List.mem_append_right _ hname)

theorem locate_of_get? (hget : tree.get? (place ++ rest) = some item) :
    tree.locate here (path.below rest).text followLast = .ok (place ++ rest) := by
  obtain ⟨husable, hfits⟩ := h.reached rest item hget
  have hrest := h.isProper hget
  refine locate_eq_ok_iff.2 ⟨husable, ?_⟩
  rw [FilePath.start_below h.leads.proper hrest,
    (h.leads.proper.below hrest).steps_text (by simp [h.leads.named]), FilePath.parts_below]
  by_cases hnil : rest = []
  · simpa [hnil] using h.leads.way followLast
  · obtain ⟨origin, hstart, hway⟩ := h.leads.way true
    have hdown : tree.Walks followLast 0 place rest (place ++ rest) :=
      .down h.well hfits (fun target hitem => h.unlinked rest target (hitem ▸ hget)) hget
    exact ⟨origin, hstart, hway.append (h.well.get?_above hnil hget) hnil hdown⟩

theorem look_iff (hrest : rest.IsProper) :
    tree.look here (path.below rest).text followLast = .ok item ↔
      tree.get? (place ++ rest) = some item := by
  rw [look_eq_ok_iff]
  constructor
  · rintro ⟨other, hlocate, hget⟩
    obtain ⟨rfl, -⟩ := h.locate_eq hrest hlocate
    exact hget
  · intro hget
    exact ⟨_, h.locate_of_get? hget, hget⟩

/-- If the region is there, it is at its path. -/
theorem exists_look (hsome : (tree.get? place).isSome) :
    ∃ item, tree.look here path.text followLast = .ok item := by
  obtain ⟨item, hitem⟩ := Option.isSome_iff_exists.1 hsome
  have hlook : tree.look here (path.below []).text followLast = .ok item ↔
      tree.get? (place ++ []) = some item := h.look_iff Location.isProper_nil
  rw [FilePath.below_nil, List.append_nil] at hlook
  exact ⟨item, hlook.2 hitem⟩

/-- Nothing lies deeper than paths can be long. -/
theorem length_lt (hget : tree.get? (place ++ rest) = some item) : rest.length < longestPath := by
  have hrest := h.isProper hget
  obtain ⟨⟨-, -, hlong⟩, -⟩ := h.reached rest item hget
  refine Nat.lt_of_le_of_lt (le_trans ?_ (Text.length_le_byteLength _)) hlong
  have hsplit := congrArg List.length
    ((h.leads.proper.below hrest).splitOn_text (by simp [h.leads.named]))
  have hpieces : (Text.splitOn FilePath.slash (path.below rest).text).length ≤
      (path.below rest).text.length + 1 := Text.length_splitOn_le
  have hnamed := List.length_pos_iff.2 h.leads.named
  simp only [List.length_append, List.length_replicate, FilePath.parts_below] at hsplit
  omega

/-- A file or a directory is put where a path of the region leads. -/
theorem put (hrest : rest.IsProper)
    (hlocate : tree.locate here (path.below rest).text followLast = .ok other)
    (hold : ∀ old, tree.get? (place ++ rest) = some old →
      old ≠ .directory ∧ item.outline = old.outline)
    (hitem : item.isLink = false) :
    (tree.put (place ++ rest) item).Region here path place ∧
      ChangesBelow (place ++ rest) tree (tree.put (place ++ rest) item) := by
  obtain ⟨rfl, hfits⟩ := h.locate_eq hrest hlocate
  have hplace : place ++ rest ≠ [] := by
    intro hnil
    exact (hold .directory (by simp [hnil])).1 rfl
  have hroom := FileTree.hasRoom_of_locate h.well hlocate hplace
  have htarget : targetIsPath item = true := by
    cases item <;> simp_all [FileItem.isLink, targetIsPath]
  have hwell : (tree.put (place ++ rest) item).WellFormed :=
    h.well.put hroom (fun hget => absurd rfl (hold _ hget).1) htarget
  have hextended : tree.IsExtendedBy (tree.put (place ++ rest) item) :=
    isExtendedBy_put hplace fun old hget => (hold old hget).2
  have hunlinked : ∀ below target,
      (tree.put (place ++ rest) item).get? (place ++ below) ≠ some (.link target) := by
    intro below target
    rw [get?_put hplace]
    split
    · intro heq
      rw [Option.some.inj heq] at hitem
      cases hitem
    · exact h.unlinked below target
  refine ⟨⟨hwell, h.leads.extend hextended fun target => ?_, hunlinked, ?_⟩, hextended, ?_⟩
  · simpa using hunlinked [] target
  · intro below found hget
    rw [get?_put hplace] at hget
    split at hget
    · rename_i heq
      obtain rfl := List.append_cancel_left heq
      exact ⟨(locate_eq_ok_iff.1 hlocate).1, hfits⟩
    · exact h.reached below found hget
  · intro outside hprefix
    rw [get?_put hplace, if_neg]
    rintro rfl
    exact hprefix List.prefix_rfl

end FileTree.Region

end Stencil
