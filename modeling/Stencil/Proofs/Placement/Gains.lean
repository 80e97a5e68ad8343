import Stencil.Proofs.FileTree.Inside
import Stencil.Proofs.Placement.Placing

/-!
# Where new items are

What is put into a tree for a path is a directory on the way of the path, or it
lies where the path leads to.  An action that works for some paths gains nothing
else, whichever of its calls fail.
-/

namespace Stencil

open FileTree Session Action Placement

/-- What lies on the way of a path: a directory that a leading part of the path leads to, or
something at the place of the path or below it. -/
inductive FilePath.Serves (tree : FileTree) (here : Location) (path : FilePath)
    (place : Location) : Prop where
  | way (front : List Text) (isFront : front <+: path.parts)
      (located : tree.locate here (FilePath.mk path.anchor front).text true = .ok place)
      (isDirectory : tree.get? place = some .directory)
  | below (base : Location) (located : tree.locate here path.text true = .ok base)
      (isBelow : base <+: place)

/-- Nothing is changed, and what is new lies on the way of one of the paths. -/
structure Session.Gains (paths : FilePath → Prop) (s s' : Session) : Prop where
  here : s'.here = s.here
  added : s.tree.IsAddedTo s'.tree
  served : ∀ place item, s.tree.get? place = none → s'.tree.get? place = some item →
    ∃ path, paths path ∧ path.Serves s'.tree s'.here place

def Session.GainsFor (paths : FilePath → Prop) (s s' : Session) : Prop :=
  s.tree.WellFormed → s.Gains paths s'

variable {s m s' : Session} {tree later : FileTree} {here place : Location} {item : FileItem}
  {path target source : FilePath} {paths more : FilePath → Prop} {suffix : Text}
  {vars : Variables}

namespace FilePath.Serves

theorem extended (h : path.Serves tree here place) (hwell : tree.WellFormed)
    (hextended : tree.IsExtendedBy later) (hget : tree.get? place = some item) :
    path.Serves later here place := by
  cases h with
  | way front hfront hlocate hdirectory =>
      exact .way front hfront (locate_extend hextended hlocate (by simp [hget]))
        (hextended.directory hdirectory)
  | below base hlocate hbelow =>
      obtain ⟨rest, rfl⟩ := hbelow
      have hbase : tree.get? base ≠ none := fun hnone => by
        simp [hwell.get?_below hnone rest] at hget
      exact .below base (locate_extend hextended hlocate (absurd · hbase)) (List.prefix_append _ _)

/-- A file that serves a path lies where the path leads to. -/
theorem below_of_file {content : Content} (h : path.Serves tree here place)
    (hfile : tree.get? place = some (.file content)) :
    ∃ base, tree.locate here path.text true = .ok base ∧ base <+: place := by
  cases h with
  | way front _ _ hdirectory =>
      rw [hfile] at hdirectory
      cases hdirectory
  | below base hlocate hbelow => exact ⟨base, hlocate, hbelow⟩

/-- Without links, what serves a path that stays inside another one serves that one as well. -/
theorem of_below {names : List Text} (h : (path.below names).Serves tree here place)
    (hwell : tree.WellFormed) (hproper : (path.below names).IsProper)
    (hnames : PathText.risesAbove 0 names = false)
    (hlinks : ∀ base, tree.locate here path.text true = .ok base →
      ∀ below target, tree.get? (base ++ below) ≠ some (.link target)) :
    path.Serves tree here place := by
  -- a part of the names leads from the place of the path to one below it
  have hinside : ∀ {front place}, front <+: names → front ≠ [] →
      tree.locate here (path.below front).text true = .ok place →
      ∃ base, tree.locate here path.text true = .ok base ∧ base <+: place := by
    rintro front place ⟨back, rfl⟩ hfront hlocate
    have hproper' : (path.below front).IsProper :=
      isProper_of_below back (by simpa using hproper)
    obtain ⟨base, hbase, -⟩ := look_eq_ok_iff.1 (look_of_below hwell hproper' hfront hlocate)
    obtain ⟨links, hway⟩ := walks_of_below hwell hproper' hbase hlocate
    exact ⟨base, hbase, hway.stays (List.append_nil _).symm
      (PathText.risesAbove_append hnames) (hlinks base hbase)⟩
  cases h with
  | way front hfront hlocate hdirectory =>
      rcases List.prefix_or_prefix_of_prefix hfront (List.prefix_append path.parts names) with
        hfront | ⟨rest, rfl⟩
      · exact .way front hfront hlocate hdirectory
      · by_cases hnil : rest = []
        · subst hnil
          exact .way _ (by simp) hlocate hdirectory
        · obtain ⟨base, hbase, hbelow⟩ :=
            hinside ((List.prefix_append_right_inj _).1 hfront) hnil hlocate
          exact .below base hbase hbelow
  | below base hlocate hbelow =>
      by_cases hnil : names = []
      · subst hnil
        rw [below_nil] at hlocate
        exact .below base hlocate hbelow
      · obtain ⟨base', hbase, hbelow'⟩ := hinside List.prefix_rfl hnil hlocate
        exact .below base' hbase (hbelow'.trans hbelow)

end FilePath.Serves

namespace Session

theorem GainsFor.of_tree (htree : s'.tree = s.tree) (hhere : s'.here = s.here) :
    s.GainsFor paths s' := by
  intro hwell
  refine ⟨hhere, by rw [htree]; exact .refl hwell, fun place item hfree hitem => ?_⟩
  rw [htree, hfree] at hitem
  cases hitem

theorem Notes.gainsFor (h : s.Notes s') : s.GainsFor paths s' := .of_tree h.tree h.here

theorem Looks.gainsFor (h : s.Looks s') : s.GainsFor paths s' := h.notes.gainsFor

theorem GainsFor.trans (h : s.GainsFor paths m) (h' : m.GainsFor paths s') :
    s.GainsFor paths s' := by
  intro hwell
  obtain ⟨hhere, hadded, hserved⟩ := h hwell
  obtain ⟨hhere', hadded', hserved'⟩ := h' hadded.well
  refine ⟨hhere'.trans hhere, hadded.trans hadded', fun place item hfree hitem => ?_⟩
  cases hmiddle : m.tree.get? place with
  | none => exact hserved' place item hmiddle hitem
  | some found =>
      obtain ⟨path, hpath, hserves⟩ := hserved place found hfree hmiddle
      rw [hhere']
      exact ⟨path, hpath, hserves.extended hadded.well hadded'.kept.isExtendedBy hmiddle⟩

end Session

namespace Action

theorem discipline_gainsFor (paths : FilePath → Prop) : Discipline (GainsFor paths) :=
  ⟨fun _ => .of_tree rfl rfl, GainsFor.trans⟩

/-! ## Making directories -/

theorem gainsFor_makeDirectory {front : List Text} (hpath : paths path)
    (hfront : front <+: path.parts) :
    (makeDirectory (FilePath.mk path.anchor front).text).Follows (GainsFor paths) := by
  intro s r s' h hwell
  cases r with
  | error failure =>
      obtain rfl := ends_makeDirectory_error h
      exact discipline_gainsFor paths |>.refl _ hwell
  | ok _ =>
      obtain ⟨place, hfree, hs, hget, hlocate⟩ := locate_of_makeDirectory hwell h
      have hensures := follows_makeDirectory _ _ _ _ h
      refine ⟨hensures.here, (hensures.addsAll hwell).added, fun other item hnone hitem => ?_⟩
      have hother : other = place := by
        by_contra hne
        have hplace := ne_nil_of_get? (show s.tree.get? place ≠ _ by simp [hfree])
        rw [hs, get?_put hplace, if_neg hne, hnone] at hitem
        cases hitem
      subst hother
      exact ⟨path, hpath, .way front hfront hlocate hget⟩

theorem gainsFor_ensureDirectory (hproper : path.IsProper) (hpath : paths target)
    (hanchor : path.anchor = target.anchor) (hfront : path.parts <+: target.parts) :
    (Storage.ensureDirectory path.text).Follows (GainsFor paths) := by
  rw [Storage.ensureDirectory, hproper.ofText_text]
  refine (discipline_gainsFor paths).guarded (fun _ _ => Looks.gainsFor) ?_
  refine (discipline_gainsFor paths).ensureNames fun front hleading => ?_
  rw [List.reverse_reverse] at hleading
  exact hanchor ▸ gainsFor_makeDirectory hpath (hleading.trans hfront)

/-! ## Placing -/

theorem gainsFor_place (htarget : target.IsProper) (hpath : paths target) :
    (Placement.place suffix source target vars).Follows (GainsFor paths) := by
  intro s r s' h hwell
  obtain ⟨told, opened, hensure, hcases⟩ := ends_place_any hwell htarget h
  have hopened : s.GainsFor paths opened := gainsFor_ensureDirectory htarget.parent hpath rfl
    (List.dropLast_prefix _) _ _ _ hensure
  have hwell' := (hopened hwell).added.well
  refine hopened.trans (fun _ => ?_) hwell
  rcases hcases with hnotes | ⟨place, hfree, hregion, hchanges, hagrees, -⟩
  · exact hnotes.gainsFor hwell'
  refine ⟨hagrees.here, hchanges.isAddedTo hwell' hfree hregion, ?_⟩
  intro other item hnone hitem
  by_cases hbelow : place <+: other
  · obtain ⟨rest, rfl⟩ := hbelow
    obtain ⟨found, hfound⟩ : ∃ found, s'.tree.get? place = some found := by
      refine Option.ne_none_iff_exists'.1 fun hnothing => ?_
      rw [hregion.well.get?_below hnothing rest] at hitem
      cases hitem
    have hlocate : s'.tree.locate s'.here (target.below []).text true = .ok (place ++ []) :=
      hregion.locate_of_get? (by rwa [List.append_nil])
    rw [FilePath.below_nil, List.append_nil] at hlocate
    exact ⟨target, hpath, .below place hlocate (List.prefix_append _ _)⟩
  · rw [hchanges.outside other hbelow, hnone] at hitem
    cases hitem

end Action

end Stencil
