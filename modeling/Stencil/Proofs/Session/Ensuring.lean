import Stencil.Proofs.FileTree.Inside
import Stencil.Proofs.FileTree.Unlinked
import Stencil.Proofs.Session.Files

/-!
# Directories that can be made

Where no links are, the directories that names lead to below a place can be made
if and only if nothing but directories is in their way.  Whether they can be
made or not, nothing changes but what is on that way.
-/

namespace Stencil

open FileTree Session

/-! ## Names that are free for directories -/

/-- Nothing but directories is on the way over names below a place, and the names fit. -/
structure FileTree.Admits (tree : FileTree) (place : Location) (names : List Text) : Prop where
  fits : ∀ name ∈ names, Fits name
  free : ∀ front, front <+: names →
    tree.get? (place ++ front) = none ∨ tree.get? (place ++ front) = some .directory

namespace FileTree

variable {tree later : FileTree} {followLast : Bool} {links : Nat} {here place middle : Location}
  {names rest front : List Text} {name : Text} {path : FilePath} {item : FileItem}

namespace Admits

theorem of_prefix (h : tree.Admits place names) (hfront : front <+: names) :
    tree.Admits place front :=
  ⟨fun name hname => h.fits name (hfront.subset hname),
    fun other hother => h.free other (hother.trans hfront)⟩

theorem tail (h : tree.Admits place (name :: rest)) : tree.Admits (place ++ [name]) rest := by
  refine ⟨fun other hother => h.fits other (List.mem_cons_of_mem _ hother), fun front hfront => ?_⟩
  rw [List.append_assoc]
  exact h.free (name :: front) (List.cons_prefix_cons.2 ⟨rfl, hfront⟩)

theorem before (h : later.Admits place names) (hadds : tree.AddsDirectories later) :
    tree.Admits place names := by
  refine ⟨h.fits, fun front hfront => ?_⟩
  cases hget : tree.get? (place ++ front) with
  | none => exact .inl rfl
  | some item =>
      have hlater := hadds.kept _ _ hget
      rcases h.free front hfront with hnone | hdirectory
      · rw [hnone] at hlater
        cases hlater
      · rw [hdirectory] at hlater
        exact .inr hlater.symm

/-- New directories are not in the way. -/
theorem of_adds (h : tree.Admits place names) (hadds : tree.AddsDirectories later) :
    later.Admits place names := by
  refine ⟨h.fits, fun front hfront => ?_⟩
  cases hlater : later.get? (place ++ front) with
  | none => exact .inl rfl
  | some item =>
      rcases hadds.added _ _ hlater with hget | ⟨-, rfl⟩
      · rcases h.free front hfront with hnone | hdirectory
        · rw [hnone] at hget
          cases hget
        · rw [hdirectory] at hget
          exact .inr hget.symm
      · exact .inr rfl

end Admits

theorem walkNames_append {jump : Location → List Text → Except Cause Location}
    (h : Walks tree true links here names middle) (hunlinked : tree.IsUnlinked)
    (hmiddle : tree.get? middle = some .directory) :
    tree.walkNames followLast jump here (names ++ rest) =
      tree.walkNames followLast jump middle rest := by
  induction h with
  | done => rfl
  | dot _ ih =>
      rw [List.cons_append, walkNames, if_pos rfl]
      exact ih hmiddle
  | up _ ih =>
      rw [List.cons_append, walkNames, if_neg (by decide), if_pos rfl]
      exact ih hmiddle
  | free _ hget | file _ hget => simp [hget] at hmiddle
  | enter hfits hget _ ih =>
      rw [List.cons_append, walkNames, if_neg hfits.1, if_neg hfits.2.1,
        if_neg (Nat.not_lt.2 hfits.2.2)]
      simp only [hget]
      exact ih hmiddle
  | link _ hget _ | jump _ hget _ _ => exact absurd hget (hunlinked _ _)

/-- A way stops at the first directory that is missing. -/
theorem walkNames_missing {jump : Location → List Text → Except Cause Location}
    (h : tree.Admits here (front ++ rest)) (hhere : tree.get? here = some .directory)
    (hrest : rest ≠ []) (hmissing : tree.get? (here ++ front) = none) :
    tree.walkNames followLast jump here (front ++ rest) = .error .missing := by
  induction front generalizing here with
  | nil =>
      rw [List.append_nil, hhere] at hmissing
      cases hmissing
  | cons name front ih =>
      have hfits := h.fits name List.mem_cons_self
      rw [List.cons_append, walkNames, if_neg hfits.1, if_neg hfits.2.1,
        if_neg (Nat.not_lt.2 hfits.2.2)]
      rcases h.free [name] (by simp) with hnone | hdirectory
      · simp [hnone, hrest]
      · simp only [hdirectory]
        exact ih h.tail hdirectory (by simpa using hmissing)

theorem locate_missing (hunlinked : tree.IsUnlinked)
    (hproper : (path.below (front ++ rest)).IsProper)
    (husable : PathText.IsUsable (path.below (front ++ rest)).text)
    (hlocate : tree.locate here path.text true = .ok place)
    (hplace : tree.get? place = some .directory) (h : tree.Admits place (front ++ rest))
    (hrest : rest ≠ []) (hmissing : tree.get? (place ++ front) = none) :
    tree.locate here (path.below (front ++ rest)).text followLast =
      .error (.system .missing (path.below (front ++ rest)).text) := by
  have hpath := FilePath.isProper_of_below _ hproper
  obtain ⟨-, origin, hstart, hway⟩ := locate_eq_ok_iff.1 hlocate
  rw [(PathText.spells_text hpath).walks_iff] at hway
  have hstart' : tree.start here (path.below (front ++ rest)).text = some origin := by
    rw [start, hproper.isAbsolute_text, FilePath.isAbsolute_below, ← hpath.isAbsolute_text]
    exact hstart
  have hwalk : tree.walk followLast mostLinks origin
      (PathText.steps (path.below (front ++ rest)).text) = .error .missing := by
    rw [hproper.steps_text (by simp [hrest]), FilePath.parts_below]
    exact (walkNames_append hway hunlinked hplace).trans
      (walkNames_missing h hplace hrest hmissing)
  obtain ⟨hfault, hne, hlong⟩ := husable
  simp [locate, hfault, hne, Nat.not_le.2 hlong, hstart', hwalk]

theorem locate_child (hproper : (path.below [name]).IsProper)
    (husable : PathText.IsUsable (path.below [name]).text)
    (hlocate : tree.locate here path.text true = .ok place)
    (hplace : tree.get? place = some .directory) (hfits : Fits name)
    (hfree : tree.get? (place ++ [name]) = none ∨ tree.get? (place ++ [name]) = some .directory) :
    tree.locate here (path.below [name]).text followLast = .ok (place ++ [name]) := by
  have hpath := FilePath.isProper_of_below _ hproper
  obtain ⟨-, origin, hstart, hway⟩ := locate_eq_ok_iff.1 hlocate
  rw [(PathText.spells_text hpath).walks_iff] at hway
  refine locate_eq_ok_iff.2 ⟨husable, origin, ?_, ?_⟩
  · rw [start, hproper.isAbsolute_text, FilePath.isAbsolute_below, ← hpath.isAbsolute_text]
    exact hstart
  · rw [hproper.steps_text (by simp), FilePath.parts_below]
    have hlast : Walks tree followLast 0 place [name] (place ++ [name]) := by
      rcases hfree with hnone | hdirectory
      · exact .free hfits hnone
      · exact .enter hfits hdirectory .done
    exact hway.append hplace (by simp) hlast

end FileTree

/-! ## Making them -/

namespace Action

variable {s s' : Session} {base path : FilePath} {place origin : Location} {names front : List Text}
  {name : Text} {r : Except Failure Unit}

/-- A directory can be made in a directory, unless something else is there. -/
theorem exists_ends_makeOr (hproper : (path.below [name]).IsProper)
    (husable : PathText.IsUsable (path.below [name]).text)
    (hlocate : s.tree.locate s.here path.text true = .ok place)
    (hplace : s.tree.get? place = some .directory) (hfits : Fits name)
    (hfree : s.tree.get? (place ++ [name]) = none ∨
      s.tree.get? (place ++ [name]) = some .directory) (unlessAbove : Failure → Action Unit) :
    ∃ s', (makeOr (path.below [name]).text unlessAbove).Ends s (.ok ()) s' := by
  have hchild : ∀ followLast, s.tree.locate s.here (path.below [name]).text followLast =
      .ok (place ++ [name]) := fun _ =>
    locate_child hproper husable hlocate hplace hfits hfree
  rcases hfree with hnone | hdirectory
  · exact ⟨_, ends_orElseIf.2 (.inl ⟨(), makeDirectory_free (hchild false) hnone, rfl⟩)⟩
  · exact ⟨s, (ends_makeOr_of_look (look_eq_ok_iff.2 ⟨_, hchild true, hdirectory⟩)).2 ⟨rfl, rfl⟩⟩

/-- What names are made below: a directory at its place. -/
structure Grounds (s : Session) (base : FilePath) (place : Location) : Prop where
  well : s.tree.WellFormed
  unlinked : s.tree.IsUnlinked
  located : s.tree.locate s.here base.text true = .ok place
  directory : s.tree.get? place = some .directory

namespace Grounds

variable (h : Grounds s base place)
include h

theorem look : s.tree.look s.here base.text true = .ok .directory :=
  look_eq_ok_iff.2 ⟨place, h.located, h.directory⟩

theorem look_above (hbase : base.IsProper) (hfront : front <+: base.parts) :
    s.tree.look s.here (FilePath.mk base.anchor front).text true = .ok .directory := by
  obtain ⟨rest, hrest⟩ := hfront
  have heq : (FilePath.mk base.anchor front).below rest = base := by simp [FilePath.below, hrest]
  by_cases hnil : rest = []
  · subst hnil
    rw [FilePath.below_nil] at heq
    rw [heq]
    exact h.look
  · have hlocated := h.located
    rw [← heq] at hlocated hbase
    exact FilePath.look_of_below h.well hbase hnil hlocated

theorem ensures (hensures : Ensures s s') : Grounds s' base place := by
  obtain ⟨hwell, hadds⟩ := hensures.adds h.well
  have hdirectory := hadds.kept _ _ h.directory
  refine ⟨hwell, fun other target hget => ?_, ?_, hdirectory⟩
  · rcases hadds.added _ _ hget with hold | ⟨-, hitem⟩
    · exact h.unlinked _ _ hold
    · cases hitem
  · rw [hensures.here]
    exact locate_extend hadds.kept.isExtendedBy h.located (by simp [h.directory])

theorem placeFrom_below (hproper : (base.below names).IsProper)
    (hup : ∀ name ∈ names, name ≠ (".." : Text)) :
    (base.below names).placeFrom s.here = place ++ names := by
  rw [placeFrom_eq (FilePath.isProper_of_below _ hproper) h.unlinked h.located,
    FilePath.placeFrom, FilePath.placeFrom, FilePath.parts_below, normal_append,
    FilePath.isAbsolute_below]
  refine normal_of_plain _ fun name hname => ?_
  obtain ⟨hne, hdot, -⟩ := hproper name (List.mem_append_right _ hname)
  exact ⟨hne, hdot, hup name hname⟩

theorem place_of_locate (hproper : (base.below names).IsProper)
    (hup : ∀ name ∈ names, name ≠ (".." : Text)) {other : Location} {followLast : Bool}
    (hlocate : s.tree.locate s.here (base.below names).text followLast = .ok other) :
    other = place ++ names :=
  (placeFrom_eq hproper h.unlinked hlocate).trans (h.placeFrom_below hproper hup)

theorem locate_of_get? (hproper : (base.below names).IsProper)
    (husable : PathText.IsUsable (base.below names).text) (hfits : ∀ name ∈ names, Fits name)
    {item : FileItem} (hget : s.tree.get? (place ++ names) = some item) :
    s.tree.locate s.here (base.below names).text true = .ok (place ++ names) := by
  by_cases hnil : names = []
  · subst hnil
    rw [FilePath.below_nil, List.append_nil]
    exact h.located
  have hbase := FilePath.isProper_of_below _ hproper
  obtain ⟨-, origin, hstart, hway⟩ := locate_eq_ok_iff.1 h.located
  rw [(PathText.spells_text hbase).walks_iff] at hway
  refine locate_eq_ok_iff.2 ⟨husable, origin, ?_, ?_⟩
  · rw [FileTree.start, hproper.isAbsolute_text, FilePath.isAbsolute_below, ← hbase.isAbsolute_text]
    exact hstart
  · rw [hproper.steps_text (by simp [hnil]), FilePath.parts_below]
    have hdown : s.tree.Walks true 0 place names (place ++ names) :=
      .down h.well hfits (fun target hitem => h.unlinked _ target (hitem ▸ hget)) hget
    exact hway.append h.directory hnil hdown

/-- If a directory is there, nothing is in its way. -/
theorem admits_of_look (hproper : (base.below names).IsProper)
    (hup : ∀ name ∈ names, name ≠ (".." : Text))
    (hlook : s.tree.look s.here (base.below names).text true = .ok .directory) :
    s.tree.get? (place ++ names) = some .directory ∧ s.tree.Admits place names := by
  obtain ⟨other, hlocate, hget⟩ := look_eq_ok_iff.1 hlook
  obtain rfl := h.place_of_locate hproper hup hlocate
  obtain ⟨links, hway⟩ := FilePath.walks_of_below h.well hproper h.located hlocate
  refine ⟨hget, fun name hname => ?_, ?_⟩
  · exact hway.fits hname (hproper name (List.mem_append_right _ hname)).2.1 (hup name hname)
  · rintro front ⟨rest, rfl⟩
    rw [← List.append_assoc] at hget
    by_cases hrest : rest = []
    · subst hrest
      rw [List.append_nil] at hget
      exact .inr hget
    · exact .inr (h.well.get?_above hrest hget)

end Grounds

/-- Directories are made if nothing is in their way. -/
theorem exists_ends_ensureDirectories (h : Grounds s base place)
    (hproper : (base.below names).IsProper) (husable : PathText.IsUsable (base.below names).text)
    (hadmits : s.tree.Admits place names) :
    ∃ s', (ensureDirectories (base.below names)).Ends s (.ok ()) s' := by
  induction names using List.reverseRecOn with
  | nil =>
      rw [FilePath.below_nil]
      exact ⟨s, (ends_ensureDirectories_of_look h.look).2 ⟨rfl, rfl⟩⟩
  | append_singleton front name ih =>
      have hbelow : base.below (front ++ [name]) = (base.below front).below [name] := by simp
      have hfront : front <+: front ++ [name] := List.prefix_append _ _
      have hproper' : (base.below front).IsProper :=
        FilePath.isProper_of_below [name] (hbelow ▸ hproper)
      have husable' : PathText.IsUsable (base.below front).text := by
        have := FilePath.isUsable_parent hproper husable
        rwa [hbelow, FilePath.parent_below] at this
      have hup : ∀ other ∈ front, other ≠ (".." : Text) := fun other hother =>
        (hadmits.fits other (List.mem_append_left _ hother)).2.1
      have hfits : Fits name := hadmits.fits name (by simp)
      have hopen : ∀ {t : Session}, Grounds t base place →
          t.tree.Admits place (front ++ [name]) →
          t.tree.get? (place ++ front) = some .directory → ∀ unlessAbove,
          ∃ s', (makeOr ((base.below front).below [name]).text unlessAbove).Ends t (.ok ()) s' := by
        intro t ht hadmits' hdirectory unlessAbove
        exact exists_ends_makeOr (hbelow ▸ hproper) (hbelow ▸ husable)
          (ht.locate_of_get? hproper' husable' (fun other hother =>
            hadmits.fits other (List.mem_append_left _ hother)) hdirectory) hdirectory hfits
          (by simpa using hadmits'.free _ List.prefix_rfl) unlessAbove
      have hreverse : (base.below (front ++ [name])).parts.reverse =
          name :: (base.below front).parts.reverse := by simp
      have htext : (FilePath.mk base.anchor (name :: (base.below front).parts.reverse).reverse).text =
          ((base.below front).below [name]).text := by simp [FilePath.below]
      rw [ensureDirectories, hreverse]
      show ∃ s', (ensureNames base.anchor _).Ends s (.ok ()) s'
      rw [ensureNames, htext]
      rcases hadmits.free front hfront with hmissing | hdirectory
      · -- those above are made first, and then there is room for the last one
        obtain ⟨m, hensure⟩ := ih hproper' husable' (hadmits.of_prefix hfront)
        have hensures := follows_ensureDirectories _ _ _ _ hensure
        have hm := h.ensures hensures
        have hdirectory := (hm.admits_of_look hproper' hup
          (look_of_ensureDirectories h.well hensure)).1
        obtain ⟨s', hlast⟩ := hopen hm (hadmits.of_adds (hensures.adds h.well).2)
          hdirectory fun failure => throw failure
        have hlocate : s.tree.locate s.here (base.below (front ++ [name])).text false = _ :=
          locate_missing h.unlinked hproper husable h.located h.directory hadmits (by simp) hmissing
        rw [hbelow] at hlocate
        exact ⟨s', ends_orElseIf.2 (.inr (.inl ⟨_, s, makeDirectory_unlocated hlocate, rfl,
          hensure.bind hlast⟩))⟩
      · exact hopen h hadmits hdirectory _

/-- They can be made if and only if nothing is in their way. -/
theorem ends_ensureDirectories_iff (h : Grounds s base place)
    (hproper : (base.below names).IsProper) (hup : ∀ name ∈ names, name ≠ (".." : Text)) :
    (∃ s', (ensureDirectories (base.below names)).Ends s (.ok ()) s') ↔
      PathText.IsUsable (base.below names).text ∧ s.tree.Admits place names := by
  constructor
  · rintro ⟨s', hend⟩
    have hlook := look_of_ensureDirectories h.well hend
    obtain ⟨_, hlocate, -⟩ := look_eq_ok_iff.1 hlook
    have hensures := follows_ensureDirectories _ _ _ _ hend
    have hadmits := ((h.ensures hensures).admits_of_look hproper hup hlook).2
    exact ⟨(locate_eq_ok_iff.1 hlocate).1, hadmits.before (hensures.adds h.well).2⟩
  · exact fun ⟨husable, hadmits⟩ => exists_ends_ensureDirectories h hproper husable hadmits

/-- Nothing but what is on the way is new. -/
def ChangesOn (base : FilePath) (place : Location) (names : List Text) (s s' : Session) : Prop :=
  Ensures s s' ∧ (Grounds s base place → ∀ other, ¬ other <+: place ++ names →
    s'.tree.get? other = s.tree.get? other)

theorem discipline_changesOn : Discipline (ChangesOn base place names) where
  refl s := ⟨discipline_ensures.refl s, fun _ _ _ => rfl⟩
  trans h h' := ⟨discipline_ensures.trans h.1 h'.1, fun hground other hother =>
    (h'.2 (hground.ensures h.1) other hother).trans (h.2 hground other hother)⟩

theorem changesOn_makeDirectory (hproper : (base.below names).IsProper)
    (hup : ∀ name ∈ names, name ≠ (".." : Text)) (hfront : front <+: base.parts ++ names) :
    (makeDirectory (FilePath.mk base.anchor front).text).Follows (ChangesOn base place names) := by
  intro s r s' h
  refine ⟨follows_makeDirectory _ _ _ _ h, fun hground other hother => ?_⟩
  rcases ends_makeDirectory h with ⟨_, -, -, rfl⟩ | ⟨_, _, -, -, -, rfl⟩ |
    ⟨made, hlocate, hfree, -, rfl⟩
  · rfl
  · rfl
  have hmade := ne_nil_of_get? (show s.tree.get? made ≠ _ by simp [hfree])
  refine (get?_put hmade _).trans (if_neg ?_)
  rintro rfl
  rcases List.prefix_or_prefix_of_prefix hfront (List.prefix_append base.parts names) with
    ⟨rest, hrest⟩ | ⟨rest, rfl⟩
  · -- the directories above the base are there
    have hlook := hground.look_above (FilePath.isProper_of_below _ hproper) ⟨rest, hrest⟩
    obtain ⟨item, hitem⟩ := look_unfollowed hlook
    obtain ⟨found, hfound, hget⟩ := look_eq_ok_iff.1 hitem
    rw [hlocate] at hfound
    cases hfound
    rw [hfree] at hget
    cases hget
  · have hleading : rest <+: names := (List.prefix_append_right_inj _).1 hfront
    obtain ⟨more, rfl⟩ := hleading
    have hbelow : FilePath.mk base.anchor (base.parts ++ rest) = base.below rest := rfl
    rw [hbelow] at hlocate
    have hproper' : (base.below rest).IsProper :=
      FilePath.isProper_of_below more (by simpa using hproper)
    obtain rfl := hground.place_of_locate hproper'
      (fun name hname => hup name (List.mem_append_left _ hname)) hlocate
    exact hother (by simp)

theorem changesOn_ensureDirectories (hproper : (base.below names).IsProper)
    (hup : ∀ name ∈ names, name ≠ (".." : Text)) :
    (ensureDirectories (base.below names)).Follows (ChangesOn base place names) := by
  refine discipline_changesOn.ensureNames fun front hfront => ?_
  rw [List.reverse_reverse] at hfront
  exact changesOn_makeDirectory hproper hup hfront

end Action

end Stencil
