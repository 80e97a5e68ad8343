import Stencil.Proofs.FileTree.Inside
import Stencil.Proofs.Session.Files

/-!
# Directories that are new

A directory that is made together with those above it is new, unless it was there
already.  A pair of dots spoils this if it stands behind a directory that is just
made, because it leads back to one that is not new.
-/

namespace Stencil

open FileTree Action

/-- A path that rises only as far as directories are there. -/
def FilePath.RisesIn (path : FilePath) (tree : FileTree) (here : Location) : Prop :=
  ∃ front back, path.parts = front ++ back ∧ (".." : Text) ∉ back ∧
    tree.look here (FilePath.mk path.anchor front).text true = .ok .directory

variable {s s' : Session} {tree : FileTree} {here : Location} {path : FilePath}

theorem FilePath.look_anchor (habsolute : path.isAbsolute = true) :
    tree.look here (FilePath.mk path.anchor []).text true = .ok .directory := by
  have hroot : ∀ text : Text, PathText.IsUsable text → PathText.isAbsolute text = true →
      PathText.steps text = [("." : Text)] → tree.look here text true = .ok .directory := by
    intro text husable hstart hsteps
    refine look_eq_ok_iff.2 ⟨[], locate_eq_ok_iff.2 ⟨husable, [], ?_, ?_⟩, rfl⟩
    · rw [start, if_pos hstart]
    · rw [hsteps]
      exact .dot .done
  cases hanchor : path.anchor with
  | here => simp [isAbsolute, hanchor] at habsolute
  | root => exact hroot _ ⟨by decide, by decide, by decide⟩ (by decide) (by decide)
  | doubleRoot => exact hroot _ ⟨by decide, by decide, by decide⟩ (by decide) (by decide)

theorem FilePath.risesIn_of_not_mem (habsolute : path.isAbsolute = true)
    (hparts : (".." : Text) ∉ path.parts) : path.RisesIn tree here :=
  ⟨[], path.parts, rfl, hparts, look_anchor habsolute⟩

namespace Action

/-- A name of a new directory leads to what is new as well. -/
theorem get?_of_fresh {place other : Location} {name : Text} {links : Nat} {later : FileTree}
    (hwell : tree.WellFormed) (hadds : tree.AddsDirectories later) (hfree : tree.get? place = none)
    (hname : name ≠ ("." : Text) ∧ name ≠ (".." : Text))
    (h : Walks later true links place [name] other) : tree.get? other = none := by
  have heq : other = place ++ [name] := by
    refine h.eq_append (fun other hother => List.mem_singleton.1 hother ▸ hname) ?_
    intro below target hlink
    rcases hadds.added _ _ hlink with hold | ⟨-, hitem⟩
    · rw [hwell.get?_below hfree below] at hold
      cases hold
    · cases hitem
  rw [heq]
  exact hwell.get?_below hfree [name]

/-- Names without pairs of dots, below a directory that is there, lead to a new directory, or to
one that was there as well. -/
theorem fresh_of_ensureNames {anchor : Anchor} {front back : List Text} (hwell : s.tree.WellFormed)
    (hproper : (FilePath.mk anchor (front ++ back)).IsProper) (hback : (".." : Text) ∉ back)
    (hfront : s.tree.look s.here (FilePath.mk anchor front).text true = .ok .directory)
    (h : (ensureNames anchor (front ++ back).reverse).Ends s (.ok ()) s') :
    s.tree.look s.here (FilePath.mk anchor (front ++ back)).text true = .ok .directory ∨
      ∃ place, s.tree.get? place = none ∧
        s'.tree.locate s'.here (FilePath.mk anchor (front ++ back)).text true = .ok place := by
  induction back using List.reverseRecOn generalizing s' with
  | nil => exact .inl (by rwa [List.append_nil])
  | append_singleton back name ih =>
      obtain ⟨hback, hname⟩ : (".." : Text) ∉ back ∧ name ≠ (".." : Text) := by
        simpa [eq_comm] using hback
      rw [← List.append_assoc] at hproper h ⊢
      have hdot : name ≠ ("." : Text) := (hproper name (by simp)).2.1
      have hproper' : (FilePath.mk anchor (front ++ back)).IsProper :=
        FilePath.isProper_of_below [name] hproper
      have hnames : (front ++ back ++ [name]).reverse = name :: (front ++ back).reverse := by simp
      rw [hnames, ensureNames, ← hnames, List.reverse_reverse] at h
      have hmade {m t : Session} (hkept : s.tree.IsKeptBy m.tree) (hwell : m.tree.WellFormed)
          (hmake : (makeDirectory (FilePath.mk anchor (front ++ back ++ [name])).text).Ends m
            (.ok ()) t) : ∃ place, s.tree.get? place = none ∧
              t.tree.locate t.here (FilePath.mk anchor (front ++ back ++ [name])).text true =
                .ok place := by
        obtain ⟨place, hfree, -, -, hlocate⟩ := locate_of_makeDirectory hwell hmake
        exact ⟨place, hkept.get?_eq_none hfree, hlocate⟩
      rcases ends_makeOr_ok h with hmake | ⟨hlook, -⟩ | ⟨failure, habove⟩
      · exact .inr (hmade (.refl _) hwell hmake)
      · exact .inl hlook
      -- the directory above is made first, and it is new or it was there
      obtain ⟨_, m, habove, hlast⟩ := ends_bind_ok.1 habove
      have hensures := follows_ensureNames anchor _ _ _ _ habove
      obtain ⟨hwell', hadds⟩ := hensures.adds hwell
      rcases ends_makeOr_ok hlast with hmake | ⟨hlook, rfl⟩ | ⟨failure, hthrow⟩
      · exact .inr (hmade hadds.kept hwell' hmake)
      · rcases ih hproper' hback habove with hthere | ⟨place, hfree, hlocate⟩
        · left
          obtain ⟨-, rfl⟩ := (ends_ensureDirectories_of_look hthere).1 habove
          exact hlook
        · obtain ⟨other, hother, -⟩ := look_eq_ok_iff.1 hlook
          obtain ⟨links, hway⟩ := FilePath.walks_of_below hwell'
            (show ((FilePath.mk anchor (front ++ back)).below [name]).IsProper from hproper)
            hlocate hother
          exact .inr ⟨other, get?_of_fresh hwell hadds hfree ⟨hdot, hname⟩ hway, hother⟩
      · cases (ends_throw.1 hthrow).1

/-- A directory that is made is new, or was there, if its path rises only as far as directories
are there. -/
theorem look_or_fresh_of_ensureDirectories (hwell : s.tree.WellFormed) (hproper : path.IsProper)
    (hrises : path.RisesIn s.tree s.here) (h : (ensureDirectories path).Ends s (.ok ()) s') :
    s.tree.look s.here path.text true = .ok .directory ∨
      ∃ place, s.tree.get? place = none ∧ s'.tree.locate s'.here path.text true = .ok place := by
  obtain ⟨anchor, parts⟩ := path
  obtain ⟨front, back, rfl, hback, hfront⟩ := hrises
  exact fresh_of_ensureNames hwell hproper hback hfront h

theorem fresh_of_ensureDirectories {failure : Failure} (hwell : s.tree.WellFormed)
    (hproper : path.IsProper) (hrises : path.RisesIn s.tree s.here)
    (hfree : s.tree.look s.here path.text false = .error failure)
    (h : (ensureDirectories path).Ends s (.ok ()) s') :
    ∃ place, s.tree.get? place = none ∧ s'.tree.locate s'.here path.text true = .ok place := by
  rcases look_or_fresh_of_ensureDirectories hwell hproper hrises h with hlook | hfresh
  · obtain ⟨item, hitem⟩ := look_unfollowed hlook
    rw [hitem] at hfree
    cases hfree
  · exact hfresh

end Action

end Stencil
