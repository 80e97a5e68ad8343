import Stencil.Proofs.Session.Files

/-!
# Changes below a place

Actions that change nothing but what is below a place.  If an action is done for
some names of a directory, one after the other, each name has its part of the
directory to itself.
-/

namespace Stencil

open FileTree

/-- Nothing but files below a place is changed, and nothing is removed. -/
structure Session.Changes (place : Location) (s s' : Session) : Prop extends s.Agrees s' where
  journal : s'.journal = s.journal
  manifests : s'.manifests = s.manifests
  below : s.tree.ChangesBelow place s'.tree

namespace Session

variable {s m s' : Session} {place rest : Location} {path : FilePath}

theorem Looks.changes (h : s.Looks s') (place : Location) : Changes place s s' :=
  ⟨h.toAgrees, h.journal, h.manifests, h.tree ▸ .refl place s.tree⟩

theorem Changes.refl (place : Location) (s : Session) : Changes place s s :=
  (Looks.refl s).changes place

theorem Changes.trans (h : Changes place s m) (h' : Changes place m s') : Changes place s s' :=
  ⟨h.toAgrees.trans h'.toAgrees, h'.journal.trans h.journal, h'.manifests.trans h.manifests,
    h.below.trans h'.below⟩

theorem Changes.above (h : Changes (place ++ rest) s s') : Changes place s s' :=
  ⟨h.toAgrees, h.journal, h.manifests, h.below.above⟩

theorem Looks.region (h : s.Looks s')
    (hregion : s.tree.Region s.here path place) : s'.tree.Region s'.here path place := by
  rwa [h.tree, h.here]

/-- What a region is like after something was put into it. -/
theorem changes_put (item : FileItem) (hregion : s.tree.Region s.here path place)
    (hrest : rest.IsProper) {followLast : Bool} {other : Location}
    (hlocate : s.tree.locate s.here (path.below rest).text followLast = .ok other)
    (hold : ∀ old, s.tree.get? (place ++ rest) = some old →
      old ≠ .directory ∧ item.outline = old.outline)
    (hitem : item.isLink = false) :
    (s.tree.put (place ++ rest) item).Region s.here path place ∧
      Changes (place ++ rest) s { s with tree := s.tree.put (place ++ rest) item } :=
  have hput := hregion.put hrest hlocate hold hitem
  ⟨hput.1, ⟨rfl, rfl, id⟩, rfl, rfl, hput.2⟩

end Session

namespace Action

open Session

variable {β : Type} {place base : Location}

/-- What is below a name of a directory is the same in two sessions. -/
def SameUnder (base : Location) (name : Text) (s s' : Session) : Prop :=
  ∀ rest, s'.tree.get? (base ++ name :: rest) = s.tree.get? (base ++ name :: rest)

/-- Each name finds its part of the directory as it was, and leaves it as it will be. -/
theorem ends_mapM_names {f : Text → Action β} {inv : Session → Prop}
    (pre : Option FileItem → Prop) {names : List Text} (hnodup : names.Nodup)
    (hstep : ∀ name ∈ names, ∀ s r s', inv s → pre (s.tree.get? (base ++ [name])) →
      (f name).Ends s r s' → inv s' ∧ Changes (base ++ [name]) s s')
    {s : Session} (hinv : inv s) (hpre : ∀ name ∈ names, pre (s.tree.get? (base ++ [name])))
    ⦃r : Except Failure (List β)⦄ ⦃s' : Session⦄ (h : (names.mapM f).Ends s r s') :
    inv s' ∧ Changes base s s' ∧ (∀ name, name ∉ names → SameUnder base name s s') ∧
      ∀ results, r = .ok results → ∀ name ∈ names, ∃ m m' result, result ∈ results ∧ inv m ∧
        s.Agrees m ∧ (f name).Ends m (.ok result) m' ∧ SameUnder base name s m ∧
        SameUnder base name m' s' := by
  induction names generalizing s r s' with
  | nil =>
      obtain ⟨rfl, rfl⟩ := ends_pure.1 h
      exact ⟨hinv, .refl _ _, fun _ _ _ => rfl, by simp⟩
  | cons first names ih =>
      obtain ⟨hfresh, hrest⟩ := List.nodup_cons.1 hnodup
      rw [List.mapM_cons] at h
      have hone := hstep first List.mem_cons_self s
      have hothers : ∀ m, Changes (base ++ [first]) s m → ∀ name ∈ names,
          pre (m.tree.get? (base ++ [name])) := by
        intro m hchanges name hname
        have hne : name ≠ first := fun heq => hfresh (heq ▸ hname)
        rw [hchanges.below.beside hne []]
        exact hpre name (List.mem_cons_of_mem _ hname)
      have hpre' := hpre first List.mem_cons_self
      have hstep' := fun name hname => hstep name (List.mem_cons_of_mem first hname)
      rcases ends_bind.1 h with ⟨b, m, hfirst, hlast⟩ | ⟨failure, hfirst, rfl⟩
      · obtain ⟨hm, hchanges⟩ := hone _ _ hinv hpre' hfirst
        have hbeside : ∀ name, name ≠ first → SameUnder base name s m :=
          fun name hne rest => hchanges.below.beside hne rest
        obtain ⟨told, hmap, rfl⟩ := ends_bind_pure.1 hlast
        obtain ⟨hs', hmore, hsame, hall⟩ := ih hrest hstep' hm (hothers m hchanges) hmap
        refine ⟨hs', hchanges.above.trans hmore, fun name hname rest => ?_, ?_⟩
        · rw [hsame name (fun hmem => hname (List.mem_cons_of_mem _ hmem)) rest]
          exact hbeside name (fun heq => hname (heq ▸ List.mem_cons_self)) rest
        · intro results hresults name hname
          cases told with
          | error failure => cases hresults
          | ok bs =>
              cases hresults
              rcases List.mem_cons.1 hname with rfl | hname
              · exact ⟨s, m, b, List.mem_cons_self, hinv, .refl s, hfirst, fun _ => rfl,
                  hsame name hfresh⟩
              · obtain ⟨m₁, m₂, result, hmem, hm₁, hagrees, hend, hbefore, hafter⟩ :=
                  hall bs rfl name hname
                have hne : name ≠ first := fun heq => hfresh (heq ▸ hname)
                exact ⟨m₁, m₂, result, List.mem_cons_of_mem _ hmem, hm₁,
                  hchanges.toAgrees.trans hagrees, hend,
                  fun rest => (hbefore rest).trans (hbeside name hne rest), hafter⟩
      · obtain ⟨hs', hchanges⟩ := hone _ _ hinv hpre' hfirst
        exact ⟨hs', hchanges.above, fun name hname rest =>
          hchanges.below.beside (fun heq => hname (heq ▸ List.mem_cons_self)) rest, by simp⟩

end Action

end Stencil
