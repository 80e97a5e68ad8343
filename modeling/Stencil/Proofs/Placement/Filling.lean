import Stencil.Placement.Basic
import Stencil.Proofs.Placement.Handled

/-!
# Filled regions

Filling works on the files of a region and on nothing else.  If no call is made
to fail, every file of it is rendered once, or left alone if it is no template.
-/

namespace Stencil

open FileTree Session Action

open Placement

variable {s m s' : Session} {place rest : Location} {path : FilePath} {vars : Variables}
  {text : Text} {content : Content} {failure : Failure}

namespace Action

/-! ## Filling files -/

/-- How filling what is at a place of a region ends. -/
structure FillEnds (vars : Variables) (path : FilePath) (place rest : Location) (s : Session)
    (r : Except Failure (List Text)) (s' : Session) : Prop where
  region : s'.tree.Region s'.here path place
  changes : Changes (place ++ rest) s s'
  filled : s.IsCalm → (∃ warnings, r = .ok warnings) → ∀ more content,
    s.tree.get? (place ++ (rest ++ more)) = some (.file content) →
      ∃ later, Placement.filled vars (path.below (rest ++ more)) content = .ok later ∧
        s'.tree.get? (place ++ (rest ++ more)) = some (.file later)

/-- Nothing lies below a file. -/
theorem FillEnds.of_file {r : Except Failure (List Text)}
    (hregion : s.tree.Region s.here path place)
    (hfile : s.tree.get? (place ++ rest) = some (.file content))
    (hlater : s'.tree.Region s'.here path place) (hchanges : Changes (place ++ rest) s s')
    (hfilled : s.IsCalm → (∃ warnings, r = .ok warnings) →
      ∃ later, Placement.filled vars (path.below rest) content = .ok later ∧
        s'.tree.get? (place ++ rest) = some (.file later)) :
    FillEnds vars path place rest s r s' := by
  refine ⟨hlater, hchanges, fun hcalm hr more other hget => ?_⟩
  by_cases hmore : more = []
  · subst hmore
    rw [List.append_nil] at hget ⊢
    rw [hfile] at hget
    cases hget
    exact hfilled hcalm hr
  · rw [← List.append_assoc] at hget
    rw [hregion.well.get?_above hmore hget] at hfile
    cases hfile

/-- What was only looked at need not be filled if nothing is there. -/
theorem FillEnds.of_looks {r : Except Failure (List Text)}
    (hregion : s.tree.Region s.here path place) (hlooks : s.Looks s')
    (hnone : s.IsCalm → s.tree.get? (place ++ rest) = none) :
    FillEnds vars path place rest s r s' := by
  refine ⟨hlooks.region hregion, hlooks.changes _, fun hcalm _ more content hget => ?_⟩
  rw [← List.append_assoc, hregion.well.get?_below (hnone hcalm) more] at hget
  cases hget

theorem FillEnds.looks_trans {r : Except Failure (List Text)} (hlooks : s.Looks m)
    (h : FillEnds vars path place rest m r s') : FillEnds vars path place rest s r s' :=
  ⟨h.region, (hlooks.changes _).trans h.changes, fun hcalm hr more content hget =>
    h.filled (hlooks.isCalm hcalm) hr more content (by rwa [hlooks.tree])⟩

theorem ends_fillFile {r : Except Failure (List Text)}
    (hregion : s.tree.Region s.here path place) (hrest : rest.IsProper)
    (hfile : s.tree.get? (place ++ rest) = some (.file content))
    (h : (fillFile (path.below rest).text vars).Ends s r s') :
    FillEnds vars path place rest s r s' := by
  have hpath : FilePath.ofText (path.below rest).text = path.below rest :=
    (hregion.leads.proper.below hrest).ofText_text
  have hlocate : s.tree.locate s.here (Storage.plain (path.below rest).text) true =
      .ok (place ++ rest) := by
    rw [Storage.plain, hpath]
    exact hregion.locate_of_get? hfile
  obtain ⟨ending, later, hhandled, rfl, hsets⟩ :=
    ends_fillFile_of_locate hregion.well hlocate hfile h
  refine .of_file hregion hfile (hsets.region hfile hregion) (hsets.changes hfile)
    fun hcalm hok => ⟨later, ?_, hsets.held⟩
  have hfilled := hhandled.filled hcalm hok
  rwa [hpath] at hfilled

/-! ## Filling directories -/

/-- An action fills directories that lie at least so deep. -/
def Fills (vars : Variables) (filler : Text → Action (List Text)) (depth : Nat) : Prop :=
  ∀ path place rest s r s', s.tree.Region s.here path place → Location.IsProper rest →
    longestPath ≤ rest.length + depth → s.tree.get? (place ++ rest) = some .directory →
    (filler (path.below rest).text).Ends s r s' →
    FillEnds vars path place rest s r s'

section Items

variable {descend : Text → Action (List Text)} {depth : Nat} {name : Text}

/-- What cannot be looked at is skipped or breaks the work off, and nothing is done to the files. -/
theorem looks_of_failure {kind : Text} {r : Except Failure (List Text)}
    (h : (if failure.isOfSystem then skipped kind text failure else throw failure :
      Action (List Text)).Ends s r s') : s.Looks s' :=
  discipline_looks.orThrow (follows_skipped_of discipline_looks follows_printWarning _ _ _) _ _ _ h

theorem ends_fillItem (hdescend : Fills vars descend depth)
    (hregion : s.tree.Region s.here path place) (hrest : rest.IsProper) (hname : IsName name)
    (hdepth : longestPath ≤ rest.length + (depth + 1)) {r : Except Failure (List Text)}
    (h : (fillItem descend (path.below rest) vars name).Ends s r s') :
    FillEnds vars path place (rest ++ [name]) s r s' := by
  have hnames := hrest.concat hname
  rw [fillItem, FilePath.child_of_isName hname, FilePath.below_below] at h
  obtain ⟨found, m, hitem, hnext⟩ := ends_attempt_bind.1 h
  obtain ⟨hlooks, hfound, hcalm⟩ := ends_storage_item hitem
  have hregion' := hlooks.region hregion
  cases found with
  | error failure =>
      refine .of_looks hregion (hlooks.trans (looks_of_failure hnext)) fun hcalm' => ?_
      by_contra hsome
      obtain ⟨item, hitem⟩ := Option.ne_none_iff_exists'.1 hsome
      have hlook : s.tree.look s.here (path.below (rest ++ [name])).text true = .ok item :=
        (hregion.look_iff hnames).2 hitem
      rw [← hcalm hcalm'] at hlook
      cases hlook
  | ok item =>
      have hitem : m.tree.get? (place ++ (rest ++ [name])) = some item := by
        rw [hlooks.tree]
        exact (hregion.look_iff hnames).1 (hfound item rfl)
      cases item with
      | directory =>
          refine .looks_trans hlooks (hdescend _ _ _ _ _ _ hregion' hnames ?_ hitem hnext)
          simp only [List.length_append, List.length_singleton]
          omega
      | file content => exact .looks_trans hlooks (ends_fillFile hregion' hnames hitem hnext)
      | link target => exact absurd hitem (hregion'.unlinked _ _)

/-- The items of a directory are filled name by name. -/
theorem ends_fillNames (hdescend : Fills vars descend depth)
    (hregion : s.tree.Region s.here path place) (hrest : rest.IsProper)
    (hdepth : longestPath ≤ rest.length + (depth + 1))
    (hdirectory : s.tree.get? (place ++ rest) = some .directory)
    {r : Except Failure (List (List Text))}
    (h : ((s.tree.names (place ++ rest)).mapM
      (fillItem descend (path.below rest) vars)).Ends s r s') :
    FillEnds vars path place rest s (r.map List.flatten) s' := by
  have hnamed : ∀ name ∈ s.tree.names (place ++ rest), IsName name :=
    fun _ => hregion.well.isName_of_mem_names
  have hstep : ∀ name ∈ s.tree.names (place ++ rest), ∀ t r t',
      t.tree.Region t.here path place → True →
      (fillItem descend (path.below rest) vars name).Ends t r t' →
      t'.tree.Region t'.here path place ∧ Changes (place ++ rest ++ [name]) t t' := by
    intro name hname t r t' hregion' _ hend
    have hitem := ends_fillItem hdescend hregion' hrest (hnamed name hname) hdepth hend
    refine ⟨hitem.region, ?_⟩
    rw [List.append_assoc]
    exact hitem.changes
  obtain ⟨hlater, hchanges, -, hall⟩ := ends_mapM_names (fun _ => True) hregion.well.names_nodup
    hstep hregion (fun _ _ => trivial) h
  refine ⟨hlater, hchanges, fun hcalm hok more content hget => ?_⟩
  cases more with
  | nil =>
      rw [List.append_nil, hdirectory] at hget
      cases hget
  | cons name more =>
      -- no other name touches what is below this one, so it is found as it was and left as it is
      have hassoc : place ++ (rest ++ name :: more) = place ++ rest ++ name :: more := by simp
      rw [hassoc] at hget
      have hname := hregion.well.mem_names_of_below hget
      obtain ⟨warnings, hwarnings⟩ := hok
      cases r with
      | error failure => cases hwarnings
      | ok results =>
          obtain ⟨t₁, t₂, result, -, hregion₁, hagrees, hone, hbefore, hafter⟩ :=
            hall results rfl name hname
          have hitem := ends_fillItem hdescend hregion₁ hrest (hnamed name hname) hdepth hone
          have hget₁ : t₁.tree.get? (place ++ (rest ++ [name] ++ more)) = some (.file content) := by
            have hsame := hbefore more
            rw [hget] at hsame
            simpa using hsame
          obtain ⟨later, hfilled, hput⟩ :=
            hitem.filled (hagrees.isCalm hcalm) ⟨_, rfl⟩ more content hget₁
          refine ⟨later, by simpa using hfilled, ?_⟩
          rw [hassoc, hafter more]
          simpa using hput

theorem fills_fillItems (hdescend : Fills vars descend depth) :
    Fills vars (fillItems descend vars) (depth + 1) := by
  intro path place rest s r s' hregion hrest hdepth hdirectory h
  have hpath : FilePath.ofText (path.below rest).text = path.below rest :=
    (hregion.leads.proper.below hrest).ofText_text
  have hlocate : s.tree.locate s.here (path.below rest).text true = .ok (place ++ rest) :=
    hregion.locate_of_get? hdirectory
  have hnames : namesAt s.tree s.here (path.below rest).text =
      .ok (s.tree.names (place ++ rest)) :=
    namesAt_eq_ok_iff.2 ⟨_, hlocate, hdirectory, rfl⟩
  rw [fillItems, hpath] at h
  obtain ⟨found, m, hlist, hnext⟩ := ends_attempt_bind.1 h
  obtain ⟨hlooks, hlisted, hcalm⟩ := ends_storage_names hlist
  cases found with
  | error failure =>
      have hlooks' := hlooks.trans (looks_of_failure hnext)
      refine ⟨hlooks'.region hregion, hlooks'.changes _, fun hcalm' => ?_⟩
      have hfailed := hcalm hcalm'
      rw [hnames] at hfailed
      cases hfailed
  | ok names =>
      obtain rfl := Except.ok.inj (hnames.symm.trans (hlisted names rfl))
      obtain ⟨results, hend, rfl⟩ := ends_bind_pure.1 hnext
      rw [← hlooks.tree] at hdirectory hend
      exact .looks_trans hlooks
        (ends_fillNames hdescend (hlooks.region hregion) hrest hdepth hdirectory hend)

theorem fills_fillDirectory (depth : Nat) : Fills vars (fillDirectory vars depth) (depth + 1) := by
  induction depth with
  | zero =>
      refine fills_fillItems fun path place rest s r s' hregion _ hdepth hdirectory h => ?_
      have := hregion.length_lt hdirectory
      omega
  | succ depth ih => exact fills_fillItems ih

end Items

/-- A target that is there, be it a file or a directory, is filled. -/
theorem ends_fill {r : Except Failure (List Text)} (hregion : s.tree.Region s.here path place)
    (hsome : (s.tree.get? place).isSome) (h : (fill path.text vars).Ends s r s') :
    FillEnds vars path place [] s r s' := by
  have hnil := Location.isProper_nil
  have hbelow : path.below [] = path := FilePath.below_nil
  rw [fill, hregion.leads.proper.ofText_text] at h
  rcases ends_bind.1 h with ⟨found, m, hlook, hnext⟩ | ⟨failure, hlook, rfl⟩
  case inr =>
    have hlooks := (ends_storage_isDirectory hlook).1
    exact ⟨hlooks.region hregion, hlooks.changes _, by simp⟩
  obtain ⟨hlooks, hfound, -⟩ := ends_storage_isDirectory hlook
  have hregion' := hlooks.region hregion
  obtain ⟨item, hitem⟩ := Option.isSome_iff_exists.1 hsome
  have hlook' : s.tree.look s.here (path.below []).text true = .ok item :=
    (hregion.look_iff hnil).2 (by rwa [List.append_nil])
  rw [hbelow] at hlook'
  have hget : m.tree.get? (place ++ []) = some item := by rwa [List.append_nil, hlooks.tree]
  have htold := hfound found rfl
  rw [hlook'] at htold
  obtain rfl := Except.ok.inj htold
  refine .looks_trans hlooks ?_
  cases item with
  | directory =>
      refine fills_fillDirectory longestPath path place [] _ _ _ hregion' hnil ?_ hget ?_
      · simp
      · rw [hbelow]
        exact hnext
  | file content =>
      refine ends_fillFile hregion' hnil hget ?_
      rw [hbelow]
      exact hnext
  | link target => exact absurd hget (hregion'.unlinked _ _)

end Action

end Stencil
