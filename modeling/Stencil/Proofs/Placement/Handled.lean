import Stencil.Placement.Filling
import Stencil.Proofs.Session.Work
import Stencil.Proofs.Session.Writing

/-!
# Files that are filled one by one

What filling a file comes to, wherever the file is and whatever fails: it is left
alone, rendered, skipped or emptied, and no other file is touched.
What each call on the way keeps is kept by filling a whole directory.
-/

namespace Stencil

open FileTree Session Action

/-! ## What files are filled with -/

namespace Placement

/-- The bytes of a file after it was filled: those of its text, rendered once. -/
def filledBytes (vars : Variables) (path : FilePath) (bytes : Bytes) : Except EncodeError Bytes :=
  if path.isBinary then .ok bytes
  else
    match Text.decode bytes with
    | .error _ => .ok bytes
    | .ok text =>
        if Template.hasPlaceholder (Text.unifyLineEnds text) then
          Text.encode (Template.renderOrKeep (Text.unifyLineEnds text) vars).content
        else .ok bytes

/-- Programs are never looked into. -/
def filled (vars : Variables) (path : FilePath) : Content → Except EncodeError Content
  | .bytes bytes => (filledBytes vars path bytes).map .bytes
  | .program program => .ok (.program program)

/-- A file that is looked into holds a text with a placeholder. -/
structure HoldsTemplate (path : FilePath) (content : Content) (text : Text) : Prop where
  textual : path.isBinary = false
  read : textOf content = .ok text
  marked : Template.hasPlaceholder text = true

section Filled

variable {vars : Variables} {path : FilePath} {content : Content} {text : Text}

theorem filled_of_isBinary (h : path.isBinary = true) : filled vars path content = .ok content := by
  cases content <;> simp [filled, filledBytes, h, Except.map]

theorem filled_of_unreadable {failure : Failure} (h : Action.textOf content = .error failure) :
    filled vars path content = .ok content := by
  cases content with
  | program program => rfl
  | bytes old =>
      cases hdecode : Text.decode old <;>
        simp [Action.textOf, hdecode, Except.mapError, Except.map] at h
      simp [filled, filledBytes, hdecode, Except.map]

theorem filled_of_text (h : Action.textOf content = .ok text)
    (hplaceholder : Template.hasPlaceholder text = false) :
    filled vars path content = .ok content := by
  cases content with
  | program program => rfl
  | bytes old =>
      cases hdecode : Text.decode old <;>
        simp [Action.textOf, hdecode, Except.mapError, Except.map] at h
      subst h
      simp [filled, filledBytes, hdecode, hplaceholder, Except.map]

/-- A template is filled with what it is rendered to. -/
theorem HoldsTemplate.filled_eq (h : HoldsTemplate path content text) :
    filled vars path content =
      (Text.encode (Template.renderOrKeep text vars).content).map .bytes := by
  obtain ⟨hbinary, hread, hmarked⟩ := h
  cases content with
  | program program =>
      cases hread
      cases hmarked
  | bytes old =>
      cases hdecode : Text.decode old <;>
        simp [Action.textOf, hdecode, Except.mapError, Except.map] at hread
      subst hread
      simp [filled, filledBytes, hbinary, hdecode, hmarked]

end Filled

end Placement

namespace Placement

/-- How work on an item ends. -/
inductive Ending where
  | filled (fallback? : Option Text)
  | skipped (kind : Text) (fallback? : Option Text) (failure : Failure)
  | broken (failure : Failure)
  deriving Repr

namespace Ending

def isSkipped : Ending → Bool
  | .skipped .. => true
  | _ => false

def result (path : Text) : Ending → Except Failure (List Text)
  | .filled fallback? => .ok (fallback?.map (unrendered path)).toList
  | .skipped kind fallback? failure =>
      .ok ((fallback?.map (unrendered path)).toList ++ [skipping kind path failure])
  | .broken failure => .error failure

end Ending

/-- What filling a file comes to, and what the file holds then. -/
inductive Handled (vars : Variables) (s : Session) (path : Text) (content : Content) :
    Ending → Content → Prop where
  | binary : (FilePath.ofText path).isBinary = true →
      Handled vars s path content (.filled none) content
  | plain {text} : textOf content = .ok text → Template.hasPlaceholder text = false →
      Handled vars s path content (.filled none) content
  | rendered {text bytes} : HoldsTemplate (.ofText path) content text →
      Text.encode (Template.renderOrKeep text vars).content = .ok bytes →
      Handled vars s path content (.filled (Template.renderOrKeep text vars).warning?) (.bytes bytes)
  | unread {failure} : (FilePath.ofText path).isBinary = false →
      s.Plans .read path failure ∨ textOf content = .error failure →
      (failure.isOfSystem || failure.isUndecodable) = true →
      Handled vars s path content (.skipped "file" none failure) content
  | unwritten {text failure} : HoldsTemplate (.ofText path) content text →
      s.Plans .write path failure → failure.isOfSystem = true →
      Handled vars s path content
        (.skipped "file" (Template.renderOrKeep text vars).warning? failure) content
  | unencodable {text error} : HoldsTemplate (.ofText path) content text →
      Text.encode (Template.renderOrKeep text vars).content = .error error →
      Handled vars s path content (.broken (.unencodable error)) (.bytes [])
  | broken {operation failure} : s.Plans operation path failure → failure.isOfSystem = false →
      Handled vars s path content (.broken failure) content

end Placement

open Placement

variable {s m s' : Session} {place : Location} {path kind message text : Text}
  {vars : Variables} {content : Content} {failure : Failure}

/-- What hinders the work later on was planned before. -/
theorem Placement.Handled.of_plans {ending : Ending} {later : Content}
    (hplans : ∀ {operation failure}, m.Plans operation path failure → s.Plans operation path failure)
    (h : Handled vars m path content ending later) : Handled vars s path content ending later := by
  cases h with
  | binary hbinary => exact .binary hbinary
  | plain hread hmarked => exact .plain hread hmarked
  | rendered htemplate hencode => exact .rendered htemplate hencode
  | unread htextual hwhy hcaught => exact .unread htextual (hwhy.imp_left hplans) hcaught
  | unwritten htemplate hplanned hsystem => exact .unwritten htemplate (hplans hplanned) hsystem
  | unencodable htemplate hencode => exact .unencodable htemplate hencode
  | broken hplanned hsystem => exact .broken (hplans hplanned) hsystem

/-- If no call is made to fail, a file that was not emptied is filled. -/
theorem Placement.Handled.filled {ending : Ending} {later : Content}
    (h : Handled vars s path content ending later) (hcalm : s.IsCalm)
    (hok : ∃ warnings, ending.result path = .ok warnings) :
    Placement.filled vars (.ofText path) content = .ok later := by
  cases h with
  | binary hbinary => exact filled_of_isBinary hbinary
  | plain hread hmarked => exact filled_of_text hread hmarked
  | rendered htemplate hencode => rw [htemplate.filled_eq, hencode, Except.map]
  | unread _ hwhy _ => exact filled_of_unreadable (hwhy.resolve_left hcalm.not_plans)
  | unwritten _ hplans _ => exact absurd hplans hcalm.not_plans
  | unencodable _ _ => simp [Ending.result] at hok
  | broken hplans _ => exact absurd hplans hcalm.not_plans

namespace Action

theorem isUndecodable_of_textOf (h : textOf content = .error failure) :
    failure.isUndecodable = true := by
  cases content with
  | program program => cases h
  | bytes bytes =>
      cases hdecode : Text.decode bytes <;>
        simp [textOf, hdecode, Except.mapError, Except.map] at h
      subst h
      rfl

theorem ends_skipped {r : Except Failure (List Text)}
    (h : (skipped kind path failure).Ends s r s') :
    s.Glances s' ∧ r = .ok [skipping kind path failure] := by
  rcases ends_bind.1 h with ⟨_, m, hprint, hlast⟩ | ⟨other, hprint, -⟩
  · obtain ⟨rfl, rfl⟩ := ends_pure.1 hlast
    exact ⟨glances_printWarning _ _ _ _ hprint, rfl⟩
  · cases ends_printWarning _ hprint

theorem ends_rewrite_of_locate {r : Except Failure (List Text)} (hwell : s.tree.WellFormed)
    (hlocate : s.tree.locate s.here (Storage.plain path) true = .ok place)
    (hget : s.tree.get? place = some (.file content))
    (htemplate : HoldsTemplate (.ofText path) content text)
    (h : (rewrite path text vars).Ends s r s') :
    ∃ ending later, Handled vars s path content ending later ∧ r = ending.result path ∧
      s.Sets place later s' := by
  rcases ends_bind.1 h with ⟨rendered, m, hrender, hwrite⟩ | ⟨other, hrender, -⟩
  case inr => cases (ends_render_glances hrender).2
  obtain ⟨hglances, hrendered⟩ := ends_render_glances hrender
  cases hrendered
  have hwell' : m.tree.WellFormed := by rwa [hglances.tree]
  have hget' : m.tree.get? place = some (.file content) := by rwa [hglances.tree]
  rw [← hglances.tree, ← hglances.here] at hlocate
  have hwritten {done : Except Failure Unit} {t : Session} (hend : Action.Ends (Storage.write path
      (Template.renderOrKeep text vars).content) m done t) :=
    ends_storage_write_planned hwell' hlocate hget' hend
  rcases ends_orElseIf.1 hwrite with ⟨warnings, hdone, rfl⟩ | ⟨failure, t, hfailed, hsystem, hskip⟩ |
    ⟨failure, hfailed, hsystem, rfl⟩
  · obtain ⟨_, t, hstored, hpure⟩ := ends_bind_ok.1 hdone
    obtain ⟨hr, rfl⟩ := ends_pure.1 hpure
    cases hr
    obtain ⟨_, -, hr, -⟩ | ⟨bytes, hencode, -, hsets⟩ | ⟨_, -, hr, -⟩ := hwritten hstored
    · cases hr
    · exact ⟨_, _, .rendered htemplate hencode, rfl, hglances.sets_trans hsets⟩
    · cases hr
  · -- a failure that is caught was planned, for storing a text raises none of the system
    obtain ⟨_, _, -, hpure⟩ | ⟨other, hstored, hother⟩ := ends_bind.1 hfailed
    · cases (ends_pure.1 hpure).1
    cases hother
    obtain ⟨_, hplans, hr, hmore⟩ | ⟨_, -, hr, -⟩ | ⟨_, -, hr, -⟩ := hwritten hstored
    · cases hr
      obtain ⟨_, t', hskipped, hpure⟩ | ⟨_, hskipped, -⟩ := ends_bind.1 hskip
      · obtain ⟨hlast, hwarnings⟩ := ends_skipped hskipped
        obtain ⟨rfl, rfl⟩ := ends_pure.1 hpure
        cases hwarnings
        exact ⟨_, _, .unwritten htemplate (hglances.plans hplans) hsystem, rfl,
          (hglances.trans (hmore.trans hlast)).sets hget⟩
      · cases (ends_skipped hskipped).2
    · cases hr
    · cases hr
      cases hsystem
  · obtain ⟨_, _, -, hpure⟩ | ⟨other, hstored, hother⟩ := ends_bind.1 hfailed
    · cases (ends_pure.1 hpure).1
    cases hother
    obtain ⟨_, hplans, hr, hmore⟩ | ⟨_, -, hr, -⟩ | ⟨_, hencode, hr, hsets⟩ := hwritten hstored
    · cases hr
      exact ⟨_, _, .broken (hglances.plans hplans) hsystem, rfl, (hglances.trans hmore).sets hget⟩
    · cases hr
    · cases hr
      exact ⟨_, _, .unencodable htemplate hencode, rfl, hglances.sets_trans hsets⟩

theorem ends_fillFile_of_locate {r : Except Failure (List Text)} (hwell : s.tree.WellFormed)
    (hlocate : s.tree.locate s.here (Storage.plain path) true = .ok place)
    (hget : s.tree.get? place = some (.file content)) (h : (fillFile path vars).Ends s r s') :
    ∃ ending later, Handled vars s path content ending later ∧ r = ending.result path ∧
      s.Sets place later s' := by
  rw [fillFile] at h
  split at h
  · rename_i hbinary
    obtain ⟨rfl, rfl⟩ := ends_pure.1 h
    exact ⟨_, _, .binary hbinary, rfl, (Glances.refl _).sets hget⟩
  rename_i hbinary
  obtain ⟨found, m, hread, hnext⟩ := ends_attempt_bind.1 h
  obtain ⟨hglances, hfound⟩ := ends_readText_planned (look_eq_ok_iff.2 ⟨place, hlocate, hget⟩) hread
  cases found with
  | ok text =>
      have hsource : textOf content = .ok text := by
        rcases hfound with hfound | ⟨_, -, hfound⟩
        · exact hfound.symm
        · cases hfound
      dsimp only at hnext
      split at hnext
      · rename_i hmarked
        rw [← hglances.tree, ← hglances.here] at hlocate
        obtain ⟨ending, later, hhandled, hr, hsets⟩ := ends_rewrite_of_locate
          (by rwa [hglances.tree]) hlocate (by rwa [hglances.tree])
          ⟨Bool.eq_false_iff.2 hbinary, hsource, hmarked⟩ hnext
        exact ⟨ending, later, hhandled.of_plans hglances.plans, hr, hglances.sets_trans hsets⟩
      · rename_i hmarked
        obtain ⟨rfl, rfl⟩ := ends_pure.1 hnext
        exact ⟨_, _, .plain hsource (Bool.eq_false_iff.2 hmarked), rfl, hglances.sets hget⟩
  | error failure =>
      have hwhy : s.Plans .read path failure ∨ textOf content = .error failure := by
        rcases hfound with hfound | ⟨_, hplans, hfound⟩
        · exact .inr hfound.symm
        · cases hfound
          exact .inl hplans
      dsimp only at hnext
      split at hnext
      · rename_i hcaught
        obtain ⟨hskipped, rfl⟩ := ends_skipped hnext
        exact ⟨_, _, .unread (Bool.eq_false_iff.2 hbinary) hwhy hcaught, rfl,
          (hglances.trans hskipped).sets hget⟩
      · rename_i hcaught
        obtain ⟨rfl, rfl⟩ := ends_throw.1 hnext
        rcases hwhy with hplans | hsource
        · have hsystem : failure.isOfSystem = false := by
            by_contra hsystem
            exact hcaught (by simp [Bool.not_eq_false _ ▸ hsystem])
          exact ⟨_, _, .broken hplans hsystem, rfl, hglances.sets hget⟩
        · exact absurd (isUndecodable_of_textOf hsource) fun hundecodable =>
            hcaught (by simp [hundecodable])

/-! ## Relations that filling keeps -/

section Following

variable {rel : Session → Session → Prop} (hrel : Discipline rel)
  (hpeeks : ∀ s s' : Session, s.Peeks s' → rel s s')
  (hprint : ∀ message, (printWarning message).Follows rel)
include hrel hprint

theorem follows_skipped_of (kind path : Text) (failure : Failure) :
    (skipped kind path failure).Follows rel :=
  hrel.bind (hprint _) fun _ => hrel.pure _

include hpeeks

theorem follows_fillItems_of {descend : Text → Action (List Text)}
    (hitem : ∀ name, (fillItem descend (.ofText path) vars name).Follows rel) :
    (fillItems descend vars path).Follows rel := by
  refine hrel.bind ((peeks_names _).mono hpeeks).attempt fun found => ?_
  cases found with
  | error failure => exact hrel.orThrow (follows_skipped_of hrel hprint _ _ _)
  | ok names => exact hrel.bind (hrel.mapM fun name _ => hitem name) fun _ => hrel.pure _

/-- A relation that holds of looking around, of showing warnings and of filling one item holds of
filling directories. -/
theorem follows_fillDirectory_of
    (hitem : ∀ descend, (∀ path, (descend path).Follows rel) → ∀ directory : FilePath,
      directory.IsProper → ∀ name, (fillItem descend directory vars name).Follows rel)
    (depth : Nat) (path : Text) : (fillDirectory vars depth path).Follows rel := by
  have hitems : ∀ descend, (∀ path, (descend path).Follows rel) → ∀ path,
      (fillItems descend vars path).Follows rel := fun descend hdescend path =>
    follows_fillItems_of hrel hpeeks hprint
      (hitem descend hdescend _ (FilePath.isProper_ofText path))
  induction depth generalizing path with
  | zero => exact hitems _ (fun _ => hrel.pure _) path
  | succ depth ih => exact hitems _ ih path

end Following

end Action

end Stencil
