import Stencil.Proofs.Placement.Placing
import Stencil.Proofs.Session.Alike

/-!
# Targets that are placed alike

In sessions that agree on a target and its sources, the target is preserved in
both or made in both, and the journals gain the same.
-/

namespace Stencil

open FileTree Session Action

namespace Placement

/-- What placing does after the directories above the target were made. -/
def settle (suffix : Text) (source target : FilePath) (vars : Variables) : Action Bool := do
  if ← Storage.exists? target.text then
    record Journal.preserve target.text
    return false
  else
    make suffix source target vars
    return true

theorem place_eq (suffix : Text) (source target : FilePath) (vars : Variables) :
    place suffix source target vars = (do
      Storage.ensureDirectory target.parent.text
      settle suffix source target vars) :=
  rfl

end Placement

namespace Scope

variable {scope : Scope} {root : FilePath × Location}

/-- A source that is there, or whose suffixed form may be read. -/
structure Offers (scope : Scope) (suffix : Text) (source : FilePath) (s : Session) :
    Prop where
  proper : source.IsProper
  literal : ∃ place, (source, place) ∈ scope.sources
  suffixed : (s.tree.look s.here source.text false).isOk = true ∨
    ∃ place, (FilePath.ofText (source.text ++ suffix), place) ∈ scope.sources

/-- A source is still offered once there are more files. -/
theorem Offers.of_kept (h : scope.Offers suffix source s) (hkept : s.tree.IsKeptBy t.tree)
    (hhere : t.here = s.here) : scope.Offers suffix source t :=
  ⟨h.proper, h.literal, h.suffixed.imp_left fun hthere => hhere ▸ isOk_look_kept hkept hthere⟩

theorem names_of_mem (hroot : root ∈ scope.sources) (hproper : root.1.IsProper) :
    scope.Names root [] root.1.text :=
  ⟨List.mem_cons_of_mem _ hroot, FilePath.goesOn_text hproper⟩

end Scope

namespace Action

open Placement

variable {scope : Scope} {s t : Session} {root : FilePath × Location} {rest : Location}
  {source found : FilePath} {suffix text name : Text} {vars : Variables}
  {note : Journal → Text → Journal}

/-! ## Calls -/

section Calls

variable (hnames : scope.Names root rest text)
include hnames

theorem carries_storage_exists? : (Storage.exists? text).Carries scope.Agree :=
  .interruptible calm_of_agree (carries_exists? hnames)

theorem carries_storage_isDirectory : (Storage.isDirectory text).Carries scope.Agree :=
  .interruptible calm_of_agree (carries_isDirectory hnames)

theorem carries_storage_item : (Storage.item text).Carries scope.Agree :=
  .guarded calm_of_agree (carries_look hnames)

theorem carries_storage_names : (Storage.names text).Carries scope.Agree :=
  .guarded calm_of_agree (carries_namesIn hnames)

end Calls

/-- What names a directory tells of are names that it can have. -/
theorem isName_of_storage_names {m : Session} {names : List Text} (hwell : s.tree.WellFormed)
    (h : (Storage.names text).Ends s (.ok names) m) : ∀ name ∈ names, IsName name := by
  obtain ⟨place, -, -, rfl⟩ := namesAt_eq_ok_iff.1 ((ends_storage_names h).2.1 names rfl)
  exact fun name => hwell.isName_of_mem_names

/-! ## Filling -/

theorem carries_skipped (kind path : Text) (failure : Failure) :
    (skipped kind path failure).Carries scope.Agree :=
  (carries_printWarning _).bind fun _ => .pure _

theorem carries_render (template : Text) : (render template vars).Carries scope.Agree := by
  unfold render
  dsimp only
  split
  · exact (carries_printWarning _).bind fun _ => .pure _
  · exact (Carries.pure ()).bind fun _ => .pure _

section Filling

variable (hproper : scope.target.IsProper) (hrest : rest.IsProper)
include hproper hrest

theorem carries_rewrite (content : Text) :
    (rewrite (scope.target.below rest).text content vars).Carries scope.Agree := by
  refine (carries_render content).bind fun rendered => .orElseIf ?_ fun failure =>
    (carries_skipped _ _ failure).bind fun _ => .pure _
  refine .bind (.guarded calm_of_agree ?_) fun _ => .pure _
  rw [(hproper.below hrest).ofText_text]
  exact carries_writeFile hproper hrest _

theorem carries_fillFile : (fillFile (scope.target.below rest).text vars).Carries scope.Agree := by
  have htargets : scope.Targets rest (scope.target.below rest).text :=
    FilePath.goesOn_below hproper hrest
  unfold fillFile
  split
  · exact .pure _
  refine .bind (.attempt (.guarded calm_of_agree ?_)) fun read => ?_
  · rw [Storage.plain, (hproper.below hrest).ofText_text]
    exact carries_readText htargets.names
  · cases read with
    | ok content =>
        dsimp only
        split
        · exact carries_rewrite hproper hrest content
        · exact .pure _
    | error failure =>
        dsimp only
        split
        · exact carries_skipped _ _ _
        · exact .throw _

end Filling

section Items

variable {descend : Text → Action (List Text)}

/-- A way of filling directories that ends alike in sessions that agree. -/
def FillsAlike (scope : Scope) (descend : Text → Action (List Text)) : Prop :=
  ∀ rest : Location, rest.IsProper → (descend (scope.target.below rest).text).Carries scope.Agree

theorem carries_fillItem (hproper : scope.target.IsProper) (hdescend : FillsAlike scope descend)
    (hrest : rest.IsProper) (hname : IsName name) :
    (fillItem descend (scope.target.below rest) vars name).Carries scope.Agree := by
  have hnames := hrest.concat hname
  have htargets : scope.Targets (rest ++ [name]) (scope.target.below (rest ++ [name])).text :=
    FilePath.goesOn_below hproper hnames
  unfold fillItem
  rw [FilePath.child_of_isName hname, FilePath.below_below]
  refine (carries_storage_item htargets.names).attempt.bind fun found => ?_
  cases found with
  | error failure =>
      dsimp only
      split
      · exact carries_skipped _ _ _
      · exact .throw _
  | ok item =>
      cases item with
      | directory => exact hdescend _ hnames
      | file content => exact carries_fillFile hproper hnames
      | link target => exact .pure _

theorem fillsAlike_fillItems (hproper : scope.target.IsProper)
    (hdescend : FillsAlike scope descend) : FillsAlike scope (fillItems descend vars) := by
  intro rest hrest s t h
  have htargets : scope.Targets rest (scope.target.below rest).text :=
    FilePath.goesOn_below hproper hrest
  unfold fillItems
  rw [(hproper.below hrest).ofText_text]
  refine ((carries_storage_names htargets.names).attempt s t h).bind fun found m m' hlist hm => ?_
  cases found with
  | error failure =>
      dsimp only
      split
      · exact carries_skipped _ _ _ _ _ hm
      · exact Carries.throw _ _ _ hm
  | ok names =>
      obtain ⟨_, hfound, hlist⟩ := ends_attempt.1 hlist
      cases hfound
      have hnames := isName_of_storage_names h.well.1 hlist
      refine Carries.bind (.mapM fun name hname => ?_) (fun _ => .pure _) _ _ hm
      exact carries_fillItem hproper hdescend hrest (hnames name hname)

theorem fillsAlike_fillDirectory (hproper : scope.target.IsProper) (depth : Nat) :
    FillsAlike scope (fillDirectory vars depth) := by
  induction depth with
  | zero => exact fillsAlike_fillItems hproper fun _ _ => .pure _
  | succ depth ih => exact fillsAlike_fillItems hproper ih

end Items

theorem carries_fill (hproper : scope.target.IsProper) :
    (fill scope.target.text vars).Carries scope.Agree := by
  have htargets : scope.Targets [] scope.target.text := FilePath.goesOn_text hproper
  unfold fill
  rw [hproper.ofText_text]
  refine (carries_storage_isDirectory htargets.names).bind fun found => ?_
  split
  · have hall : FillsAlike scope (fillDirectory vars longestPath) :=
      fillsAlike_fillDirectory hproper longestPath
    have hnone := hall [] Location.isProper_nil
    rwa [FilePath.below_nil] at hnone
  · have hfile : (fillFile (scope.target.below []).text vars).Carries scope.Agree :=
      carries_fillFile hproper Location.isProper_nil
    rwa [FilePath.below_nil] at hfile

/-! ## Recording -/

section Recording

variable (hnote : ∀ journal more path, note (Journal.add journal more) path =
  journal.add (note more path))
include hnote

theorem carries_recordItems (hproper : scope.target.IsProper) {descend : FilePath → Action Unit}
    (hdescend : ∀ rest : Location, rest.IsProper →
      (descend (scope.target.below rest)).Carries scope.Agree) (hrest : rest.IsProper) :
    (recordItems note descend (scope.target.below rest)).Carries scope.Agree := by
  intro s t h
  have htargets : scope.Targets rest (scope.target.below rest).text :=
    FilePath.goesOn_below hproper hrest
  refine ((carries_storage_names htargets.names).attempt s t h).bind fun found m m' hlist hm => ?_
  cases found with
  | error failure =>
      dsimp only
      split
      · exact carries_printWarning _ _ _ hm
      · exact Carries.throw _ _ _ hm
  | ok names =>
      obtain ⟨_, hfound, hlist⟩ := ends_attempt.1 hlist
      cases hfound
      refine Carries.forM (fun name hname => ?_) _ _ hm
      have hnamed := isName_of_storage_names h.well.1 hlist name hname
      have hnames := hrest.concat hnamed
      have htargets' : scope.Targets (rest ++ [name]) (scope.target.below (rest ++ [name])).text :=
        FilePath.goesOn_below hproper hnames
      unfold recordItem
      rw [FilePath.child_of_isName hnamed, FilePath.below_below]
      refine (carries_storage_item htargets'.names).attempt.bind fun found => ?_
      cases found with
      | error failure =>
          dsimp only
          split
          · exact carries_printWarning _
          · exact .throw _
      | ok item =>
          cases item with
          | directory => exact hdescend _ hnames
          | file content => exact carries_note fun journal more => hnote journal more _
          | link target => exact .pure _

theorem carries_recordTree (hproper : scope.target.IsProper) (depth : Nat) (hrest : rest.IsProper) :
    (recordTree note depth (scope.target.below rest)).Carries scope.Agree := by
  induction depth generalizing rest with
  | zero => exact carries_recordItems hnote hproper (fun _ _ => .pure _) hrest
  | succ depth ih => exact carries_recordItems hnote hproper (fun _ hnames => ih hnames) hrest

theorem carries_record (hproper : scope.target.IsProper) :
    (record note scope.target.text).Carries scope.Agree := by
  have htargets : scope.Targets [] scope.target.text := FilePath.goesOn_text hproper
  unfold record
  rw [hproper.ofText_text]
  refine (carries_storage_isDirectory htargets.names).bind fun found => ?_
  split
  · have h := carries_recordTree hnote hproper longestPath Location.isProper_nil
    rwa [FilePath.below_nil] at h
  · exact carries_note fun journal more => hnote journal more _

end Recording

/-! ## Making a target -/

theorem carriesFrom_findSource (hoffers : scope.Offers suffix source s) (h : scope.Agree s t) :
    (findSource suffix source).CarriesFrom scope.Agree s t := by
  obtain ⟨place, hplace⟩ := hoffers.literal
  have hnames := Scope.names_of_mem hplace hoffers.proper
  refine (carries_storage_exists? hnames s t h).bind fun isThere m m' hexists hm => ?_
  split
  · exact Carries.pure _ _ _ hm
  · rename_i hmissing
    have htold := (ends_storage_exists? hexists).2.1 isThere rfl
    obtain ⟨place', hplace'⟩ := hoffers.suffixed.resolve_left fun hthere =>
      hmissing (htold ▸ hthere)
    refine Carries.bind (carries_storage_exists? (Scope.names_of_mem hplace'
      (FilePath.isProper_ofText _))) (fun isThere => ?_) _ _ hm
    split
    · exact .pure _
    · exact .throw _

/-- The source that is found is one of those that may be read. -/
theorem names_of_findSource {m : Session} (hoffers : scope.Offers suffix source s)
    (h : (findSource suffix source).Ends s (.ok found) m) :
    ∃ root, scope.Names root [] found.text ∧ FilePath.ofText found.text = found := by
  obtain ⟨place, hplace⟩ := hoffers.literal
  obtain ⟨isThere, u, hexists, hnext⟩ := ends_bind_ok.1 h
  have htold := (ends_storage_exists? hexists).2.1 isThere rfl
  cases isThere with
  | true =>
      obtain ⟨hfound, -⟩ := ends_pure.1 hnext
      cases hfound
      exact ⟨_, Scope.names_of_mem hplace hoffers.proper, hoffers.proper.ofText_text⟩
  | false =>
      obtain ⟨place', hplace'⟩ := hoffers.suffixed.resolve_left (by simp [htold])
      obtain ⟨isThere, u', -, hlast⟩ := ends_bind_ok.1 hnext
      split at hlast
      · obtain ⟨hfound, -⟩ := ends_pure.1 hlast
        cases hfound
        exact ⟨_, Scope.names_of_mem hplace' (FilePath.isProper_ofText _),
          (FilePath.isProper_ofText _).ofText_text⟩
      · cases (ends_throw.1 hlast).1

theorem carriesFrom_make (hproper : scope.target.IsProper) (hoffers : scope.Offers suffix source s)
    (h : scope.Agree s t) (hfree : s.tree.look s.here scope.target.text true ≠ .ok .directory) :
    (make suffix source scope.target vars).CarriesFrom scope.Agree s t := by
  refine (carriesFrom_findSource hoffers h).bind fun found m m' hfind hm => ?_
  obtain ⟨root, hnames, hofText⟩ := names_of_findSource hoffers hfind
  have hlooks := (ends_findSource hfind).1
  have hcopy : (Storage.copy found.text scope.target.text).CarriesFrom scope.Agree m m' := by
    intro r s' hend
    rw [Storage.copy, hm.calm.1.ends_guarded, hofText, hproper.ofText_text] at hend
    obtain ⟨t', hend', ht⟩ := carriesFrom_copy hproper hnames hm
      (by rwa [hlooks.tree, hlooks.here]) _ _ hend
    refine ⟨t', ?_, ht⟩
    rwa [Storage.copy, hm.calm.2.ends_guarded, hofText, hproper.ofText_text]
  refine hcopy.bind fun _ n n' _ hn => ?_
  refine Carries.bind (carries_fill hproper) (fun warnings => ?_) _ _ hn
  exact (carries_note fun _ _ => Journal.warn_add).bind fun _ =>
    carries_record (fun _ _ _ => Journal.create_add) hproper

/-- The target is preserved in both sessions, or it is made in both. -/
theorem carriesFrom_settle (hproper : scope.target.IsProper)
    (hoffers : scope.Offers suffix source s) (h : scope.Agree s t) :
    (settle suffix source scope.target vars).CarriesFrom scope.Agree s t := by
  have htargets : scope.Targets [] scope.target.text := FilePath.goesOn_text hproper
  refine (carries_storage_exists? htargets.names s t h).bind fun isThere m m' hexists hm => ?_
  obtain ⟨hlooks, htold, -⟩ := ends_storage_exists? hexists
  have hthere := htold isThere rfl
  split
  · exact Carries.bind (carries_record (fun _ _ _ => Journal.preserve_add) hproper)
      (fun _ => .pure _) _ _ hm
  · rename_i hmissing
    have hfree : m.tree.look m.here scope.target.text true ≠ .ok .directory := by
      intro hlook
      rw [hlooks.tree, hlooks.here] at hlook
      exact hmissing (hthere ▸ isOk_iff.2 (look_unfollowed hlook))
    have hoffers' : scope.Offers suffix source m :=
      hoffers.of_kept (hlooks.tree ▸ .refl _) hlooks.here
    exact (carriesFrom_make hproper hoffers' hm hfree).bind fun _ _ _ _ hn => Carries.pure _ _ _ hn

end Action

end Stencil
