import Stencil.Proofs.Scaffold.Preparation
import Stencil.Proofs.Session.DataFiles
import Stencil.Workspace

/-!
# Roots of workspaces

The root of a workspace is the nearest directory above a start that has a marker, and
the root of all directories if none has one.  Two starts below a directory have the same
root and the same templates if no directory between has a marker.
-/

namespace Stencil.Workspace

open FileTree Session Action

variable {s s' : Session} {place top : Location} {name : Text} {start : FilePath}
  {failure : Failure} {r : Except Failure FilePath}

/-! ## Markers -/

/-- Whether something is at the marker of a directory, links followed. -/
def marking (s : Session) (place : Location) : Except Failure Bool :=
  judged (fun _ => true) (s.tree.look s.here (place.path.child marker).text true)

theorem ends_isMarked {r : Except Failure Bool} :
    (isMarked place).Ends s r s' ↔ r = marking s place ∧ s' = s :=
  ends_passes

/-- No directory below the first one has a marker on the way to the second one. -/
def Unmarked (s : Session) (top place : Location) : Prop :=
  ∀ between, top <+: between → between <+: place → between ≠ top → marking s between = .ok false

theorem unmarked_self (s : Session) (place : Location) : Unmarked s place place :=
  fun _ hbelow habove hne => absurd (habove.eq_of_length_le hbelow.length_le) hne

theorem Unmarked.concat (h : Unmarked s top place)
    (hname : marking s (place ++ [name]) = .ok false) : Unmarked s top (place ++ [name]) := by
  intro between hbelow habove hne
  rcases List.prefix_concat_iff.1 habove with rfl | habove
  · exact hname
  · exact h between hbelow habove hne

/-- The way to a root: the nearest directory above a place that has a marker, or else the root of
all directories.  What cannot be told on that way ends it. -/
inductive RootOf (s : Session) (place : Location) : Except Failure Location → Prop where
  | found {top : Location} {there : Bool} (above : top <+: place)
      (unmarked : Unmarked s top place) (marks : marking s top = .ok there)
      (last : there = true ∨ top = []) : RootOf s place (.ok top)
  | unknown {top : Location} {failure : Failure} (above : top <+: place)
      (unmarked : Unmarked s top place) (marks : marking s top = .error failure) :
      RootOf s place (.error failure)

theorem RootOf.concat {found : Except Failure Location} (h : RootOf s place found)
    (hname : marking s (place ++ [name]) = .ok false) : RootOf s (place ++ [name]) found := by
  cases h with
  | found above unmarked marks last =>
      exact .found (above.trans (List.prefix_append _ _)) (unmarked.concat hname) marks last
  | unknown above unmarked marks =>
      exact .unknown (above.trans (List.prefix_append _ _)) (unmarked.concat hname) marks

/-! ## Finding the root -/

theorem rootAbove_concat (place : Location) (name : Text) :
    rootAbove (place ++ [name]).reverse = (do
      if ← isMarked (place ++ [name]) then return Location.path (place ++ [name])
      else rootAbove place.reverse) := by
  rw [List.reverse_append, List.reverse_singleton, List.singleton_append, rootAbove]
  simp only [List.reverse_cons, List.reverse_reverse]

/-- A directory without a marker leads to the root of the one above. -/
theorem ends_rootAbove_concat (hname : marking s (place ++ [name]) = .ok false) :
    (rootAbove (place ++ [name]).reverse).Ends s r s' ↔ (rootAbove place.reverse).Ends s r s' := by
  rw [rootAbove_concat, Ends.bind_iff (ends_isMarked.2 ⟨hname.symm, rfl⟩)]
  exact Iff.rfl

theorem ends_rootAbove_of_unmarked (habove : top <+: place) (h : Unmarked s top place) :
    (rootAbove place.reverse).Ends s r s' ↔ (rootAbove top.reverse).Ends s r s' := by
  obtain ⟨rest, rfl⟩ := habove
  induction rest using List.reverseRecOn with
  | nil => rw [List.append_nil]
  | append_singleton rest name ih =>
      rw [← List.append_assoc] at h ⊢
      have hname : marking s (top ++ rest ++ [name]) = .ok false := by
        refine h _ (by simp [List.append_assoc]) (List.prefix_refl _) fun heq => ?_
        simpa using congrArg List.length heq
      rw [ends_rootAbove_concat hname]
      exact ih fun between hbelow habove => h between hbelow (habove.trans (List.prefix_append _ _))

theorem ends_rootAbove_of_error (h : marking s top = .error failure) :
    (rootAbove top.reverse).Ends s (.error failure) s := by
  have hmarked : (isMarked top).Ends s (.error failure) s := ends_isMarked.2 ⟨h.symm, rfl⟩
  rcases List.eq_nil_or_concat' top with rfl | ⟨place, name, rfl⟩
  · exact ends_bind.2 (.inr ⟨failure, hmarked, rfl⟩)
  · rw [rootAbove_concat]
    exact ends_bind.2 (.inr ⟨failure, hmarked, rfl⟩)

theorem ends_rootAbove_of_last {there : Bool} (h : marking s top = .ok there)
    (hlast : there = true ∨ top = []) :
    (rootAbove top.reverse).Ends s (.ok (Location.path top)) s := by
  have hmarked : (isMarked top).Ends s (.ok there) s := ends_isMarked.2 ⟨h.symm, rfl⟩
  rcases List.eq_nil_or_concat' top with rfl | ⟨place, name, rfl⟩
  · rw [List.reverse_nil, rootAbove, hmarked.bind_iff]
    exact ends_pure.2 ⟨rfl, rfl⟩
  · obtain rfl : there = true := hlast.resolve_right (by simp)
    rw [rootAbove_concat, hmarked.bind_iff, if_pos rfl]
    exact ends_pure.2 ⟨rfl, rfl⟩

theorem exists_rootOf (s : Session) (place : Location) : ∃ found, RootOf s place found := by
  induction place using List.reverseRecOn with
  | nil =>
      cases hmarks : marking s [] with
      | error failure => exact ⟨_, .unknown List.nil_prefix (unmarked_self s _) hmarks⟩
      | ok there => exact ⟨_, .found List.nil_prefix (unmarked_self s _) hmarks (.inr rfl)⟩
  | append_singleton place name ih =>
      cases hmarks : marking s (place ++ [name]) with
      | error failure => exact ⟨_, .unknown (List.prefix_refl _) (unmarked_self s _) hmarks⟩
      | ok there =>
          cases there with
          | true => exact ⟨_, .found (List.prefix_refl _) (unmarked_self s _) hmarks (.inl rfl)⟩
          | false =>
              obtain ⟨found, h⟩ := ih
              exact ⟨found, h.concat hmarks⟩

theorem RootOf.ends {found : Except Failure Location} (h : RootOf s place found) :
    (rootAbove place.reverse).Ends s (found.map Location.path) s := by
  cases h with
  | found above unmarked marks last =>
      exact (ends_rootAbove_of_unmarked above unmarked).2 (ends_rootAbove_of_last marks last)
  | unknown above unmarked marks =>
      exact (ends_rootAbove_of_unmarked above unmarked).2 (ends_rootAbove_of_error marks)

theorem RootOf.unique {found found' : Except Failure Location} (h : RootOf s place found)
    (h' : RootOf s place found') : found = found' := by
  have hsame := (h.ends.unique h'.ends).1
  match found, found', hsame with
  | .ok top, .ok top', hsame => exact congrArg Except.ok (FilePath.mk.inj (Except.ok.inj hsame)).2
  | .error failure, .error failure', hsame => exact congrArg Except.error (Except.error.inj hsame)

theorem ends_root (hresolved : s.tree.resolved s.here start.text = .ok place) :
    (root start).Ends s r s' ↔
      s' = s ∧ ∃ found, RootOf s place found ∧ r = found.map Location.path := by
  rw [root, Ends.bind_iff (ends_resolve.2 ⟨hresolved.symm, rfl⟩)]
  obtain ⟨found, h⟩ := exists_rootOf s place
  constructor
  · intro hend
    obtain ⟨rfl, rfl⟩ := hend.unique h.ends
    exact ⟨rfl, found, h, rfl⟩
  · rintro ⟨rfl, other, hother, rfl⟩
    exact hother.ends

/-- Starts below a directory have the same root if nothing between has a marker. -/
theorem ends_root_of_unmarked (hresolved : s.tree.resolved s.here start.text = .ok place)
    (habove : top <+: place) (h : Unmarked s top place) :
    (root start).Ends s r s' ↔ (rootAbove top.reverse).Ends s r s' := by
  rw [root, Ends.bind_iff (ends_resolve.2 ⟨hresolved.symm, rfl⟩)]
  exact ends_rootAbove_of_unmarked habove h

/-! ## Finding the templates -/

/-- What the file of a workspace tells of its templates. -/
abbrev SettingsTell (s : Session) (top : Location) : Except Failure (Option Value) → Prop :=
  DataFiles.Tells s (top.path.child Project.workspaceFile) DataFiles.yamlValue templatesKey id

def named (root : FilePath) : Action (Option Value) := do
  return ((← settings root).bind (·.get? templatesKey)).filter Value.isTrue

/-- The templates that a file names, or the usual ones. -/
def chosen (root : FilePath) : Option Value → Action FilePath
  | some value => configured root value
  | none => usual root

theorem templates_eq (start : FilePath) :
    templates start = root start >>= fun root => named root >>= chosen root := by
  simp only [templates, named, bind_assoc, pure_bind]
  rfl

theorem exists_settingsTell (s : Session) (top : Location) :
    ∃ told, SettingsTell s top told ∧ (named top.path).Ends s told s := by
  rcases DataFiles.isFile_cases s (top.path.child Project.workspaceFile) with
    ⟨failure, hjudged, hfile⟩ | ⟨hjudged, hfile⟩ | ⟨content, hlook, hfile⟩
  · refine ⟨_, .unknown hjudged, ends_bind.2 (.inr ⟨failure, ?_, rfl⟩)⟩
    exact ends_bind.2 (.inr ⟨failure, hfile, rfl⟩)
  · refine ⟨_, .missing hjudged, ?_⟩
    have hsettings : (settings top.path).Ends s (.ok none) s := by
      rw [settings, hfile.bind_iff]
      exact ends_pure.2 ⟨rfl, rfl⟩
    rw [named, hsettings.bind_iff]
    exact ends_pure.2 ⟨rfl, rfl⟩
  · have hread := DataFiles.ends_readYaml hlook
    cases hholds : textOf content >>= DataFiles.yamlValue with
    | error failure =>
        rw [hholds] at hread
        refine ⟨_, .unreadable hlook hholds, ends_bind.2 (.inr ⟨failure, ?_, rfl⟩)⟩
        rw [settings, hfile.bind_iff, if_pos rfl]
        exact ends_bind.2 (.inr ⟨failure, hread, rfl⟩)
    | ok value =>
        rw [hholds] at hread
        refine ⟨_, .held hlook hholds, ?_⟩
        have hsettings : ∃ found, (settings top.path).Ends s (.ok found) s ∧
            found.bind (·.get? templatesKey) = value.get? templatesKey := by
          simp only [settings, hfile.bind_iff, if_true, hread.bind_iff]
          cases value <;> exact ⟨_, ends_pure.2 ⟨rfl, rfl⟩, rfl⟩
        obtain ⟨found, hfound, hkey⟩ := hsettings
        rw [named, hfound.bind_iff, hkey]
        exact ends_pure.2 ⟨rfl, rfl⟩

theorem ends_ifDirectory {path found : FilePath} {missing : Failure} :
    (do if ← isDirectory path.text then return path else throw missing : Action FilePath).Ends s
        (.ok found) s' ↔
      s' = s ∧ found = path ∧ s.tree.look s.here path.text true = .ok .directory := by
  rw [ends_bind_ok]
  constructor
  · rintro ⟨there, m, hthere, hnext⟩
    obtain ⟨hjudged, rfl⟩ := ends_isDirectory.1 hthere
    cases there with
    | false => cases (ends_throw.1 hnext).1
    | true =>
        obtain ⟨hfound, rfl⟩ := ends_pure.1 hnext
        exact ⟨rfl, Except.ok.inj hfound, judged_isDirectory.1 hjudged.symm⟩
  · rintro ⟨rfl, rfl, hlook⟩
    exact ⟨true, _, ends_isDirectory.2 ⟨(judged_isDirectory.2 hlook).symm, rfl⟩,
      ends_pure.2 ⟨rfl, rfl⟩⟩

theorem ends_configured_ok {root path : FilePath} {value : Value}
    (h : (configured root value).Ends s (.ok path) s') : s' = s ∧ ∃ text, value = .text text ∧
      path = root.child text ∧ s.tree.look s.here path.text true = .ok .directory := by
  unfold configured at h
  split at h
  · obtain ⟨rfl, rfl, hlook⟩ := ends_ifDirectory.1 h
    exact ⟨rfl, _, rfl, rfl, hlook⟩
  · cases (ends_throw.1 h).1

/-- The directory that is named by the file of a workspace, or the usual one if none is named. -/
inductive Directs (s : Session) (top : Location) : FilePath → Prop where
  | configured {text : Text} (told : SettingsTell s top (.ok (some (.text text)))) :
      Directs s top (top.path.child text)
  | usual (told : SettingsTell s top (.ok none)) : Directs s top (top.path.child templatesFolder)

theorem ends_named {told : Except Failure (Option Value)} (h : SettingsTell s top told) :
    (named top.path).Ends s told s := by
  obtain ⟨other, hother, hend⟩ := exists_settingsTell s top
  rwa [h.unique hother]

/-- The templates are a directory that is there, and no other action finds them. -/
theorem ends_templates_ok {path : FilePath}
    (hresolved : s.tree.resolved s.here start.text = .ok place) :
    (templates start).Ends s (.ok path) s' ↔ s' = s ∧ ∃ top, RootOf s place (.ok top) ∧
      Directs s top path ∧ s.tree.look s.here path.text true = .ok .directory := by
  rw [templates_eq, ends_bind_ok]
  constructor
  · rintro ⟨root, m, hroot, hnext⟩
    obtain ⟨rfl, found, hfound, heq⟩ := (ends_root hresolved).1 hroot
    obtain ⟨value, t, hnamed, hlast⟩ := ends_bind_ok.1 hnext
    cases found with
    | error failure => cases heq
    | ok top =>
        obtain rfl : root = Location.path top := Except.ok.inj heq
        obtain ⟨told, htold, hend⟩ := exists_settingsTell m top
        obtain ⟨rfl, rfl⟩ := hend.unique hnamed
        cases value with
        | none =>
            obtain ⟨rfl, rfl, hlook⟩ := ends_ifDirectory.1 hlast
            exact ⟨rfl, top, hfound, .usual htold, hlook⟩
        | some value =>
            obtain ⟨rfl, text, rfl, rfl, hlook⟩ := ends_configured_ok hlast
            exact ⟨rfl, top, hfound, .configured htold, hlook⟩
  · rintro ⟨rfl, top, hfound, hdirects, hlook⟩
    refine ⟨_, s', (ends_root hresolved).2 ⟨rfl, _, hfound, rfl⟩, ?_⟩
    cases hdirects with
    | configured told =>
        rw [(ends_named told).bind_iff]
        exact ends_ifDirectory.2 ⟨rfl, rfl, hlook⟩
    | usual told =>
        rw [(ends_named told).bind_iff]
        exact ends_ifDirectory.2 ⟨rfl, rfl, hlook⟩

/-- Starts below a directory have the same templates if nothing between has a marker. -/
theorem ends_templates_of_unmarked (hresolved : s.tree.resolved s.here start.text = .ok place)
    (habove : top <+: place) (h : Unmarked s top place) :
    (templates start).Ends s r s' ↔
      (rootAbove top.reverse >>= fun root => named root >>= chosen root).Ends s r s' := by
  rw [templates_eq, ends_bind, ends_bind]
  simp only [ends_root_of_unmarked hresolved habove h]

/-- The root of a workspace is the nearest directory above a start that has a marker, and the
templates are the directory that its file names, or the usual one.  Starts that meet at a directory
without passing a marker have the same root and the same templates. -/
theorem workspace_of_nearest_marker (hresolved : s.tree.resolved s.here start.text = .ok place) :
    (∀ r s', (root start).Ends s r s' ↔
      s' = s ∧ ∃ found, RootOf s place found ∧ r = found.map Location.path) ∧
    (∀ path s', (templates start).Ends s (.ok path) s' ↔ s' = s ∧
      ∃ top, RootOf s place (.ok top) ∧ Directs s top path ∧
        s.tree.look s.here path.text true = .ok .directory) ∧
    ∀ top other beside, s.tree.resolved s.here other.text = .ok beside →
      top <+: place → top <+: beside → Unmarked s top place → Unmarked s top beside →
        ∀ r s', ((root start).Ends s r s' ↔ (root other).Ends s r s') ∧
          ((templates start).Ends s r s' ↔ (templates other).Ends s r s') := by
  refine ⟨fun _ _ => ends_root hresolved, fun _ _ => ends_templates_ok hresolved, ?_⟩
  intro top other beside hother habove hbeside hplace hunmarked r s'
  exact ⟨(ends_root_of_unmarked hresolved habove hplace).trans
      (ends_root_of_unmarked hother hbeside hunmarked).symm,
    (ends_templates_of_unmarked hresolved habove hplace).trans
      (ends_templates_of_unmarked hother hbeside hunmarked).symm⟩

namespace Sample

/-- A directory with a marker, a file that names the templates, and two directories in it. -/
def session : Session :=
  .start ⟨[(["a"], .directory), (["a", ".git"], .directory), (["a", "b"], .directory),
    (["a", "c"], .directory), (["a", "t"], .directory),
    (["a", "toolkit.yaml"], .file (.bytes (("templatesPath: t" : Text).flatMap CodePoint.utf8)))]⟩
    []

/-- The marker is a link whose target has too long a name. -/
def unknown : Session :=
  .start ⟨[(["a"], .directory),
    (["a", ".git"], .link (List.replicate 300 (CodePoint.scalar 'x')))]⟩ []

theorem unmarked_session {name : Text} (h : marking session ["a", name] = .ok false) :
    Unmarked session ["a"] ["a", name] :=
  Unmarked.concat (unmarked_self _ _) h

end Sample

theorem workspace_of_nearest_marker_beside :
    let s := Sample.session
    let start : FilePath := .ofText "a/b"
    let other : FilePath := .ofText "a/c"
    s.tree.resolved s.here start.text = .ok ["a", "b"] ∧
      s.tree.resolved s.here other.text = .ok ["a", "c"] ∧
      Unmarked s ["a"] ["a", "b"] ∧ Unmarked s ["a"] ["a", "c"] ∧
      RootOf s ["a", "b"] (.ok ["a"]) ∧ (root other).Ends s (.ok (Location.path ["a"])) s ∧
      (templates other).Ends s (.ok (Location.path ["a", "t"])) s := by
  intro s start other
  have hstart : s.tree.resolved s.here start.text = .ok ["a", "b"] := by rfl
  have hother : s.tree.resolved s.here other.text = .ok ["a", "c"] := by rfl
  have hfirst : Unmarked s ["a"] ["a", "b"] := Sample.unmarked_session (by rfl)
  have hsecond : Unmarked s ["a"] ["a", "c"] := Sample.unmarked_session (by rfl)
  obtain ⟨hroot, htemplates, hsame⟩ := workspace_of_nearest_marker hstart
  have hfound : RootOf s ["a", "b"] (.ok ["a"]) :=
    .found (by decide) hfirst (show marking s ["a"] = .ok true by rfl) (.inl rfl)
  have htold : (templates start).Ends s (.ok (Location.path ["a", "t"])) s := by
    have hend : (templates start).Ends s (.ok (Location.path ["a", "t"]))
        ((templates start).after s) := Ends.of_result (by decide +kernel)
    exact (htemplates _ _).2 ⟨rfl, ((htemplates _ _).1 hend).2⟩
  have hboth := hsame ["a"] other ["a", "c"] hother (by decide) (by decide) hfirst hsecond
  exact ⟨hstart, hother, hfirst, hsecond, hfound,
    (hboth _ _).1.1 ((hroot _ _).2 ⟨rfl, _, hfound, rfl⟩), (hboth _ _).2.1 htold⟩

/-- A marker that cannot be looked at keeps the root from being found. -/
theorem root_of_unknown_marker :
    let s := Sample.unknown
    s.tree.WellFormed ∧ s.tree.resolved s.here (FilePath.ofText "a").text = .ok ["a"] ∧
      ¬ ∃ found s', (root (.ofText "a")).Ends s (.ok found) s' := by
  intro s
  refine ⟨by decide +kernel, by rfl, ?_⟩
  rintro ⟨found, s', hend⟩
  have hfails : ((root (.ofText "a")).result s).toOption = none := by decide +kernel
  rw [hend.result_eq] at hfails
  cases hfails

end Stencil.Workspace
