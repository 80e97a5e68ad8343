import Mathlib
import Stencil.Library.Templates
import Stencil.Proofs.FileTree.Listing
import Stencil.Proofs.FileTree.Lists
import Stencil.Proofs.Library.Checking

/-!
# What a search for templates finds

A search finds the directories with a manifest that are not below another one, in
the order of their names.  If one item of a directory cannot be told to be a
directory or not, nothing in that directory is found.
-/

namespace Stencil

open FileTree Session Stencil.Action

variable {tree : FileTree} {here place : Location} {directory root : FilePath} {name : Text}
  {rest front way : List Text}

/-! ## Actions that the files decide -/

namespace Action

variable {α β : Type} {action : Action α} {r : Except Failure α}

/-- With these files the action always has this result, and does no more than look. -/
def Gives (tree : FileTree) (here : Location) (action : Action α) (r : Except Failure α) : Prop :=
  ∀ s : Session, s.tree = tree → s.here = here → ∃ s', s.Looks s' ∧ action.Ends s r s'

namespace Gives

theorem pure (a : α) : Gives tree here (Pure.pure a) (.ok a) :=
  fun s _ _ => ⟨s, .refl s, ends_pure.2 ⟨rfl, rfl⟩⟩

theorem attempt_bind {next : Except Failure α → Action β} {r' : Except Failure β}
    (h : Gives tree here action r) (hnext : Gives tree here (next r) r') :
    Gives tree here (attempt action >>= next) r' := by
  intro s htree hhere
  obtain ⟨m, hlooks, hend⟩ := h s htree hhere
  obtain ⟨s', hlooks', hend'⟩ := hnext m (hlooks.tree.trans htree) (hlooks.here.trans hhere)
  exact ⟨s', hlooks.trans hlooks', ends_attempt_bind.2 ⟨r, m, hend, hend'⟩⟩

theorem bind {next : α → Action β} {a : α} {r' : Except Failure β}
    (h : Gives tree here action (.ok a)) (hnext : Gives tree here (next a) r') :
    Gives tree here (action >>= next) r' := by
  intro s htree hhere
  obtain ⟨m, hlooks, hend⟩ := h s htree hhere
  obtain ⟨s', hlooks', hend'⟩ := hnext m (hlooks.tree.trans htree) (hlooks.here.trans hhere)
  exact ⟨s', hlooks.trans hlooks', hend.bind hend'⟩

theorem bind_error {next : α → Action β} {failure : Failure}
    (h : Gives tree here action (.error failure)) :
    Gives tree here (action >>= next) (.error failure) := by
  intro s htree hhere
  obtain ⟨m, hlooks, hend⟩ := h s htree hhere
  exact ⟨m, hlooks, ends_bind.2 (.inr ⟨failure, hend, rfl⟩)⟩

theorem filterM {test : α → Action Bool} {told : α → Bool} {items : List α}
    (h : ∀ item ∈ items, Gives tree here (test item) (.ok (told item))) :
    Gives tree here (items.filterM test) (.ok (items.filter told)) := by
  intro s htree hhere
  refine ends_filterM discipline_looks fun item hitem m hlooks => ?_
  exact h item hitem m (hlooks.tree.trans htree) (hlooks.here.trans hhere)

/-- The first test that fails is the last one. -/
theorem filterM_error {test : α → Action Bool} {told : α → Except Failure Bool} {items : List α}
    (h : ∀ item ∈ items, Gives tree here (test item) (told item))
    (hfails : ∃ item ∈ items, ∀ kept, told item ≠ .ok kept) :
    ∃ item ∈ items, ∃ failure, told item = .error failure ∧
      Gives tree here (items.filterM test) (.error failure) := by
  have hall : ∃ item ∈ items, ∃ failure, told item = .error failure ∧
      ∀ kept, Gives tree here (items.filterAuxM test kept) (.error failure) := by
    induction items with
    | nil => simp at hfails
    | cons first items ih =>
        have hfirst := h first List.mem_cons_self
        cases htold : told first with
        | error failure =>
            rw [htold] at hfirst
            exact ⟨first, List.mem_cons_self, failure, htold, fun _ => hfirst.bind_error⟩
        | ok passed =>
            rw [htold] at hfirst
            obtain ⟨item, hitem, failure, hfailure, hrest⟩ :=
              ih (fun other hother => h other (List.mem_cons_of_mem _ hother))
                (by simpa [htold] using hfails)
            exact ⟨item, List.mem_cons_of_mem _ hitem, failure, hfailure,
              fun _ => hfirst.bind (hrest _)⟩
  obtain ⟨item, hitem, failure, hfailure, hrest⟩ := hall
  exact ⟨item, hitem, failure, hfailure, (hrest []).bind_error⟩

theorem mapM {f : α → Action β} {g : α → β} {items : List α}
    (h : ∀ item ∈ items, Gives tree here (f item) (.ok (g item))) :
    Gives tree here (items.mapM f) (.ok (items.map g)) := by
  induction items with
  | nil => exact .pure []
  | cons item items ih =>
      rw [List.mapM_cons]
      refine (h item List.mem_cons_self).bind (.bind (ih fun other hother => ?_) (.pure _))
      exact h other (List.mem_cons_of_mem _ hother)

/-- The first action that fails is the last one. -/
theorem mapM_error {f : α → Action β} {items : List α} {test : Failure → Prop}
    (h : ∀ item ∈ items, (∃ b, Gives tree here (f item) (.ok b)) ∨
      ∃ failure, test failure ∧ Gives tree here (f item) (.error failure))
    (hfails : ∃ item ∈ items, ∃ failure, test failure ∧
      Gives tree here (f item) (.error failure)) :
    ∃ failure, test failure ∧ Gives tree here (items.mapM f) (.error failure) := by
  induction items with
  | nil => simp at hfails
  | cons first items ih =>
      rw [List.mapM_cons]
      rcases h first List.mem_cons_self with ⟨b, hfirst⟩ | ⟨failure, hfailure, hfirst⟩
      · obtain ⟨item, hitem, failure, hfailure, hlast⟩ := hfails
        rcases List.mem_cons.1 hitem with rfl | hitem
        · exact ⟨failure, hfailure, hlast.bind_error⟩
        obtain ⟨failure, hfailure, hrest⟩ :=
          ih (fun other hother => h other (List.mem_cons_of_mem _ hother))
            ⟨item, hitem, failure, hfailure, hlast⟩
        exact ⟨failure, hfailure, hfirst.bind hrest.bind_error⟩
      · exact ⟨failure, hfailure, hfirst.bind_error⟩

theorem passes (test : FileItem → Bool) (text : Text) :
    Gives tree here (Action.passes test text) (judged test (tree.look here text true)) := by
  rintro s rfl rfl
  exact ⟨s, .refl s, ends_passes.2 ⟨rfl, rfl⟩⟩

theorem namesIn (text : Text) :
    Gives tree here (Action.namesIn text) (namesAt tree here text) := by
  rintro s rfl rfl
  exact ⟨s, .refl s, ends_namesIn.2 ⟨rfl, rfl⟩⟩

theorem printWarning (message : Text) :
    Gives tree here (Action.printWarning message) (.ok ()) := by
  intro s _ _
  have hend := Ends.run (Action.printWarning message) s
  rw [ends_printWarning message hend] at hend
  exact ⟨_, follows_printWarning message s _ _ hend, hend⟩

end Gives

theorem judged_eq_error {test : FileItem → Bool} {found : Except Failure FileItem}
    {failure : Failure} (h : judged test found = .error failure) : failure.isOfSystem = true := by
  unfold judged at h
  split at h
  · cases h
  · split at h <;> cases h
    rfl
  · cases h

end Action

namespace Templates

/-! ## Ways that are searched -/

/-- Of all that is in a directory it can be told whether it is a directory. -/
def IsLegible (tree : FileTree) (here : Location) (directory : FilePath) : Prop :=
  ∀ names, namesAt tree here directory.text = .ok names → ∀ name ∈ names, ∃ found,
    judged FileItem.isDirectory (tree.look here (directory.child name).text true) = .ok found

def HoldsManifest (tree : FileTree) (here : Location) (directory : FilePath) : Prop :=
  ∃ content,
    tree.look here (directory.child Manifests.fileName).text true = .ok (.file content)

/-- Of the manifest of a directory it can be told whether it is a file. -/
def IsTold (tree : FileTree) (here : Location) (directory : FilePath) : Prop :=
  ∃ found, judged FileItem.isFile
    (tree.look here (directory.child Manifests.fileName).text true) = .ok found

/-- A way over directories that are not skipped, of which those between the root and the last one
hold no manifest. -/
structure Leads (tree : FileTree) (here : Location) (root : FilePath) (way : List Text) : Prop where
  nonempty : way ≠ []
  named : ∀ name ∈ way, IsName name ∧ isSkipped name = false
  directories : ∀ front, front <+: way →
    tree.look here (root.below front).text true = .ok .directory
  bare : ∀ front, front <+: way → front ≠ [] → front ≠ way →
    ¬ HoldsManifest tree here (root.below front)

def IsTemplate (tree : FileTree) (here : Location) (root : FilePath) (way : List Text) : Prop :=
  Leads tree here root way ∧ HoldsManifest tree here (root.below way)

/-- All directories above the end of a way can be read. -/
def IsOpen (tree : FileTree) (here : Location) (root : FilePath) (way : List Text) : Prop :=
  ∀ front, front <+: way → front ≠ way → IsLegible tree here (root.below front)

/-- A way that a search goes. -/
structure Reaches (tree : FileTree) (here : Location) (root : FilePath) (way : List Text) : Prop
    extends Leads tree here root way where
  opened : IsOpen tree here root way

/-- What a search finds at the end of a way. -/
def IsFound (tree : FileTree) (here : Location) (root : FilePath) (way : List Text) : Prop :=
  Reaches tree here root way ∧ HoldsManifest tree here (root.below way)

theorem judged_isFile {found : Except Failure FileItem} :
    judged FileItem.isFile found = .ok true ↔ ∃ content, found = .ok (.file content) := by
  rw [judged_eq_true]
  constructor
  · rintro ⟨item, hfound, hitem⟩
    cases item with
    | file content => exact ⟨content, hfound⟩
    | _ => cases hitem
  · rintro ⟨content, hfound⟩
    exact ⟨.file content, hfound, rfl⟩

/-- The front of a way that goes on from another is above that, or goes on from it as well. -/
theorem isPrefix_append_cases {other : List Text} (h : other <+: front ++ rest) :
    (other <+: front ∧ other ≠ front) ∨ ∃ more, other = front ++ more ∧ more <+: rest := by
  by_cases heq : other = front
  · exact .inr ⟨[], by simp [heq], List.nil_prefix⟩
  rcases List.prefix_or_prefix_of_prefix h (List.prefix_append front rest) with hless | hmore
  · exact .inl ⟨hless, heq⟩
  · obtain ⟨more, rfl⟩ := hmore
    exact .inr ⟨more, rfl, (List.prefix_append_right_inj front).1 h⟩

theorem ne_append_of_isPrefix {other : List Text} (h : other <+: front) (hne : other ≠ front) :
    other ≠ front ++ rest := fun heq => hne (h.eq_of_length_le (by simp [heq]))

namespace Leads

theorem isProper (h : Leads tree here root way) : Location.IsProper way :=
  fun name hname => (h.named name hname).1

theorem take (h : Leads tree here root (front ++ rest)) (hfront : front ≠ []) :
    Leads tree here root front where
  nonempty := hfront
  named name hname := h.named name (List.mem_append_left _ hname)
  directories other hother := h.directories other (hother.trans (List.prefix_append _ _))
  bare other hother hnonempty hne :=
    h.bare other (hother.trans (List.prefix_append _ _)) hnonempty
      (ne_append_of_isPrefix hother hne)

theorem drop (h : Leads tree here root (front ++ rest)) (hrest : rest ≠ []) :
    Leads tree here (root.below front) rest where
  nonempty := hrest
  named name hname := h.named name (List.mem_append_right _ hname)
  directories other hother := by
    rw [FilePath.below_below]
    exact h.directories _ ((List.prefix_append_right_inj front).2 hother)
  bare other hother hnonempty hne := by
    rw [FilePath.below_below]
    exact h.bare _ ((List.prefix_append_right_inj front).2 hother) (by simp [hnonempty])
      (by simpa using hne)

theorem not_holdsManifest (h : Leads tree here root (front ++ rest)) (hfront : front ≠ [])
    (hrest : rest ≠ []) : ¬ HoldsManifest tree here (root.below front) :=
  h.bare front (List.prefix_append _ _) hfront (by simp [hrest])

theorem append (h : Leads tree here root front)
    (hbare : ¬ HoldsManifest tree here (root.below front))
    (h' : Leads tree here (root.below front) rest) : Leads tree here root (front ++ rest) where
  nonempty := by simp [h.nonempty]
  named name hname := (List.mem_append.1 hname).elim (h.named name) (h'.named name)
  directories other hother := by
    rcases isPrefix_append_cases hother with ⟨hless, -⟩ | ⟨more, rfl, hmore⟩
    · exact h.directories other hless
    · rw [← FilePath.below_below]
      exact h'.directories more hmore
  bare other hother hnonempty hne := by
    rcases isPrefix_append_cases hother with ⟨hless, hother⟩ | ⟨more, rfl, hmore⟩
    · exact h.bare other hless hnonempty hother
    · rw [← FilePath.below_below]
      by_cases hnil : more = []
      · rwa [hnil, FilePath.below_nil]
      · exact h'.bare more hmore hnil (by simpa using hne)

theorem length_le (hproper : root.IsProper) (h : Leads tree here root way) :
    way.length ≤ longestPath := by
  obtain ⟨place, hlocate, -⟩ := look_eq_ok_iff.1 (h.directories way (List.prefix_refl way))
  have hparts := length_parts_le_of_locate (hproper.below h.isProper) hlocate
  rw [FilePath.parts_below, List.length_append] at hparts
  omega

end Leads

theorem isPrefix_singleton_iff : front <+: [name] ↔ front = [] ∨ front = [name] := by
  simp [List.prefix_cons_iff]

theorem leads_singleton_iff : Leads tree here root [name] ↔
    (IsName name ∧ isSkipped name = false) ∧
      tree.look here root.text true = .ok .directory ∧
      tree.look here (root.below [name]).text true = .ok .directory := by
  constructor
  · intro h
    have hroot := h.directories [] List.nil_prefix
    rw [FilePath.below_nil] at hroot
    exact ⟨h.named name (by simp), hroot, h.directories _ (List.prefix_refl _)⟩
  · rintro ⟨hnamed, hroot, hname⟩
    refine ⟨by simp, by simpa using hnamed, fun front hfront => ?_,
      fun front hfront hnonempty hne => ?_⟩
    · rcases isPrefix_singleton_iff.1 hfront with rfl | rfl
      · rwa [FilePath.below_nil]
      · exact hname
    · exact absurd (isPrefix_singleton_iff.1 hfront) (not_or.2 ⟨hnonempty, hne⟩)

theorem isOpen_singleton_iff : IsOpen tree here root [name] ↔ IsLegible tree here root := by
  constructor
  · intro h
    have hroot := h [] List.nil_prefix (by simp)
    rwa [FilePath.below_nil] at hroot
  · intro h front hfront hne
    obtain rfl := (isPrefix_singleton_iff.1 hfront).resolve_right hne
    rwa [FilePath.below_nil]

namespace Reaches

theorem take (h : Reaches tree here root (front ++ rest)) (hfront : front ≠ []) :
    Reaches tree here root front where
  toLeads := h.toLeads.take hfront
  opened other hother hne :=
    h.opened other (hother.trans (List.prefix_append _ _)) (ne_append_of_isPrefix hother hne)

theorem drop (h : Reaches tree here root (front ++ rest)) (hrest : rest ≠ []) :
    Reaches tree here (root.below front) rest where
  toLeads := h.toLeads.drop hrest
  opened other hother hne := by
    rw [FilePath.below_below]
    exact h.opened _ ((List.prefix_append_right_inj front).2 hother) (by simpa using hne)

/-- A search goes on from a directory without a manifest. -/
theorem append (h : Reaches tree here root front)
    (hbare : ¬ HoldsManifest tree here (root.below front))
    (h' : Reaches tree here (root.below front) rest) : Reaches tree here root (front ++ rest) where
  toLeads := h.toLeads.append hbare h'.toLeads
  opened other hother hne := by
    rcases isPrefix_append_cases hother with ⟨hless, hother⟩ | ⟨more, rfl, hmore⟩
    · exact h.opened other hless hother
    · rw [← FilePath.below_below]
      exact h'.opened more hmore (by simpa using hne)

end Reaches

theorem reaches_singleton_iff : Reaches tree here root [name] ↔
    Leads tree here root [name] ∧ IsLegible tree here root := by
  rw [← isOpen_singleton_iff]
  exact ⟨fun h => ⟨h.toLeads, h.opened⟩, fun h => ⟨h.1, h.2⟩⟩

theorem isFound_iff :
    IsFound tree here root way ↔ IsTemplate tree here root way ∧ IsOpen tree here root way :=
  ⟨fun h => ⟨⟨h.1.toLeads, h.2⟩, h.1.opened⟩, fun h => ⟨⟨h.1.1, h.2⟩, h.1.2⟩⟩

/-- Nothing is found below a template. -/
theorem isFound_append_iff_of_holdsManifest (h : Reaches tree here root front)
    (hmanifest : HoldsManifest tree here (root.below front)) :
    IsFound tree here root (front ++ rest) ↔ rest = [] := by
  constructor
  · intro hfound
    by_contra hrest
    exact hfound.1.not_holdsManifest h.nonempty hrest hmanifest
  · rintro rfl
    rw [IsFound, List.append_nil]
    exact ⟨h, hmanifest⟩

theorem isFound_append_iff (h : Reaches tree here root front)
    (hbare : ¬ HoldsManifest tree here (root.below front)) :
    IsFound tree here root (front ++ rest) ↔ IsFound tree here (root.below front) rest := by
  rw [IsFound, IsFound, FilePath.below_below]
  constructor
  · rintro ⟨hreaches, hmanifest⟩
    refine ⟨hreaches.drop fun hnil => hbare ?_, hmanifest⟩
    rwa [hnil, List.append_nil] at hmanifest
  · rintro ⟨hreaches, hmanifest⟩
    exact ⟨h.append hbare hreaches, hmanifest⟩

/-! ## One directory -/

/-- All manifests that are searched for on ways that start with some names can be told. -/
def AllTold (tree : FileTree) (here : Location) (root : FilePath) (front : List Text) : Prop :=
  ∀ rest, Reaches tree here root (front ++ rest) → IsTold tree here (root.below (front ++ rest))

/-- The paths that are listed for ways. -/
def pathsOf (path : List Text) (ways : List (List Text)) : List Text :=
  ways.map fun rest => Text.joinWith "/" (path ++ rest)

/-- A search lists the templates on ways that start with some names, or fails if there is a manifest
that cannot be told. -/
structure Searches (tree : FileTree) (here : Location) (root : FilePath) (front : List Text)
    (search : List Text → Action (List Text)) : Prop where
  lists : AllTold tree here root front →
    ∃ ways, Location.Enumerates (fun rest => IsFound tree here root (front ++ rest)) ways ∧
      ∀ path, Gives tree here (search path) (.ok (pathsOf (path ++ front) ways))
  fails : ¬ AllTold tree here root front → ∀ path, ∃ failure : Failure, failure.isOfSystem = true ∧
    Gives tree here (search path) (.error failure)

variable {descend : FilePath → List Text → Action (List Text)}

theorem pathsOf_flatMap (path names : List Text) (waysOf : Text → List (List Text)) :
    pathsOf (path ++ []) (names.flatMap fun name => (waysOf name).map (name :: ·)) =
      (names.map fun name => pathsOf (path ++ [name]) (waysOf name)).flatten := by
  simp [pathsOf, List.flatMap_def, Function.comp_def]

theorem allTold_iff (h : Reaches tree here root front)
    (hbare : ¬ HoldsManifest tree here (root.below front)) :
    AllTold tree here root front ↔
      IsTold tree here (root.below front) ∧ AllTold tree here (root.below front) [] := by
  constructor
  · intro htold
    refine ⟨by simpa using htold [] (by simpa using h), fun rest hrest => ?_⟩
    rw [FilePath.below_below]
    exact htold _ (h.append hbare hrest)
  · rintro ⟨hhere, hbelow⟩ rest hrest
    by_cases hnil : rest = []
    · rwa [hnil, List.append_nil]
    · rw [← FilePath.below_below]
      exact hbelow rest (hrest.drop hnil)

theorem isTold_of_allTold (h : Reaches tree here root front)
    (htold : AllTold tree here root front) : IsTold tree here (root.below front) := by
  simpa using htold [] (by simpa using h)

theorem allTold_of_holdsManifest (h : Reaches tree here root front)
    (hmanifest : HoldsManifest tree here (root.below front)) : AllTold tree here root front := by
  intro rest hrest
  by_cases hnil : rest = []
  · rw [hnil, List.append_nil]
    exact ⟨true, judged_isFile.2 hmanifest⟩
  · exact absurd hmanifest (hrest.not_holdsManifest h.nonempty hnil)

namespace Searches

variable {search : List Text → Action (List Text)}

theorem of_not_reaches (h : ∀ rest, ¬ Reaches tree here root (front ++ rest))
    (hgives : ∀ path, Gives tree here (search path) (.ok [])) :
    Searches tree here root front search where
  lists _ := ⟨[], .nil fun rest hfound => h rest hfound.1, hgives⟩
  fails huntold := absurd (fun rest hrest => absurd hrest (h rest)) huntold

theorem of_holdsManifest (h : Reaches tree here root front)
    (hmanifest : HoldsManifest tree here (root.below front))
    (hgives : ∀ path, Gives tree here (search path) (.ok [Text.joinWith "/" (path ++ front)])) :
    Searches tree here root front search where
  lists _ := ⟨[[]],
    .singleton fun rest => (isFound_append_iff_of_holdsManifest h hmanifest).symm,
    fun path => by simpa [pathsOf] using hgives path⟩
  fails huntold := absurd (allTold_of_holdsManifest h hmanifest) huntold

/-- Without a manifest the search goes on below. -/
theorem of_bare (h : Reaches tree here root front)
    (hbare : ¬ HoldsManifest tree here (root.below front))
    (htold : IsTold tree here (root.below front))
    (hbelow : Searches tree here (root.below front) [] search) :
    Searches tree here root front fun path => search (path ++ front) where
  lists hall := by
    obtain ⟨ways, hways, hlists⟩ := hbelow.lists ((allTold_iff h hbare).1 hall).2
    refine ⟨ways, ⟨hways.ordered, fun rest => ?_⟩, fun path => ?_⟩
    · exact (hways.mem_iff rest).trans (isFound_append_iff h hbare).symm
    · simpa using hlists (path ++ front)
  fails huntold path :=
    hbelow.fails (fun hall => huntold ((allTold_iff h hbare).2 ⟨htold, hall⟩)) (path ++ front)

theorem of_not_isTold (h : Reaches tree here root front)
    (huntold : ¬ IsTold tree here (root.below front))
    (hfails : ∀ path, ∃ failure : Failure, failure.isOfSystem = true ∧
      Gives tree here (search path) (.error failure)) : Searches tree here root front search where
  lists hall := absurd (isTold_of_allTold h hall) huntold
  fails _ := hfails

theorem mono {other : List Text → Action (List Text)} (h : Searches tree here root front search)
    (hgives : ∀ path r, Gives tree here (search path) r → Gives tree here (other path) r) :
    Searches tree here root front other where
  lists hall := by
    obtain ⟨ways, hways, hlists⟩ := h.lists hall
    exact ⟨ways, hways, fun path => hgives path _ (hlists path)⟩
  fails huntold path := by
    obtain ⟨failure, hsystem, hfails⟩ := h.fails huntold path
    exact ⟨failure, hsystem, hgives path _ hfails⟩

theorem listed_or_failed (h : Searches tree here root front search) (path : List Text) :
    (∃ found, Gives tree here (search path) (.ok found)) ∨
      ∃ failure : Failure, failure.isOfSystem = true ∧
        Gives tree here (search path) (.error failure) := by
  by_cases htold : AllTold tree here root front
  · obtain ⟨ways, -, hgives⟩ := h.lists htold
    exact .inl ⟨_, hgives path⟩
  · exact .inr (h.fails htold path)

end Searches

theorem searches_listedIn (hreaches : Reaches tree here directory [name])
    (hdescend : ¬ HoldsManifest tree here (directory.below [name]) →
      Searches tree here (directory.below [name]) [] (descend (directory.below [name]))) :
    Searches tree here directory [name] fun path => listedIn descend directory path name := by
  have htest : Gives tree here
      (isFile ((directory.below [name]).child Manifests.fileName).text) _ := .passes _ _
  unfold listedIn
  rw [FilePath.child_of_isName (hreaches.isProper name (by simp))]
  cases hfound : judged FileItem.isFile
    (tree.look here ((directory.below [name]).child Manifests.fileName).text true) with
  | error failure =>
      rw [hfound] at htest
      exact .of_not_isTold hreaches (by simp [IsTold, hfound]) fun path =>
        ⟨failure, judged_eq_error hfound, htest.bind_error⟩
  | ok found =>
      rw [hfound] at htest
      cases found with
      | true =>
          exact .of_holdsManifest hreaches (judged_isFile.1 hfound) fun path =>
            htest.bind (.pure _)
      | false =>
          have hbare : ¬ HoldsManifest tree here (directory.below [name]) := fun hmanifest => by
            rw [judged_isFile.2 hmanifest] at hfound
            cases hfound
          have hbelow := Searches.of_bare hreaches hbare ⟨false, hfound⟩ (hdescend hbare)
          exact hbelow.mono fun path r hgives => htest.bind hgives

theorem mem_names_of_leads (hwell : tree.WellFormed) (hproper : directory.IsProper)
    (hplace : tree.locate here directory.text true = .ok place)
    (h : Leads tree here directory [name]) : name ∈ tree.names place := by
  obtain ⟨-, -, hname⟩ := leads_singleton_iff.1 h
  obtain ⟨other, hlocate, hget⟩ := look_eq_ok_iff.1 hname
  obtain ⟨links, hwalk⟩ := FilePath.walks_of_below hwell (hproper.below h.isProper) hplace hlocate
  exact hwell.mem_names.2 (hwalk.isSome_of_cons (h.isProper name (by simp)) (by simp [hget]))

/-- The directories in a directory that can be read, and the ways that start with them. -/
theorem gives_subdirectories (hwell : tree.WellFormed) (hproper : directory.IsProper)
    (hdirectory : tree.look here directory.text true = .ok .directory)
    (hlegible : IsLegible tree here directory) :
    ∃ names, Gives tree here (subdirectories directory) (.ok names) ∧
      (names.Pairwise fun first second => Text.precedes first second = true) ∧
      ∀ name, name ∈ names ∧ isSkipped name = false ↔ Reaches tree here directory [name] := by
  obtain ⟨place, hplace, hget⟩ := look_eq_ok_iff.1 hdirectory
  have hnames := namesAt_eq_ok_iff.2 ⟨place, hplace, hget, rfl⟩
  have htest := hlegible _ hnames
  choose! told htold using htest
  refine ⟨(tree.names place).filter told, ?_, hwell.names_pairwise.filter told, fun name => ?_⟩
  · have hgives : Gives tree here (namesIn directory.text) _ := .namesIn _
    rw [hnames] at hgives
    refine hgives.bind (.filterM fun name hname => ?_)
    rw [← htold name hname]
    exact .passes _ _
  · rw [reaches_singleton_iff, leads_singleton_iff, List.mem_filter]
    constructor
    · rintro ⟨⟨hname, hpassed⟩, hskipped⟩
      have hnamed := hwell.isName_of_mem_names hname
      have hlook := htold name hname
      rw [hpassed, judged_isDirectory, FilePath.child_of_isName hnamed] at hlook
      exact ⟨⟨⟨hnamed, hskipped⟩, hdirectory, hlook⟩, hlegible⟩
    · rintro ⟨hleads, -⟩
      have hname := mem_names_of_leads hwell hproper hplace (leads_singleton_iff.2 hleads)
      obtain ⟨⟨hnamed, hskipped⟩, -, hlook⟩ := hleads
      have hpassed := htold name hname
      rw [FilePath.child_of_isName hnamed, judged_isDirectory.2 hlook] at hpassed
      exact ⟨⟨hname, (Except.ok.inj hpassed).symm⟩, hskipped⟩

theorem gives_subdirectories_error (hlegible : ¬ IsLegible tree here directory) :
    ∃ failure, failure.isOfSystem = true ∧
      Gives tree here (subdirectories directory) (.error failure) := by
  obtain ⟨names, hlegible⟩ := not_forall.1 hlegible
  obtain ⟨hnames, hlegible⟩ := Classical.not_imp.1 hlegible
  push Not at hlegible
  obtain ⟨name, -, failure, hfailure, hgives⟩ :=
    Gives.filterM_error (fun name _ => Gives.passes _ _) hlegible
  have hgiven : Gives tree here (namesIn directory.text) _ := .namesIn _
  rw [hnames] at hgiven
  exact ⟨failure, judged_eq_error hfailure, hgiven.bind hgives⟩

theorem searches_listedBelow_of_not_isLegible (hlegible : ¬ IsLegible tree here directory) :
    Searches tree here directory [] (listedBelow descend directory) := by
  have hnone : ∀ way, ¬ Reaches tree here directory way := by
    intro way h
    have hroot := h.opened [] List.nil_prefix h.nonempty.symm
    rw [FilePath.below_nil] at hroot
    exact hlegible hroot
  obtain ⟨failure, hsystem, hgives⟩ := gives_subdirectories_error hlegible
  refine .of_not_reaches hnone fun path => hgives.attempt_bind ?_
  simp only [hsystem, if_true]
  exact (Gives.printWarning _).bind (.pure _)

theorem searches_listedBelow (hwell : tree.WellFormed) (hproper : directory.IsProper)
    (hdirectory : tree.look here directory.text true = .ok .directory)
    (hnames : ∀ name, Reaches tree here directory [name] →
      Searches tree here directory [name] fun path => listedIn descend directory path name) :
    Searches tree here directory [] (listedBelow descend directory) := by
  have hfirst : ∀ name rest, Reaches tree here directory (name :: rest) →
      Reaches tree here directory [name] := fun name rest h => h.take (by simp)
  by_cases hlegible : IsLegible tree here directory
  case neg => exact searches_listedBelow_of_not_isLegible hlegible
  obtain ⟨names, hgives, hpairwise, hmem⟩ :=
    gives_subdirectories hwell hproper hdirectory hlegible
  have hkept : ∀ name, name ∈ names.filter (!isSkipped ·) ↔ Reaches tree here directory [name] :=
    fun name => by simp [← hmem name]
  refine ⟨fun htold => ?_, fun huntold path => ?_⟩
  · have hlists := fun name hname => (hnames name hname).lists fun rest => htold (name :: rest)
    choose! waysOf hways hlisted using hlists
    refine ⟨(names.filter (!isSkipped ·)).flatMap fun name => (waysOf name).map (name :: ·),
      ?_, fun path => hgives.attempt_bind ?_⟩
    · exact .flatMap (hpairwise.filter _) (fun h => h.1.nonempty rfl)
        (fun name rest h => (hkept name).2 (hfirst name rest h.1))
        fun name hname => hways name ((hkept name).1 hname)
    · rw [pathsOf_flatMap]
      exact (Gives.mapM fun name hname => hlisted name ((hkept name).1 hname) path).bind (.pure _)
  · -- the name that a manifest below cannot be told of fails, if no earlier name does
    obtain ⟨way, huntold⟩ := not_forall.1 huntold
    obtain ⟨hway, huntold⟩ := Classical.not_imp.1 huntold
    obtain ⟨name, rest, rfl⟩ := List.exists_cons_of_ne_nil hway.nonempty
    have hname := hfirst name rest hway
    obtain ⟨failure, hsystem, hfails⟩ := Gives.mapM_error
      (fun name hname => (hnames name ((hkept name).1 hname)).listed_or_failed path)
      ⟨name, (hkept name).2 hname,
        (hnames name hname).fails (fun hall => huntold (hall rest hway)) path⟩
    exact ⟨failure, hsystem, hgives.attempt_bind hfails.bind_error⟩

/-! ## The whole search -/

theorem searches_below (hwell : tree.WellFormed) (depth : Nat) (hproper : directory.IsProper)
    (hdirectory : tree.look here directory.text true = .ok .directory)
    (hdepth : ∀ way, Reaches tree here directory way → way.length ≤ depth + 1) :
    Searches tree here directory [] (below depth directory) := by
  induction depth generalizing directory with
  | zero =>
      refine searches_listedBelow hwell hproper hdirectory fun name hname => ?_
      refine searches_listedIn hname fun hbare => ?_
      -- a way that goes on would have two names
      have hnone : ∀ way, ¬ Reaches tree here (directory.below [name]) way := by
        intro way hway
        have hlength := hdepth _ (hname.append hbare hway)
        exact hway.nonempty (by simpa using hlength)
      exact .of_not_reaches hnone fun path => .pure []
  | succ depth ih =>
      refine searches_listedBelow hwell hproper hdirectory fun name hname => ?_
      refine searches_listedIn hname fun hbare => ?_
      refine ih (hproper.below hname.isProper) (leads_singleton_iff.1 hname.toLeads).2.2 ?_
      intro way hway
      have hlength := hdepth _ (hname.append hbare hway)
      simp only [List.length_append, List.length_singleton] at hlength
      omega

/-- The search from a root, whatever is put before the ways that it lists. -/
theorem searches_root (hwell : tree.WellFormed) (hproper : root.IsProper)
    (hroot : ∃ found, judged FileItem.isDirectory (tree.look here root.text true) = .ok found) :
    Searches tree here root [] fun path => do
      if ← isDirectory root.text then below longestPath root path else return [] := by
  obtain ⟨found, hfound⟩ := hroot
  have htest : Gives tree here (isDirectory root.text) (.ok found) := hfound ▸ .passes _ _
  cases found with
  | false =>
      refine .of_not_reaches (fun way h => ?_) fun _ => htest.bind (.pure [])
      have hlook := h.directories [] List.nil_prefix
      rw [FilePath.below_nil, ← judged_isDirectory, hfound] at hlook
      cases hlook
  | true =>
      have hsearches := searches_below hwell longestPath hproper (judged_isDirectory.1 hfound)
        fun _ hway => (hway.length_le hproper).trans (Nat.le_succ _)
      exact hsearches.mono fun path r hgives => htest.bind hgives

/-- No template is below another one. -/
theorem IsTemplate.eq_of_isPrefix (h : IsTemplate tree here root front)
    (h' : IsTemplate tree here root way) (habove : front <+: way) : front = way := by
  by_contra hne
  exact h'.1.bare front habove h.1.nonempty hne h.2

/-- The paths of ways tell them apart. -/
theorem nodup_paths {ways : List (List Text)} (hways : ways.Nodup)
    (htemplates : ∀ way ∈ ways, IsTemplate tree here root way) :
    (ways.map (Text.joinWith "/")).Nodup := by
  have hsplit : ∀ way ∈ ways, Text.splitOn FilePath.slash (Text.joinWith "/" way) = way := by
    intro way hway
    have hleads := (htemplates way hway).1
    exact Text.splitOn_joinWith hleads.nonempty
      fun name hname => (hleads.isProper name hname).2.2.2.1
  refine List.Nodup.map_on (fun first hfirst second hsecond heq => ?_) hways
  rw [← hsplit first hfirst, ← hsplit second hsecond, heq]

/-- A search from a root lists the ways to its templates, but for those in directories that cannot
be read, each one once and in the order of their names.  It fails if it comes to a manifest that
cannot be told. -/
theorem listed_templates (s : Session) (root : FilePath) (hwell : s.tree.WellFormed)
    (hproper : root.IsProper)
    (hroot : ∃ found, judged FileItem.isDirectory (s.tree.look s.here root.text true) = .ok found) :
    (AllTold s.tree s.here root [] → ∃ (ways : List (List Text)) (s' : Session),
      (listed root).Ends s (.ok (ways.map (Text.joinWith "/"))) s' ∧ s.Looks s' ∧
        (∀ way, way ∈ ways ↔ IsTemplate s.tree s.here root way ∧ IsOpen s.tree s.here root way) ∧
        ways.Pairwise Location.Precedes ∧ (ways.map (Text.joinWith "/")).Nodup ∧
        ∀ first ∈ ways, ∀ second ∈ ways, first <+: second → first = second) ∧
    (¬ AllTold s.tree s.here root [] → ∃ (failure : Failure) (s' : Session),
      (listed root).Ends s (.error failure) s' ∧ failure.isOfSystem = true) := by
  have hsearches := searches_root hwell hproper hroot
  refine ⟨fun htold => ?_, fun huntold => ?_⟩
  · obtain ⟨ways, hways, hgives⟩ := hsearches.lists htold
    obtain ⟨s', hlooks, hend⟩ := hgives [] s rfl rfl
    have hmem : ∀ way, way ∈ ways ↔
        IsTemplate s.tree s.here root way ∧ IsOpen s.tree s.here root way :=
      fun way => (hways.mem_iff way).trans isFound_iff
    have htemplates := fun way hway => ((hmem way).1 hway).1
    exact ⟨ways, s', hend, hlooks, hmem, hways.ordered, nodup_paths hways.nodup htemplates,
      fun first hfirst second hsecond =>
        (htemplates first hfirst).eq_of_isPrefix (htemplates second hsecond)⟩
  · obtain ⟨failure, hsystem, hgives⟩ := hsearches.fails huntold []
    obtain ⟨s', -, hend⟩ := hgives s rfl rfl
    exact ⟨failure, s', hend, hsystem⟩

namespace Sample

def top : FilePath := .ofText "/t"

/-- A root with a manifest of its own, two templates, and more items. -/
def session (items : List (Location × FileItem)) : Session :=
  .start ⟨(["t"], .directory) :: (["t", "scaffold.yaml"], Scaffold.Sample.file []) ::
    (["t", "a"], .directory) :: (["t", "a", "n"], .directory) ::
    (["t", "a", "n", "scaffold.yaml"], Scaffold.Sample.file []) :: (["t", "w"], .directory) ::
    (["t", "w", "scaffold.yaml"], Scaffold.Sample.file []) :: items⟩ []

/-- A link to a name that is longer than any name in a directory. -/
def badLink : FileItem := .link (List.replicate 300 (.scalar 'x'))

/-- Of one item of the root it cannot be told whether it is a directory. -/
def withBadItem : Session := session [(["t", "l"], badLink)]

/-- Of one manifest it cannot be told whether it is a file. -/
def withBadManifest : Session :=
  session [(["t", "b"], .directory), (["t", "b", "scaffold.yaml"], badLink)]

set_option maxRecDepth 100000 in
theorem listed_session :
    ((listed top).result (session [])).toOption = some [("a/n" : Text), "w"] := by cbv

set_option maxRecDepth 100000 in
theorem listed_withBadItem : ((listed top).result withBadItem).toOption = some [] := by cbv

set_option maxRecDepth 100000 in
theorem listed_withBadManifest : ((listed top).result withBadManifest).toOption = none := by cbv

end Sample

theorem listed_templates_session : AllTold (Sample.session []).tree [] Sample.top [] ∧
    ∃ (ways : List (List Text)), ways.map (Text.joinWith "/") = [("a/n" : Text), "w"] ∧
      ways.Pairwise Location.Precedes ∧
      ∀ way, way ∈ ways ↔ IsTemplate (Sample.session []).tree [] Sample.top way ∧
        IsOpen (Sample.session []).tree [] Sample.top way := by
  obtain ⟨hlists, hfails⟩ := listed_templates (Sample.session []) Sample.top
    (by decide +kernel) (FilePath.isProper_ofText _) ⟨true, judged_isDirectory.2 (by rfl)⟩
  have hlisted := Ends.of_result Sample.listed_session
  have htold : AllTold (Sample.session []).tree [] Sample.top [] := by
    by_contra huntold
    obtain ⟨failure, s', hend, -⟩ := hfails huntold
    cases (hend.unique hlisted).1
  obtain ⟨ways, s', hend, -, hmem, hordered, -⟩ := hlists htold
  exact ⟨htold, ways, Except.ok.inj (hend.unique hlisted).1, hordered, hmem⟩

theorem readable_of_look {text : Text} (h : tree.look here text true = .ok .directory) :
    ∃ names, namesAt tree here text = .ok names := by
  obtain ⟨place, hplace, hget⟩ := look_eq_ok_iff.1 h
  exact ⟨_, namesAt_eq_ok_iff.2 ⟨place, hplace, hget, rfl⟩⟩

/-- A template is not listed because of an item beside it, or of a manifest beside it, although
all directories can be read. -/
theorem items_hide_templates :
    ((∀ text, Sample.withBadItem.tree.look [] text true = .ok .directory →
        ∃ names, namesAt Sample.withBadItem.tree [] text = .ok names) ∧
      IsTemplate Sample.withBadItem.tree [] Sample.top ["w"] ∧
      (listed Sample.top).result Sample.withBadItem = .ok []) ∧
    (∀ text, Sample.withBadManifest.tree.look [] text true = .ok .directory →
        ∃ names, namesAt Sample.withBadManifest.tree [] text = .ok names) ∧
      IsTemplate Sample.withBadManifest.tree [] Sample.top ["w"] ∧
      ∃ failure, (listed Sample.top).result Sample.withBadManifest = .error failure := by
  have hname : IsName "w" ∧ isSkipped "w" = false := by decide
  refine ⟨⟨fun _ => readable_of_look, ⟨leads_singleton_iff.2 ⟨hname, by rfl, by rfl⟩, _, by rfl⟩,
    eq_ok_of_toOption Sample.listed_withBadItem⟩, fun _ => readable_of_look,
    ⟨leads_singleton_iff.2 ⟨hname, by rfl, by rfl⟩, _, by rfl⟩, ?_⟩
  cases hresult : (listed Sample.top).result Sample.withBadManifest with
  | error failure => exact ⟨failure, rfl⟩
  | ok found =>
      have hnone := Sample.listed_withBadManifest
      rw [hresult] at hnone
      cases hnone

end Templates

end Stencil
