import Stencil.Placement.Basic
import Stencil.Proofs.FileTree.Listing
import Stencil.Proofs.Session.Changes
import Stencil.Proofs.Session.Work

/-!
# Recorded files

What the journal gets of a target, as a function of the tree.  In a tree that
keeps another one at least the same files are recorded, and of a region they are
all its files in the order of their names.
-/

namespace Stencil

open FileTree Session Action

/-! ## Expansions -/

namespace Placement

def expandItem (tree : FileTree) (here : Location) (descend : FilePath → List Text)
    (path : FilePath) : List Text :=
  match tree.look here path.text true with
  | .ok .directory => descend path
  | .ok (.file _) => [path.text]
  | _ => []

def expandItems (tree : FileTree) (here : Location) (descend : FilePath → List Text)
    (directory : FilePath) : List Text :=
  match namesAt tree here directory.text with
  | .ok names => names.flatMap fun name => expandItem tree here descend (directory.child name)
  | .error _ => []

/-- The paths of the files of a directory, as far as they can be told. -/
def expandTree (tree : FileTree) (here : Location) : Nat → FilePath → List Text
  | 0 => expandItems tree here fun _ => []
  | depth + 1 => expandItems tree here (expandTree tree here depth)

/-- The paths that are recorded for a target: those of its files, or its own. -/
def expand (tree : FileTree) (here : Location) (path : FilePath) : Except Failure (List Text) :=
  match judged FileItem.isDirectory (tree.look here path.text true) with
  | .ok true => .ok (expandTree tree here longestPath path)
  | .ok false => .ok [path.text]
  | .error failure => .error failure

end Placement

open Placement

variable {tree later : FileTree} {here place rest : Location} {path : FilePath}
  {s m s' : Session} {name text : Text} {note : Journal → Text → Journal}

theorem FilePath.fault?_below (hpath : path.IsProper)
    (hfault : PathText.fault? path.text = none) (hname : IsName name) :
    PathText.fault? (path.below [name]).text = none := by
  have hnames : Location.IsProper [name] := by
    intro other hother
    rwa [List.mem_singleton.1 hother]
  have hslash : PathText.isUnencodable FilePath.slash = false ∧ FilePath.slash.toNat ≠ 0 := by
    decide
  have hpart : ∀ c ∈ name, PathText.isUnencodable c = false ∧ c.toNat ≠ 0 :=
    PathText.fault?_eq_none_iff.1 (Option.isNone_iff_eq_none.1 hname.2.2.2.2)
  rw [PathText.fault?_eq_none_iff] at hfault ⊢
  intro c hc
  by_cases hparts : path.parts = []
  · rw [FilePath.text_eq (hpath.below hnames) (by simp), FilePath.parts_below, hparts] at hc
    rcases List.mem_append.1 hc with hc | hc
    · have : c = FilePath.slash := by
        revert hc
        cases hanchor : (path.below [name]).anchor <;>
          simp [FilePath.anchorText, Text.ofString, FilePath.slash]
      rw [this]
      exact hslash
    · exact hpart c (by simpa using hc)
  · rw [FilePath.text_below hpath hparts hnames (by simp)] at hc
    rcases List.mem_append.1 hc with hc | hc
    · exact hfault c hc
    · rcases List.mem_cons.1 hc with rfl | hc
      · exact hslash
      · exact hpart c (by simpa using hc)

/-! ## More files in trees that grow -/

theorem namesAt_kept (hwell : tree.WellFormed) (hwell' : later.WellFormed)
    (hkept : tree.IsKeptBy later) {names : List Text} (h : namesAt tree here text = .ok names) :
    ∃ more, namesAt later here text = .ok more ∧ ∀ name ∈ names, name ∈ more := by
  obtain ⟨place, hlocate, hdirectory, rfl⟩ := namesAt_eq_ok_iff.1 h
  have hlocate' := locate_extend hkept.isExtendedBy hlocate (by simp [hdirectory])
  refine ⟨later.names place, namesAt_eq_ok_iff.2 ⟨place, hlocate', hkept _ _ hdirectory, rfl⟩,
    fun name hname => ?_⟩
  rw [hwell.mem_names] at hname
  rw [hwell'.mem_names]
  exact hkept.isExtendedBy.isSome hname

theorem expandItems_kept (hwell : tree.WellFormed) (hwell' : later.WellFormed)
    (hkept : tree.IsKeptBy later) {descend descend' : FilePath → List Text}
    (hdescend : ∀ path, ∀ file ∈ descend path, file ∈ descend' path)
    (path : FilePath) : ∀ file ∈ expandItems tree here descend path,
      file ∈ expandItems later here descend' path := by
  intro file hfile
  unfold expandItems at hfile ⊢
  split at hfile
  · rename_i names hnames
    obtain ⟨more, hmore, hsubset⟩ := namesAt_kept hwell hwell' hkept hnames
    obtain ⟨name, hname, hitem⟩ := List.mem_flatMap.1 hfile
    rw [hmore]
    refine List.mem_flatMap.2 ⟨name, hsubset name hname, ?_⟩
    unfold expandItem at hitem ⊢
    split at hitem
    · rename_i hlook
      rw [look_kept hkept hlook]
      exact hdescend _ _ hitem
    · rename_i content hlook
      rw [look_kept hkept hlook]
      exact hitem
    · cases hitem
  · cases hfile

theorem expandTree_kept (hwell : tree.WellFormed) (hwell' : later.WellFormed)
    (hkept : tree.IsKeptBy later) (depth : Nat) (path : FilePath) :
    ∀ file ∈ expandTree tree here depth path, file ∈ expandTree later here depth path := by
  induction depth generalizing path with
  | zero => exact expandItems_kept hwell hwell' hkept (fun _ file hfile => hfile) path
  | succ depth ih => exact expandItems_kept hwell hwell' hkept ih path

/-! ## All files of a region -/

/-- Whether the paths are those of the files below a place of a region, in order. -/
def Expands (tree : FileTree) (path : FilePath) (place rest : Location) (paths : List Text) :
    Prop :=
  ∃ files, tree.ListsFiles (place ++ rest) files ∧
    paths = files.map fun file => (path.below (rest ++ file)).text

theorem expands_expandItems (hregion : tree.Region here path place) (hrest : rest.IsProper)
    (hget : tree.get? (place ++ rest) = some .directory) {descend : FilePath → List Text}
    (hdescend : ∀ name, Location.IsProper (rest ++ [name]) →
      tree.get? (place ++ (rest ++ [name])) = some .directory →
      Expands tree path place (rest ++ [name]) (descend (path.below (rest ++ [name])))) :
    Expands tree path place rest (expandItems tree here descend (path.below rest)) := by
  have hnames : namesAt tree here (path.below rest).text = .ok (tree.names (place ++ rest)) :=
    namesAt_eq_ok_iff.2 ⟨_, hregion.locate_of_get? hget, hget, rfl⟩
  have hitem : ∀ name ∈ tree.names (place ++ rest), ∃ files,
      tree.ListsFiles (place ++ rest ++ [name]) files ∧
        expandItem tree here descend ((path.below rest).child name) =
          files.map fun file => (path.below (rest ++ name :: file)).text := by
    intro name hname
    have hnamed := hregion.well.isName_of_mem_names hname
    have hproper := hrest.concat hnamed
    obtain ⟨item, hsome⟩ := Option.isSome_iff_exists.1 (hregion.well.mem_names.1 hname)
    have hassoc : tree.get? (place ++ (rest ++ [name])) = some item := by
      rwa [← List.append_assoc]
    rw [FilePath.child_of_isName hnamed, FilePath.below_below, expandItem,
      (hregion.look_iff hproper).2 hassoc]
    cases item with
    | directory =>
        obtain ⟨files, hfiles, heq⟩ := hdescend name hproper hassoc
        exact ⟨files, by rwa [List.append_assoc], by simpa using heq⟩
    | file content => exact ⟨[[]], listsFiles_file hregion.well hsome, by simp⟩
    | link target => exact absurd hassoc (hregion.unlinked _ _)
  choose! filesOf hfilesOf hexpanded using hitem
  refine ⟨_, listsFiles_directory hregion.well hget hfilesOf, ?_⟩
  rw [expandItems, hnames]
  simp only [List.map_flatMap, List.map_map]
  exact List.flatMap_congr fun name hname => hexpanded name hname

theorem expands_expandTree (hregion : tree.Region here path place) (depth : Nat)
    (hrest : rest.IsProper) (hget : tree.get? (place ++ rest) = some .directory)
    (hdepth : longestPath ≤ rest.length + (depth + 1)) :
    Expands tree path place rest (expandTree tree here depth (path.below rest)) := by
  induction depth generalizing rest with
  | zero =>
      refine expands_expandItems hregion hrest hget fun name _ hdirectory => ?_
      have := hregion.length_lt hdirectory
      simp only [List.length_append, List.length_singleton] at this
      omega
  | succ depth ih =>
      refine expands_expandItems hregion hrest hget fun name hproper hdirectory => ?_
      refine ih hproper hdirectory ?_
      simp only [List.length_append, List.length_singleton]
      omega

/-- A target that makes up a region is recorded with all its files. -/
theorem expand_region (hregion : tree.Region here path place)
    (hsome : (tree.get? place).isSome) :
    ∃ files, tree.ListsFiles place files ∧
      expand tree here path = .ok (files.map fun file => (path.below file).text) := by
  have hnil := Location.isProper_nil
  obtain ⟨item, hitem⟩ := Option.isSome_iff_exists.1 hsome
  have hget : tree.get? (place ++ []) = some item := by rwa [List.append_nil]
  have hlook : tree.look here (path.below []).text true = .ok item :=
    (hregion.look_iff hnil).2 hget
  rw [FilePath.below_nil] at hlook
  rw [expand, hlook]
  cases item with
  | directory =>
      obtain ⟨files, hfiles, heq⟩ := expands_expandTree hregion longestPath hnil hget (by simp)
      rw [FilePath.below_nil] at heq
      exact ⟨files, by simpa using hfiles, by simpa [judged, FileItem.isDirectory] using heq⟩
  | file content =>
      exact ⟨[[]], listsFiles_file hregion.well hitem, by simp [judged, FileItem.isDirectory]⟩
  | link target => exact absurd hget (hregion.unlinked _ _)

/-! ## Recording -/

/-- What is left after something was noted in the journal. -/
structure Session.Notes (s s' : Session) : Prop extends s.Agrees s' where
  tree : s'.tree = s.tree
  manifests : s'.manifests = s.manifests

theorem Session.Looks.notes (h : s.Looks s') : s.Notes s' := ⟨h.toAgrees, h.tree, h.manifests⟩

theorem Session.Notes.trans (h : s.Notes m) (h' : m.Notes s') : s.Notes s' :=
  ⟨h.toAgrees.trans h'.toAgrees, h'.tree.trans h.tree, h'.manifests.trans h.manifests⟩

namespace Action

theorem discipline_notes : Discipline Notes := ⟨fun s => (Looks.refl s).notes, Notes.trans⟩

theorem follows_updateJournal (update : Journal → Journal) :
    (updateJournal update).Follows Notes := by
  intro s r s' h
  obtain ⟨-, rfl⟩ := ends_modify.1 h
  exact ⟨⟨rfl, rfl, id⟩, rfl, rfl⟩

theorem ends_unseen {kind message : Text} {failure : Failure} {r : Except Failure Unit}
    (h : (unseen kind message failure).Ends s r s') : s.Looks s' ∧ r = .ok () :=
  ⟨follows_printWarning _ _ _ _ h, ends_printWarning _ h⟩

section Following

variable {rel : Session → Session → Prop} (hrel : Discipline rel)
  (hpeeks : ∀ s s' : Session, s.Peeks s' → rel s s')
  (hprint : ∀ message, (printWarning message).Follows rel)
  (hnote : ∀ text, (updateJournal fun journal => note journal text).Follows rel)
include hrel hprint

theorem follows_unseen_of (kind message : Text) (failure : Failure) :
    (if failure.isOfSystem then unseen kind message failure else throw failure :
      Action Unit).Follows rel :=
  hrel.orThrow (hprint _)

include hpeeks hnote

theorem follows_recordItem_of {descend : FilePath → Action Unit}
    (hdescend : ∀ path, (descend path).Follows rel) (path : FilePath) (name : Text) :
    (recordItem note descend path name).Follows rel := by
  refine hrel.bind ((peeks_item _).mono hpeeks).attempt fun found => ?_
  cases found with
  | error failure => exact follows_unseen_of hrel hprint _ _ _
  | ok item =>
      cases item with
      | directory => exact hdescend _
      | file content => exact hnote _
      | link target => exact hrel.pure _

theorem follows_recordItems_of {descend : FilePath → Action Unit}
    (hdescend : ∀ path, (descend path).Follows rel) (path : FilePath) :
    (recordItems note descend path).Follows rel := by
  refine hrel.bind ((peeks_names _).mono hpeeks).attempt fun found => ?_
  cases found with
  | error failure => exact follows_unseen_of hrel hprint _ _ _
  | ok names =>
      exact hrel.forM fun name _ =>
        follows_recordItem_of hrel hpeeks hprint hnote hdescend path name

theorem follows_recordTree_of (depth : Nat) (path : FilePath) :
    (recordTree note depth path).Follows rel := by
  induction depth generalizing path with
  | zero => exact follows_recordItems_of hrel hpeeks hprint hnote (fun _ => hrel.pure _) path
  | succ depth ih => exact follows_recordItems_of hrel hpeeks hprint hnote ih path

/-- A relation that holds of looking around, of showing warnings and of noting paths holds of
recording. -/
theorem follows_record_of (path : Text) : (record note path).Follows rel := by
  refine hrel.bind ((peeks_isDirectory _).mono hpeeks) fun found => ?_
  split
  · exact follows_recordTree_of hrel hpeeks hprint hnote _ _
  · exact hnote _

end Following

theorem follows_record (path : Text) : (record note path).Follows Notes :=
  follows_record_of discipline_notes (fun _ _ h => h.toLooks.notes)
    (fun message => (follows_printWarning message).mono fun _ _ => Looks.notes)
    (fun _ => follows_updateJournal _) path

/-! ## Recording, whichever calls fail -/

end Action

/-- Something is there at a text that goes on from a path. -/
def FileTree.HasBelow (tree : FileTree) (here : Location) (path : FilePath) (text : Text) : Prop :=
  ∃ rest : Location, rest.IsProper ∧ text = (path.below rest).text ∧
    (tree.look here text false).isOk = true

/-- What was noted are paths that go on from a path, with something at each of them. -/
def Session.Tells (note : Journal → Text → Journal) (path : FilePath) (s s' : Session) : Prop :=
  s.tree.WellFormed → s.Notes s' ∧ ∃ files : List Text, s'.journal = files.foldl note s.journal ∧
    ∀ file ∈ files, s.tree.HasBelow s.here path file

theorem Session.Looks.tells (h : s.Looks s') : s.Tells note path s' :=
  fun _ => ⟨h.notes, [], h.journal, by simp⟩

namespace Action

theorem discipline_tells : Discipline (Tells note path) where
  refl s := (Looks.refl s).tells
  trans h h' hwell := by
    obtain ⟨hnotes, files, hjournal, hfiles⟩ := h hwell
    obtain ⟨hnotes', more, hjournal', hmore⟩ := h' (by rwa [hnotes.tree])
    refine ⟨hnotes.trans hnotes', files ++ more, ?_, fun file hfile => ?_⟩
    · rw [hjournal', hjournal, List.foldl_append]
    · rw [hnotes.tree, hnotes.here] at hmore
      exact (List.mem_append.1 hfile).elim (hfiles file) (hmore file)

theorem tells_printWarning (message : Text) : (printWarning message).Follows (Tells note path) :=
  (follows_printWarning message).mono fun _ _ => Looks.tells

theorem tells_note (hbelow : s.tree.HasBelow s.here path text) :
    s.Tells note path { s with journal := note s.journal text } := by
  refine fun _ => ⟨⟨⟨rfl, rfl, id⟩, rfl, rfl⟩, [text], rfl, fun file hfile => ?_⟩
  rwa [List.mem_singleton.1 hfile]

section Items

variable {descend : FilePath → Action Unit}

theorem follows_recordItem_tells
    (hdescend : ∀ rest : Location, rest.IsProper → (descend (path.below rest)).Follows
      (Tells note path)) (hrest : rest.IsProper) (hname : IsName name) :
    (recordItem note descend (path.below rest) name).Follows (Tells note path) := by
  intro s r s' h
  have hchild : (path.below rest).child name = path.below (rest ++ [name]) := by
    rw [FilePath.child_of_isName hname, FilePath.below_below]
  rw [recordItem, hchild] at h
  obtain ⟨found, m, hitem, hnext⟩ := ends_attempt_bind.1 h
  obtain ⟨hlooks, htold, -⟩ := ends_storage_item hitem
  refine discipline_tells.trans hlooks.tells ?_
  cases found with
  | error failure => exact follows_unseen_of discipline_tells tells_printWarning _ _ _ _ _ _ hnext
  | ok item =>
      cases item with
      | directory => exact hdescend _ (hrest.concat hname) _ _ _ hnext
      | file content =>
          obtain ⟨other, hother⟩ := look_unfollowed (htold _ rfl)
          rw [← hlooks.tree, ← hlooks.here] at hother
          obtain ⟨-, rfl⟩ := ends_modify.1 hnext
          exact tells_note ⟨_, hrest.concat hname, rfl, isOk_iff.2 ⟨other, hother⟩⟩
      | link target => exact discipline_tells.pure _ _ _ _ hnext

theorem follows_recordItems_tells
    (hdescend : ∀ rest : Location, rest.IsProper → (descend (path.below rest)).Follows
      (Tells note path)) (hrest : rest.IsProper) :
    (recordItems note descend (path.below rest)).Follows (Tells note path) := by
  intro s r s' h hwell
  obtain ⟨found, m, hlist, hnext⟩ := ends_attempt_bind.1 h
  obtain ⟨hlooks, htold, -⟩ := ends_storage_names hlist
  refine discipline_tells.trans hlooks.tells ?_ hwell
  cases found with
  | error failure => exact follows_unseen_of discipline_tells tells_printWarning _ _ _ _ _ _ hnext
  | ok names =>
      obtain ⟨place, -, -, rfl⟩ := namesAt_eq_ok_iff.1 (htold _ rfl)
      exact discipline_tells.forM (fun name hname => follows_recordItem_tells hdescend hrest
        (hwell.isName_of_mem_names hname)) _ _ _ hnext

end Items

theorem follows_recordTree_tells (depth : Nat) (hrest : rest.IsProper) :
    (recordTree note depth (path.below rest)).Follows (Tells note path) := by
  induction depth generalizing rest with
  | zero => exact follows_recordItems_tells (fun _ _ => discipline_tells.pure _) hrest
  | succ depth ih => exact follows_recordItems_tells (fun _ hproper => ih hproper) hrest

/-- Whatever fails, only paths of items are recorded. -/
theorem tells_of_record {r : Except Failure Unit} (hproper : path.IsProper)
    (hthere : (s.tree.look s.here path.text false).isOk = true)
    (h : (record note path.text).Ends s r s') : s.Tells note path s' := by
  rw [record, hproper.ofText_text] at h
  rcases ends_bind.1 h with ⟨found, m, hlook, hnext⟩ | ⟨failure, hlook, -⟩
  case inr => exact (ends_storage_isDirectory hlook).1.tells
  have hlooks := (ends_storage_isDirectory hlook).1
  refine discipline_tells.trans hlooks.tells ?_
  split at hnext
  · have htree : (recordTree note longestPath (path.below [])).Follows (Tells note path) :=
      follows_recordTree_tells _ Location.isProper_nil
    rw [FilePath.below_nil] at htree
    exact htree _ _ _ hnext
  · obtain ⟨-, rfl⟩ := ends_modify.1 hnext
    rw [← hlooks.tree, ← hlooks.here] at hthere
    exact tells_note ⟨[], Location.isProper_nil, by rw [FilePath.below_nil], hthere⟩

/-! ## Recording if no call is made to fail -/

/-- What was noted are the files of a list, one after the other. -/
structure Records (note : Journal → Text → Journal) (files : List Text) (s : Session)
    (r : Except Failure Unit) (s' : Session) : Prop where
  ended : r = .ok ()
  notes : s.Notes s'
  journal : s'.journal = files.foldl note s.journal

theorem Records.of_looks (h : s.Looks s') : Records note [] s (.ok ()) s' :=
  ⟨rfl, h.notes, h.journal⟩

theorem Records.trans {first second : List Text} {r r' : Except Failure Unit}
    (h : Records note first s r m) (h' : Records note second m r' s') :
    Records note (first ++ second) s r' s' :=
  ⟨h'.ended, h.notes.trans h'.notes, by rw [h'.journal, h.journal, List.foldl_append]⟩

section Items

variable {descend : FilePath → Action Unit} {listed : FileTree → Location → FilePath → List Text}

/-- An action records the files that are listed for directories. -/
def RecordsListed (note : Journal → Text → Journal) (descend : FilePath → Action Unit)
    (listed : FileTree → Location → FilePath → List Text) : Prop :=
  ∀ path s r s', s.IsCalm → s.tree.WellFormed → path.IsProper →
    PathText.fault? path.text = none → (descend path).Ends s r s' →
    Records note (listed s.tree s.here path) s r s'

theorem records_recordItem (hdescend : RecordsListed note descend listed) (hcalm : s.IsCalm)
    (hwell : s.tree.WellFormed) (hproper : path.IsProper)
    (hfault : PathText.fault? path.text = none) (hname : IsName name)
    {r : Except Failure Unit} (h : (recordItem note descend path name).Ends s r s') :
    Records note (expandItem s.tree s.here (listed s.tree s.here) (path.child name)) s r s' := by
  have hproper' := hproper.child name
  have hfault' : PathText.fault? (path.child name).text = none := by
    rw [FilePath.child_of_isName hname]
    exact FilePath.fault?_below hproper hfault hname
  obtain ⟨found, m, hitem, hnext⟩ := ends_attempt_bind.1 h
  obtain ⟨hlooks, -, htold⟩ := ends_storage_item hitem
  have hlook := (htold hcalm).symm
  rw [expandItem, hlook]
  cases found with
  | error failure =>
      have hsystem : failure.isOfSystem = true := by
        rcases look_eq_error hlook with hpath | ⟨cause, rfl⟩
        · rw [hfault'] at hpath
          cases hpath
        · rfl
      simp only [hsystem, if_true] at hnext
      obtain ⟨hshown, rfl⟩ := ends_unseen hnext
      exact .of_looks (hlooks.trans hshown)
  | ok item =>
      cases item with
      | directory =>
          have hmore := hdescend _ _ _ _ (hlooks.isCalm hcalm) (by rwa [hlooks.tree]) hproper'
            hfault' hnext
          rw [hlooks.tree, hlooks.here] at hmore
          exact Records.trans (.of_looks hlooks) hmore
      | file content =>
          obtain ⟨rfl, rfl⟩ := ends_modify.1 hnext
          exact ⟨rfl, hlooks.notes.trans ⟨⟨rfl, rfl, id⟩, rfl, rfl⟩, by simp [hlooks.journal]⟩
      | link target =>
          obtain ⟨rfl, rfl⟩ := ends_pure.1 hnext
          exact .of_looks hlooks

/-- The tree stays as it is while one name after the other is recorded. -/
theorem records_names (hdescend : RecordsListed note descend listed) (hcalm : s.IsCalm)
    (hwell : s.tree.WellFormed) (hproper : path.IsProper)
    (hfault : PathText.fault? path.text = none) {names : List Text}
    (hnamed : ∀ name ∈ names, IsName name) {t : Session} (hnotes : s.Notes t)
    {r : Except Failure Unit} (h : (names.forM (recordItem note descend path)).Ends t r s') :
    Records note (names.flatMap fun name =>
      expandItem s.tree s.here (listed s.tree s.here) (path.child name)) t r s' := by
  induction names generalizing t with
  | nil =>
      obtain ⟨rfl, rfl⟩ := ends_pure.1 h
      exact .of_looks (.refl _)
  | cons name names ih =>
      have hone : ∀ {r' u}, (recordItem note descend path name).Ends t r' u →
          Records note (expandItem s.tree s.here (listed s.tree s.here) (path.child name))
            t r' u := by
        intro r' u hitem
        have hrecord := records_recordItem hdescend (hnotes.isCalm hcalm) (by rwa [hnotes.tree])
          hproper hfault (hnamed name List.mem_cons_self) hitem
        rwa [hnotes.tree, hnotes.here] at hrecord
      rw [List.flatMap_cons]
      rcases ends_bind.1 h with ⟨_, u, hitem, hrest⟩ | ⟨failure, hitem, -⟩
      · have hrecord := hone hitem
        exact hrecord.trans (ih (fun other hother => hnamed other (List.mem_cons_of_mem _ hother))
          (hnotes.trans hrecord.notes) hrest)
      · cases (hone hitem).ended

theorem records_recordItems (hdescend : RecordsListed note descend listed) :
    RecordsListed note (recordItems note descend)
      fun tree here => expandItems tree here (listed tree here) := by
  intro path s r s' hcalm hwell hproper hfault h
  obtain ⟨found, m, hlist, hnext⟩ := ends_attempt_bind.1 h
  obtain ⟨hlooks, -, htold⟩ := ends_storage_names hlist
  have hnames := (htold hcalm).symm
  show Records note (expandItems s.tree s.here (listed s.tree s.here) path) s r s'
  rw [expandItems, hnames]
  cases found with
  | error failure =>
      have hsystem : failure.isOfSystem = true := by
        rcases namesAt_eq_error hnames with hpath | ⟨cause, rfl⟩
        · rw [hfault] at hpath
          cases hpath
        · rfl
      simp only [hsystem, if_true] at hnext
      obtain ⟨hshown, rfl⟩ := ends_unseen hnext
      exact .of_looks (hlooks.trans hshown)
  | ok names =>
      have hnamed : ∀ name ∈ names, IsName name := by
        obtain ⟨place, -, -, rfl⟩ := namesAt_eq_ok_iff.1 hnames
        exact fun name hname => hwell.isName_of_mem_names hname
      exact (Records.of_looks hlooks).trans
        (records_names hdescend hcalm hwell hproper hfault hnamed hlooks.notes hnext)

theorem records_recordTree (depth : Nat) :
    RecordsListed note (recordTree note depth) fun tree here => expandTree tree here depth := by
  induction depth with
  | zero =>
      have hnothing : RecordsListed note (fun _ => pure ()) fun _ _ _ => [] := by
        intro path s r s' _ _ _ _ h
        obtain ⟨rfl, rfl⟩ := ends_pure.1 h
        exact .of_looks (.refl _)
      exact records_recordItems hnothing
  | succ depth ih => exact records_recordItems ih

end Items

/-- A target is recorded with its expansion, unless it cannot be told what it is. -/
theorem ends_record {r : Except Failure Unit} (hcalm : s.IsCalm) (hwell : s.tree.WellFormed)
    (hproper : path.IsProper) (h : (record note path.text).Ends s r s') :
    (∃ files, expand s.tree s.here path = .ok files ∧ Records note files s r s') ∨
      ∃ failure, expand s.tree s.here path = .error failure ∧ r = .error failure ∧
        s.Looks s' := by
  rw [record, hproper.ofText_text] at h
  rcases ends_bind.1 h with ⟨found, m, hlook, hnext⟩ | ⟨failure, hlook, rfl⟩
  · obtain ⟨hlooks, htold, -⟩ := ends_storage_isDirectory hlook
    have hjudged := htold found rfl
    left
    rw [expand, hjudged]
    cases found with
    | true =>
        obtain ⟨place, hlocate, -⟩ := look_eq_ok_iff.1 (judged_isDirectory.1 hjudged)
        refine ⟨_, rfl, ?_⟩
        have hrecord := records_recordTree longestPath path m r s' (hlooks.isCalm hcalm)
          (by rwa [hlooks.tree]) hproper (locate_eq_ok_iff.1 hlocate).1.1 hnext
        rw [hlooks.tree, hlooks.here] at hrecord
        exact Records.of_looks hlooks |>.trans hrecord
    | false =>
        obtain ⟨rfl, rfl⟩ := ends_modify.1 hnext
        exact ⟨_, rfl, rfl, hlooks.notes.trans ⟨⟨rfl, rfl, id⟩, rfl, rfl⟩,
          by simp [hlooks.journal]⟩
  · obtain ⟨hlooks, -, htold⟩ := ends_storage_isDirectory hlook
    refine .inr ⟨failure, ?_, rfl, hlooks⟩
    rw [expand, ← htold hcalm]

end Action

end Stencil
