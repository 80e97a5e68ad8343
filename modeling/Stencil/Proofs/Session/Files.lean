import Stencil.Proofs.FileTree.Region
import Stencil.Proofs.Session.Frame
import Stencil.Session.Copy

/-!
# Steps on files

How the single steps on files end, by what the tree says of their paths.
Looking around changes nothing, and directories are only ever added.
-/

namespace Stencil

/-! ## Failures -/

namespace Failure

def isOfCopying : Failure → Bool
  | .copying _ => true
  | _ => false

theorem not_isOfCopying_of_fault? {path : Text} {failure : Failure}
    (h : PathText.fault? path = some failure) : failure.isOfCopying = false := by
  unfold PathText.fault? at h
  split at h
  · cases h
    rfl
  · split at h <;> cases h
    rfl

end Failure

namespace Action

open FileTree

variable {α β : Type} {s m s' : Session} {path : Text} {place : Location} {followLast : Bool}

theorem discipline_eq : Discipline (Eq : Session → Session → Prop) := ⟨fun _ => rfl, Eq.trans⟩

/-- Every failure of an action passes a test. -/
def FailsWith (action : Action α) (test : Failure → Prop) : Prop :=
  ∀ s failure s', action.Ends s (.error failure) s' → test failure

theorem FailsWith.bind {action : Action α} {next : α → Action β} {test : Failure → Prop}
    (h : action.FailsWith test) (hnext : ∀ a, (next a).FailsWith test) :
    (action >>= next).FailsWith test := by
  intro s failure s' hend
  rcases ends_bind.1 hend with ⟨a, m, -, hrest⟩ | ⟨other, hfirst, heq⟩
  · exact hnext a m failure s' hrest
  · cases heq
    exact h s failure s' hfirst

theorem FailsWith.pure {a : α} {test : Failure → Prop} :
    (Pure.pure a : Action α).FailsWith test := by
  intro s failure s' hend
  cases (ends_pure.1 hend).1

theorem FailsWith.throw {failure : Failure} {test : Failure → Prop} (h : test failure) :
    (MonadExcept.throw failure : Action α).FailsWith test := by
  intro s other s' hend
  cases (ends_throw.1 hend).1
  exact h

/-! ## Looking -/

theorem ends_locate {r : Except Failure Location} :
    (locate path followLast).Ends s r s' ↔
      r = s.tree.locate s.here path followLast ∧ s' = s := by
  simp [locate]

theorem ends_look {r : Except Failure FileItem} :
    (look path).Ends s r s' ↔ r = s.tree.look s.here path true ∧ s' = s := by
  simp [look]

theorem ends_exists? {r : Except Failure Bool} :
    (exists? path).Ends s r s' ↔
      r = .ok (s.tree.look s.here path false).isOk ∧ s' = s := by
  rw [exists?, ends_get_bind]
  cases s.tree.look s.here path false <;> simp [Except.isOk, Except.toBool]

theorem isOk_iff {result : Except Failure α} : result.isOk = true ↔ ∃ a, result = .ok a := by
  cases result <;> simp [Except.isOk, Except.toBool]

/-- What a test says after looking for an item. -/
def judged (test : FileItem → Bool) : Except Failure FileItem → Except Failure Bool
  | .ok item => .ok (test item)
  | .error (.system cause path) =>
      if cause.isAbsence then .ok false else .error (.system cause path)
  | .error _ => .ok false

theorem judged_eq_true {test : FileItem → Bool} {found : Except Failure FileItem} :
    judged test found = .ok true ↔ ∃ item, found = .ok item ∧ test item = true := by
  unfold judged
  split
  · simp
  · split <;> simp
  · simp

theorem judged_isDirectory {found : Except Failure FileItem} :
    judged FileItem.isDirectory found = .ok true ↔ found = .ok .directory := by
  rw [judged_eq_true]
  simp

theorem ends_passes {test : FileItem → Bool} {r : Except Failure Bool} :
    (passes test path).Ends s r s' ↔
      r = judged test (s.tree.look s.here path true) ∧ s' = s := by
  rw [passes, ends_get_bind]
  generalize s.tree.look s.here path true = found
  rcases found with failure | item
  · cases failure with
    | system cause other =>
        cases habsence : cause.isAbsence <;> simp [judged, habsence]
    | _ => exact ends_pure
  · exact ends_pure

theorem ends_isDirectory {r : Except Failure Bool} :
    (isDirectory path).Ends s r s' ↔
      r = judged FileItem.isDirectory (s.tree.look s.here path true) ∧ s' = s :=
  ends_passes

/-- A relative path goes on from the current directory, which has to be there. -/
theorem ends_absolute {path full : FilePath} (h : (absolute path).Ends s (.ok full) s') :
    full = (Location.path s.here).join path ∧
      (path.isAbsolute = true ∨ s.tree.get? s.here = some .directory) := by
  unfold absolute at h
  split at h
  · rename_i habsolute
    obtain ⟨hfound, -⟩ := ends_pure.1 h
    cases hfound
    exact ⟨by rw [FilePath.join, if_pos habsolute], .inl habsolute⟩
  · obtain ⟨current, t, hcurrent, hjoin⟩ := ends_bind_ok.1 h
    obtain ⟨hfound, -⟩ := ends_pure.1 hjoin
    cases hfound
    rw [currentDirectory, ends_get_bind] at hcurrent
    split at hcurrent
    · rename_i hhere
      obtain ⟨hfound, -⟩ := ends_pure.1 hcurrent
      cases hfound
      exact ⟨rfl, .inr (any_isDirectory_iff.1 hhere)⟩
    · cases (ends_throw.1 hcurrent).1

theorem ends_leadsToDirectory {r : Except Failure Bool}
    (h : (leadsToDirectory path).Ends s r s') :
    s' = s ∧ ∃ found, r = .ok found ∧
      (found = true ↔ s.tree.look s.here path true = .ok .directory) := by
  have hattempt : (attempt (isDirectory path)).Ends s
      (.ok (judged FileItem.isDirectory (s.tree.look s.here path true))) s :=
    ends_attempt.2 ⟨_, rfl, ends_isDirectory.2 ⟨rfl, rfl⟩⟩
  rw [leadsToDirectory, hattempt.bind_iff] at h
  rw [← judged_isDirectory]
  cases hfound : judged FileItem.isDirectory (s.tree.look s.here path true) with
  | ok found =>
      rw [hfound] at h
      obtain ⟨rfl, rfl⟩ := ends_pure.1 h
      exact ⟨rfl, found, rfl, by simp⟩
  | error failure =>
      rw [hfound] at h
      obtain ⟨rfl, rfl⟩ := ends_pure.1 h
      exact ⟨rfl, false, rfl, by simp⟩

theorem ends_readContent {r : Except Failure Content} (h : (readContent path).Ends s r s') :
    s' = s ∧ ∀ content, r = .ok content ↔ s.tree.look s.here path true = .ok (.file content) := by
  rw [readContent] at h
  cases hlook : s.tree.look s.here path true with
  | error failure =>
      rcases ends_bind.1 h with ⟨item, m, hfirst, -⟩ | ⟨failure', hfirst, rfl⟩
      · rw [ends_look, hlook] at hfirst
        cases hfirst.1
      · obtain ⟨-, rfl⟩ := ends_look.1 hfirst
        simp
  | ok item =>
      rw [Ends.bind_iff (ends_look.2 ⟨hlook.symm, rfl⟩)] at h
      cases item with
      | directory =>
          obtain ⟨rfl, rfl⟩ := ends_throw.1 h
          simp
      | file content =>
          obtain ⟨rfl, rfl⟩ := ends_pure.1 h
          simp
      | link target =>
          obtain ⟨rfl, rfl⟩ := ends_throw.1 h
          simp

/-- The names in a directory, or why they cannot be told. -/
def namesAt (tree : FileTree) (here : Location) (path : Text) : Except Failure (List Text) :=
  match tree.locate here path true with
  | .error failure => .error failure
  | .ok place =>
      match tree.get? place with
      | some .directory => .ok (tree.names place)
      | some _ => .error (.system .notDirectory path)
      | none => .error (.system .missing path)

theorem namesAt_eq_ok_iff {tree : FileTree} {here : Location} {names : List Text} :
    namesAt tree here path = .ok names ↔ ∃ place, tree.locate here path true = .ok place ∧
      tree.get? place = some .directory ∧ names = tree.names place := by
  unfold namesAt
  cases tree.locate here path true with
  | error failure => simp
  | ok place =>
      simp only [Except.ok.injEq, exists_eq_left']
      cases hget : tree.get? place with
      | none => simp
      | some item => cases item <;> simp [eq_comm]

theorem namesAt_eq_error {tree : FileTree} {here : Location} {failure : Failure}
    (h : namesAt tree here path = .error failure) :
    PathText.fault? path = some failure ∨ ∃ cause, failure = .system cause path := by
  unfold namesAt at h
  cases hlocate : tree.locate here path true with
  | error other =>
      rw [hlocate] at h
      cases h
      exact locate_eq_error hlocate
  | ok place =>
      rw [hlocate] at h
      right
      dsimp only at h
      split at h <;> cases h
      · exact ⟨_, rfl⟩
      · exact ⟨_, rfl⟩

theorem ends_namesIn {r : Except Failure (List Text)} :
    (namesIn path).Ends s r s' ↔ r = namesAt s.tree s.here path ∧ s' = s := by
  rw [namesIn, namesAt]
  cases hlocate : s.tree.locate s.here path true with
  | error failure =>
      rw [ends_bind]
      simp [ends_locate, hlocate, and_comm]
  | ok place =>
      rw [Ends.bind_iff (ends_locate.2 ⟨hlocate.symm, rfl⟩), ends_get_bind]
      dsimp only
      cases s.tree.get? place with
      | none => exact ends_throw
      | some item =>
          cases item with
          | directory =>
              rw [ends_get_bind]
              exact ends_pure
          | file content => exact ends_throw
          | link target => exact ends_throw

theorem ends_openForWriting {r : Except Failure Location}
    (h : (openForWriting path).Ends s r s') :
    s' = s ∧ ∀ place, r = .ok place ↔ s.tree.locate s.here path true = .ok place ∧
      s.tree.get? place ≠ some .directory := by
  rw [openForWriting] at h
  cases hlocate : s.tree.locate s.here path true with
  | error failure =>
      rcases ends_bind.1 h with ⟨place, m, hfirst, -⟩ | ⟨failure', hfirst, rfl⟩
      · rw [ends_locate, hlocate] at hfirst
        cases hfirst.1
      · obtain ⟨-, rfl⟩ := ends_locate.1 hfirst
        simp
  | ok place =>
      rw [Ends.bind_iff (ends_locate.2 ⟨hlocate.symm, rfl⟩), ends_get_bind] at h
      split at h
      · rename_i hget
        obtain ⟨rfl, rfl⟩ := ends_throw.1 h
        refine ⟨rfl, fun other => ?_⟩
        simp only [reduceCtorEq, Except.ok.injEq, false_iff, not_and, not_not]
        rintro rfl
        exact hget
      · rename_i hget
        obtain ⟨rfl, rfl⟩ := ends_pure.1 h
        refine ⟨rfl, fun other => ?_⟩
        simp only [Except.ok.injEq, iff_self_and]
        rintro rfl
        exact hget

theorem ends_putContent {content : Content} {r : Except Failure Unit} :
    (putContent place content).Ends s r s' ↔
      r = .ok () ∧ s' = { s with tree := s.tree.put place (.file content) } := by
  rw [putContent, ends_get_bind]
  exact ends_modify

theorem failsWith_look : (look path).FailsWith (·.isOfCopying = false) := by
  intro s failure s' h
  obtain ⟨hlook, -⟩ := ends_look.1 h
  rcases look_eq_error hlook.symm with hfault | ⟨cause, rfl⟩
  · exact Failure.not_isOfCopying_of_fault? hfault
  · rfl

theorem failsWith_locate : (locate path followLast).FailsWith (·.isOfCopying = false) := by
  intro s failure s' h
  obtain ⟨hlocate, -⟩ := ends_locate.1 h
  rcases locate_eq_error hlocate.symm with hfault | ⟨cause, rfl⟩
  · exact Failure.not_isOfCopying_of_fault? hfault
  · rfl

/-! ## Making directories -/

theorem makeDirectory_unlocated {failure : Failure}
    (hlocate : s.tree.locate s.here path false = .error failure) :
    (makeDirectory path).Ends s (.error failure) s :=
  ends_bind.2 (.inr ⟨failure, ends_locate.2 ⟨hlocate.symm, rfl⟩, rfl⟩)

theorem makeDirectory_taken {place : Location} {item : FileItem}
    (hlocate : s.tree.locate s.here path false = .ok place)
    (hget : s.tree.get? place = some item) :
    (makeDirectory path).Ends s (.error (.system .exists path)) s := by
  rw [makeDirectory, Ends.bind_iff (ends_locate.2 ⟨hlocate.symm, rfl⟩), ends_get_bind, hget]
  exact ends_throw.2 ⟨rfl, rfl⟩

theorem makeDirectory_free {place : Location}
    (hlocate : s.tree.locate s.here path false = .ok place) (hget : s.tree.get? place = none) :
    (makeDirectory path).Ends s (.ok ()) { s with tree := s.tree.put place .directory } := by
  rw [makeDirectory, Ends.bind_iff (ends_locate.2 ⟨hlocate.symm, rfl⟩), ends_get_bind, hget]
  simp only [ends_get_bind, setTree]
  exact ends_modify.2 ⟨rfl, rfl⟩

/-- A directory is made where nothing is yet, or nothing happens. -/
theorem ends_makeDirectory {r : Except Failure Unit} (h : (makeDirectory path).Ends s r s') :
    (∃ failure, s.tree.locate s.here path false = .error failure ∧ r = .error failure ∧ s' = s) ∨
      (∃ place item, s.tree.locate s.here path false = .ok place ∧
        s.tree.get? place = some item ∧ r = .error (.system .exists path) ∧ s' = s) ∨
      ∃ place, s.tree.locate s.here path false = .ok place ∧ s.tree.get? place = none ∧
        r = .ok () ∧ s' = { s with tree := s.tree.put place .directory } := by
  cases hlocate : s.tree.locate s.here path false with
  | error failure =>
      exact .inl ⟨failure, rfl, h.unique (makeDirectory_unlocated hlocate)⟩
  | ok place =>
      cases hget : s.tree.get? place with
      | some item =>
          exact .inr (.inl ⟨place, item, rfl, hget, h.unique (makeDirectory_taken hlocate hget)⟩)
      | none => exact .inr (.inr ⟨place, rfl, hget, h.unique (makeDirectory_free hlocate hget)⟩)

theorem ends_makeDirectory_ok (h : (makeDirectory path).Ends s (.ok ()) s') :
    ∃ place, s.tree.locate s.here path false = .ok place ∧ s.tree.get? place = none ∧
      s' = { s with tree := s.tree.put place .directory } := by
  rcases ends_makeDirectory h with ⟨_, -, hr, -⟩ | ⟨_, _, -, -, hr, -⟩ | ⟨place, hlocate, hget, -, hs⟩
  · cases hr
  · cases hr
  · exact ⟨place, hlocate, hget, hs⟩

theorem ends_makeDirectory_error {failure : Failure}
    (h : (makeDirectory path).Ends s (.error failure) s') : s' = s := by
  rcases ends_makeDirectory h with ⟨_, -, -, hs⟩ | ⟨_, _, -, -, -, hs⟩ | ⟨_, -, -, hr, -⟩
  · exact hs
  · exact hs
  · cases hr

/-- What making directories leaves as it is. -/
structure Ensures (s s' : Session) : Prop extends s.Agrees s' where
  journal : s'.journal = s.journal
  manifests : s'.manifests = s.manifests
  adds : s.tree.WellFormed → s'.tree.WellFormed ∧ s.tree.AddsDirectories s'.tree

theorem discipline_ensures : Discipline Ensures where
  refl s := ⟨.refl s, rfl, rfl, fun hwell => ⟨hwell, .refl _⟩⟩
  trans h h' := ⟨h.toAgrees.trans h'.toAgrees, h'.journal.trans h.journal,
    h'.manifests.trans h.manifests, fun hwell =>
      ⟨(h'.adds (h.adds hwell).1).1, (h.adds hwell).2.trans (h'.adds (h.adds hwell).1).2⟩⟩

theorem follows_makeDirectory (path : Text) : (makeDirectory path).Follows Ensures := by
  intro s r s' h
  rcases ends_makeDirectory h with ⟨_, -, -, rfl⟩ | ⟨_, _, -, -, -, rfl⟩ |
    ⟨place, hlocate, hget, -, rfl⟩
  · exact discipline_ensures.refl _
  · exact discipline_ensures.refl _
  · refine ⟨⟨rfl, rfl, id⟩, rfl, rfl, fun hwell => ?_⟩
    have hroom : s.tree.HasRoom place :=
      (isSome_or_hasRoom hwell hlocate).resolve_left (by simp [hget])
    exact ⟨hwell.put hroom (fun _ => rfl) rfl, addsDirectories_put hroom.ne_nil hget⟩

theorem follows_isDirectory (path : Text) : (isDirectory path).Follows Eq :=
  fun _ _ _ h => (ends_isDirectory.1 h).2.symm

/-- A relation that holds of making single directories holds of making them where they are
missing. -/
theorem Discipline.makeOr {rel : Session → Session → Prop} (hrel : Discipline rel)
    (hmake : (makeDirectory path).Follows rel) {unlessAbove : Failure → Action Unit}
    (h : ∀ failure, (unlessAbove failure).Follows rel) : (makeOr path unlessAbove).Follows rel := by
  have heq : ∀ s s', s = s' → rel s s' := by
    rintro s _ rfl
    exact hrel.refl s
  refine hrel.orElseIf hmake fun failure => ?_
  split
  · exact h failure
  · refine hrel.bind ((follows_isDirectory path).mono heq) fun found => ?_
    split
    · exact hrel.throw failure
    · exact hrel.pure ()

/-- Directories are made where leading parts of a path lead to. -/
theorem Discipline.ensureNames {rel : Session → Session → Prop} (hrel : Discipline rel)
    {anchor : Anchor} {names : List Text}
    (hmake : ∀ front, front <+: names.reverse →
      (makeDirectory (FilePath.mk anchor front).text).Follows rel) :
    (ensureNames anchor names).Follows rel := by
  induction names with
  | nil => exact hrel.makeOr (hmake [] List.prefix_rfl) fun failure => hrel.throw failure
  | cons name above ih =>
      have habove : above.reverse <+: (name :: above).reverse := by simp
      have hwhole := hmake _ List.prefix_rfl
      exact hrel.makeOr hwhole fun _ => hrel.bind
        (ih fun front hfront => hmake front (hfront.trans habove)) fun _ =>
          hrel.makeOr hwhole fun failure => hrel.throw failure

theorem follows_ensureNames (anchor : Anchor) (names : List Text) :
    (ensureNames anchor names).Follows Ensures :=
  discipline_ensures.ensureNames fun _ _ => follows_makeDirectory _

theorem follows_ensureDirectories (path : FilePath) :
    (ensureDirectories path).Follows Ensures :=
  follows_ensureNames _ _

/-- A directory that was just made is found at its path. -/
theorem locate_of_makeDirectory (hwell : s.tree.WellFormed)
    (h : (makeDirectory path).Ends s (.ok ()) s') :
    ∃ place, s.tree.get? place = none ∧ s' = { s with tree := s.tree.put place .directory } ∧
      s'.tree.get? place = some .directory ∧ s'.tree.locate s'.here path true = .ok place := by
  obtain ⟨place, hlocate, hget, rfl⟩ := ends_makeDirectory_ok h
  have hroom : s.tree.HasRoom place :=
    (isSome_or_hasRoom hwell hlocate).resolve_left (by simp [hget])
  have hput (target : Text) : (s.tree.put place .directory).get? place ≠ some (.link target) := by
    simp [get?_put hroom.ne_nil]
  exact ⟨place, hget, rfl, by simp [get?_put hroom.ne_nil],
    locate_extend (isKeptBy_put hroom.ne_nil hget).isExtendedBy
      (locate_followed hlocate (by simp [hget])) fun _ => hput⟩

theorem look_of_makeDirectory (hwell : s.tree.WellFormed)
    (h : (makeDirectory path).Ends s (.ok ()) s') :
    s'.tree.look s'.here path true = .ok .directory := by
  obtain ⟨place, -, -, hget, hlocate⟩ := locate_of_makeDirectory hwell h
  exact look_eq_ok_iff.2 ⟨place, hlocate, hget⟩

/-- A directory was just made, it was there already, or those above it had to be made first. -/
theorem ends_makeOr_ok {unlessAbove : Failure → Action Unit}
    (h : (makeOr path unlessAbove).Ends s (.ok ()) s') :
    (makeDirectory path).Ends s (.ok ()) s' ∨
      (s.tree.look s.here path true = .ok .directory ∧ s' = s) ∨
      ∃ failure, (unlessAbove failure).Ends s (.ok ()) s' := by
  rcases ends_orElseIf.1 h with ⟨_, hmake, -⟩ | ⟨failure, m, hmake, -, hhandle⟩ | ⟨_, -, -, hr⟩
  · exact .inl hmake
  · obtain rfl := ends_makeDirectory_error hmake
    split at hhandle
    · exact .inr (.inr ⟨failure, hhandle⟩)
    · obtain ⟨found, m, hfound, hlast⟩ := ends_bind_ok.1 hhandle
      obtain ⟨hfound, rfl⟩ := ends_isDirectory.1 hfound
      cases found with
      | false => cases (ends_throw.1 hlast).1
      | true =>
          obtain ⟨-, rfl⟩ := ends_pure.1 hlast
          exact .inr (.inl ⟨judged_isDirectory.1 hfound.symm, rfl⟩)
  · cases hr

theorem look_of_makeOr (hwell : s.tree.WellFormed) {unlessAbove : Failure → Action Unit}
    (h : (makeOr path unlessAbove).Ends s (.ok ()) s') :
    s'.tree.look s'.here path true = .ok .directory ∨
      ∃ failure, (unlessAbove failure).Ends s (.ok ()) s' := by
  rcases ends_makeOr_ok h with hmake | ⟨hlook, rfl⟩ | hhandle
  · exact .inl (look_of_makeDirectory hwell hmake)
  · exact .inl hlook
  · exact .inr hhandle

theorem look_of_ensureNames {anchor : Anchor} {names : List Text} (hwell : s.tree.WellFormed)
    (h : (ensureNames anchor names).Ends s (.ok ()) s') :
    s'.tree.look s'.here (FilePath.mk anchor names.reverse).text true = .ok .directory := by
  cases names with
  | nil =>
      rcases look_of_makeOr hwell h with hlook | ⟨failure, hthrow⟩
      · exact hlook
      · cases (ends_throw.1 hthrow).1
  | cons name above =>
      rcases look_of_makeOr hwell h with hlook | ⟨failure, hagain⟩
      · exact hlook
      · obtain ⟨_, m, habove, hlast⟩ := ends_bind_ok.1 hagain
        have hm := ((follows_ensureNames anchor above _ _ _ habove).adds hwell).1
        rcases look_of_makeOr hm hlast with hlook | ⟨failure, hthrow⟩
        · exact hlook
        · cases (ends_throw.1 hthrow).1

/-- If all goes well, a directory is there. -/
theorem look_of_ensureDirectories {path : FilePath} (hwell : s.tree.WellFormed)
    (h : (ensureDirectories path).Ends s (.ok ()) s') :
    s'.tree.look s'.here path.text true = .ok .directory := by
  have := look_of_ensureNames hwell h
  rwa [List.reverse_reverse] at this

theorem ends_makeOr_of_look {unlessAbove : Failure → Action Unit} {r : Except Failure Unit}
    (hlook : s.tree.look s.here path true = .ok .directory) :
    (makeOr path unlessAbove).Ends s r s' ↔ r = .ok () ∧ s' = s := by
  obtain ⟨item, hitem⟩ := look_unfollowed hlook
  obtain ⟨place, hlocate, hget⟩ := look_eq_ok_iff.1 hitem
  have hmake : (makeDirectory path).Ends s (.error (.system .exists path)) s := by
    have hrun := Ends.run (makeDirectory path) s
    rcases ends_makeDirectory hrun with ⟨_, herror, -, -⟩ | ⟨_, _, -, -, hr, hs⟩ |
      ⟨other, hother, hnone, -, -⟩
    · rw [hlocate] at herror
      cases herror
    · rwa [hr, hs] at hrun
    · rw [hlocate] at hother
      cases hother
      rw [hget] at hnone
      cases hnone
  have hhandle : (do
      if Failure.isMissing (.system .exists path) then unlessAbove (.system .exists path)
      else if !(← isDirectory path) then throw (.system .exists path) : Action Unit).Ends s (.ok ()) s := by
    have hdirectory : (isDirectory path).Ends s (.ok true) s :=
      ends_isDirectory.2 ⟨(judged_isDirectory.2 hlook).symm, rfl⟩
    simp only [Failure.isMissing, Bool.false_eq_true, if_false]
    rw [hdirectory.bind_iff]
    exact ends_pure.2 ⟨rfl, rfl⟩
  have hall : (makeOr path unlessAbove).Ends s (.ok ()) s :=
    ends_orElseIf.2 (.inr (.inl ⟨_, s, hmake, rfl, hhandle⟩))
  constructor
  · intro h
    obtain ⟨hr, hs⟩ := hall.unique h
    exact ⟨hr.symm, hs.symm⟩
  · rintro ⟨rfl, rfl⟩
    exact hall

/-- Where the directory is there already nothing happens. -/
theorem ends_ensureDirectories_of_look {path : FilePath} {r : Except Failure Unit}
    (hlook : s.tree.look s.here path.text true = .ok .directory) :
    (ensureDirectories path).Ends s r s' ↔ r = .ok () ∧ s' = s := by
  rw [ensureDirectories]
  cases hnames : path.parts.reverse with
  | nil =>
      have hpath : FilePath.mk path.anchor [] = path := by
        rw [← List.reverse_eq_nil_iff.1 hnames]
      exact ends_makeOr_of_look (hpath ▸ hlook)
  | cons name above =>
      have hpath : FilePath.mk path.anchor (name :: above).reverse = path := by
        rw [← hnames, List.reverse_reverse]
      exact ends_makeOr_of_look (hpath ▸ hlook)

end Action

end Stencil
