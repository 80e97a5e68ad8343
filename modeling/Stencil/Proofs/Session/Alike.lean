import Stencil.Proofs.FileTree.Unlinked
import Stencil.Journal
import Stencil.Proofs.Session.Carrying
import Stencil.Proofs.Session.Copy

/-!
# Sessions that agree on a target

Two sessions are related here if one of them keeps the files of the other one,
and if they agree on what is read and written: the sources of a target, and what
is at its place.  Writing and copying to the target carries this relation.
-/

namespace Stencil

open FileTree Session

/-! ## Sessions that agree on a target and its sources -/

/-- A target, the sources that may be read for it, and their places, together with what a journal
held before. -/
structure Scope where
  target : FilePath
  place : Location
  sources : List (FilePath × Location)
  journal : Journal

namespace Scope

def roots (scope : Scope) : List (FilePath × Location) := (scope.target, scope.place) :: scope.sources

/-- The second session keeps the first one, and they share what is at a target and its sources. -/
structure Shares (scope : Scope) (s t : Session) : Prop where
  here : t.here = s.here
  calm : s.IsCalm ∧ t.IsCalm
  well : s.tree.WellFormed ∧ t.tree.WellFormed
  kept : s.tree.IsKeptBy t.tree
  unlinked : t.tree.IsUnlinked
  same : ∀ root ∈ scope.roots, ∀ rest, t.tree.get? (root.2 ++ rest) = s.tree.get? (root.2 ++ rest)
  journal : t.journal = scope.journal.add s.journal

/-- Two sessions that share a target and its sources, and in which all of them can be reached. -/
structure Agree (scope : Scope) (s t : Session) : Prop extends scope.Shares s t where
  reaches : ∀ root ∈ scope.roots, root.1.Reaches s.tree s.here root.2
  parent : s.tree.look s.here scope.target.parent.text true = .ok .directory

/-- A text that leads to a target or a source, or to what lies behind more names. -/
def Names (scope : Scope) (root : FilePath × Location) (rest : Location) (text : Text) : Prop :=
  root ∈ scope.roots ∧ root.1.GoesOn rest text

/-- A text that leads to the target, or to what lies behind more names. -/
def Targets (scope : Scope) (rest : Location) (text : Text) : Prop := scope.target.GoesOn rest text

variable {scope : Scope} {s t m s' t' : Session} {root : FilePath × Location} {rest : Location}
  {text name : Text} {followLast : Bool} {place : Location} {item : FileItem}

theorem Targets.names (h : scope.Targets rest text) :
    scope.Names (scope.target, scope.place) rest text :=
  ⟨List.mem_cons_self, h⟩

theorem Targets.inside (h : scope.Targets rest text) (hname : IsName name) :
    scope.Targets (rest ++ [name]) (Action.inside text name) :=
  FilePath.GoesOn.inside h hname

theorem Names.inside (h : scope.Names root rest text) (hname : IsName name) :
    scope.Names root (rest ++ [name]) (Action.inside text name) :=
  ⟨h.1, h.2.inside hname⟩

namespace Shares

variable (h : scope.Shares s t)
include h

theorem keepsPart (hroot : root ∈ scope.roots) : KeepsPart root.2 s.tree t.tree :=
  ⟨h.kept, h.unlinked, h.same root hroot⟩

/-- Looking around does not change what two sessions share. -/
theorem of_looks (hs : s.Looks s') (ht : t.Looks t') : scope.Shares s' t' := by
  refine ⟨?_, ⟨hs.isCalm h.calm.1, ht.isCalm h.calm.2⟩, ?_, ?_, ?_, ?_, ?_⟩
  all_goals simp only [ht.here, ht.tree, ht.journal, hs.here, hs.tree, hs.journal]
  · exact h.here
  · exact h.well
  · exact h.kept
  · exact h.unlinked
  · exact h.same
  · exact h.journal

/-- The same is noted in both journals. -/
theorem note {update : Journal → Journal}
    (hupdate : ∀ journal more : Journal, update (journal.add more) = journal.add (update more)) :
    scope.Shares { s with journal := update s.journal }
      { t with journal := update t.journal } :=
  ⟨h.here, h.calm, h.well, h.kept, h.unlinked, h.same, by
    rw [h.journal]
    exact hupdate _ _⟩

end Shares

namespace Agree

variable (h : scope.Agree s t)

include h in
theorem locate_eq (hnames : scope.Names root rest text) :
    t.tree.locate t.here text followLast = s.tree.locate s.here text followLast := by
  rw [h.here]
  exact (h.reaches root hnames.1).locate_eq hnames.2 (h.keepsPart hnames.1)

include h in
theorem look_eq (hnames : scope.Names root rest text) :
    t.tree.look t.here text followLast = s.tree.look s.here text followLast := by
  rw [h.here]
  exact (h.reaches root hnames.1).look_eq hnames.2 (h.keepsPart hnames.1)

include h in
theorem place_of_locate (hnames : scope.Names root rest text)
    (hlocate : s.tree.locate s.here text followLast = .ok place) : place = root.2 ++ rest :=
  (h.reaches root hnames.1).place_of_locate hnames.2 (h.unlinked.of_kept h.kept) hlocate

include h in
theorem namesAt_eq (hnames : scope.Names root rest text) :
    Action.namesAt t.tree t.here text = Action.namesAt s.tree s.here text := by
  rw [Action.namesAt, Action.namesAt, h.locate_eq hnames]
  cases hlocate : s.tree.locate s.here text true with
  | error failure => rfl
  | ok place =>
      obtain rfl := h.place_of_locate hnames hlocate
      dsimp only
      rw [h.same root hnames.1, (h.keepsPart hnames.1).names_eq h.well.1 h.well.2
        (List.prefix_append _ _)]

/-- The target's directory is there in both sessions. -/
theorem parent' (h : scope.Agree s t) :
    t.tree.look t.here scope.target.parent.text true = .ok .directory := by
  rw [h.here]
  exact look_kept h.kept h.parent

/-- Looking around does not change what two sessions agree on. -/
theorem of_looks (h : scope.Agree s t) (hs : s.Looks s') (ht : t.Looks t') : scope.Agree s' t' := by
  refine ⟨h.toShares.of_looks hs ht, ?_, ?_⟩
  all_goals rw [hs.tree, hs.here]
  · exact h.reaches
  · exact h.parent

/-- The same item is put below the target in both sessions. -/
theorem put (h : scope.Agree s t) (hroom : s.tree.HasRoom (scope.place ++ rest))
    (hold : ∀ old, s.tree.get? (scope.place ++ rest) = some old →
      old ≠ .directory ∧ item.outline = old.outline)
    (hitem : item.isLink = false) :
    scope.Agree { s with tree := s.tree.put (scope.place ++ rest) item }
      { t with tree := t.tree.put (scope.place ++ rest) item } := by
  have hplace := hroom.ne_nil
  have hsame : t.tree.get? (scope.place ++ rest) = s.tree.get? (scope.place ++ rest) :=
    h.same _ List.mem_cons_self rest
  have hpath : targetIsPath item = true := by
    cases item <;> simp_all [FileItem.isLink, targetIsPath]
  have hnone : s.tree.get? (scope.place ++ rest) = some .directory → item = .directory :=
    fun hget => absurd rfl (hold _ hget).1
  have hextended : s.tree.IsExtendedBy (s.tree.put (scope.place ++ rest) item) :=
    isExtendedBy_put hplace fun old hget => (hold old hget).2
  refine ⟨⟨h.here, h.calm, ⟨h.well.1.put hroom hnone hpath, h.well.2.put
    (hroom.extend h.kept.isExtendedBy) (hsame ▸ hnone) hpath⟩, ?_, ?_, ?_, h.journal⟩, ?_, ?_⟩
  · intro other found hget
    rw [get?_put hplace] at hget ⊢
    split at hget
    · rename_i heq
      rw [if_pos heq]
      exact hget
    · rename_i hne
      rw [if_neg hne]
      exact h.kept _ _ hget
  · intro other target hget
    rw [get?_put hplace] at hget
    split at hget
    · rw [Option.some.inj hget] at hitem
      cases hitem
    · exact h.unlinked _ _ hget
  · intro root hroot below
    rw [get?_put hplace, get?_put hplace, h.same root hroot]
  · exact fun root hroot => (h.reaches root hroot).mono hextended
  · obtain ⟨other, hother, hget⟩ := look_eq_ok_iff.1 h.parent
    exact look_eq_ok_iff.2 ⟨other, locate_extend hextended hother (by simp [hget]),
      hextended.directory hget⟩

end Agree

end Scope

/-! ## Steps on files -/

namespace Action

open Scope

variable {α : Type} {scope : Scope} {s t : Session} {root : FilePath × Location} {rest : Location}
  {text name : Text} {place : Location} {content : Content}

theorem calm_of_agree (s t : Session) (h : scope.Agree s t) : s.IsCalm ∧ t.IsCalm := h.calm

/-- Actions that only look around carry an agreement if their results do not depend on it. -/
theorem Carries.of_looks {action : Action α} (hlooks : action.Follows Looks)
    (hresult : ∀ {s t : Session} {r r'} {s' t'}, scope.Agree s t → action.Ends s r s' →
      action.Ends t r' t' → r' = r) : action.Carries scope.Agree := by
  intro s t h r s' hend
  have hend' := Ends.run action t
  have hr := hresult h hend hend'
  rw [hr] at hend'
  exact ⟨_, hend', h.of_looks (hlooks _ _ _ hend) (hlooks _ _ _ hend')⟩

theorem carries_printWarning (message : Text) : (printWarning message).Carries scope.Agree :=
  .of_looks (follows_printWarning message) fun _ hend hend' =>
    (ends_printWarning message hend').trans (ends_printWarning message hend).symm

theorem carries_note {update : Journal → Journal}
    (hupdate : ∀ journal more : Journal, update (journal.add more) = journal.add (update more)) :
    (updateJournal update).Carries scope.Agree := by
  intro s t h r s' hend
  obtain ⟨rfl, rfl⟩ := ends_modify.1 hend
  exact ⟨_, ends_modify.2 ⟨rfl, rfl⟩, h.toShares.note hupdate, h.reaches, h.parent⟩

section Looking

variable (hnames : scope.Names root rest text)
include hnames

theorem carries_locate (followLast : Bool) : (locate text followLast).Carries scope.Agree :=
  .of_told (fun s => s.tree.locate s.here text followLast) ends_locate fun _ _ h =>
    h.locate_eq hnames

theorem carries_look : (look text).Carries scope.Agree :=
  .of_told (fun s => s.tree.look s.here text true) ends_look fun _ _ h => h.look_eq hnames

theorem carries_exists? : (exists? text).Carries scope.Agree :=
  .of_told (fun s => .ok (s.tree.look s.here text false).isOk) ends_exists? fun _ _ h => by
    rw [h.look_eq hnames]

theorem carries_isDirectory : (isDirectory text).Carries scope.Agree :=
  .of_told (fun s => judged FileItem.isDirectory (s.tree.look s.here text true)) ends_isDirectory
    fun _ _ h => by rw [h.look_eq hnames]

theorem carries_namesIn : (namesIn text).Carries scope.Agree :=
  .of_told (fun s => namesAt s.tree s.here text) ends_namesIn fun _ _ h => h.namesAt_eq hnames

theorem carries_leadsToDirectory : (leadsToDirectory text).Carries scope.Agree := by
  refine (carries_isDirectory hnames).attempt.bind fun result => ?_
  cases result with
  | ok found => exact .pure _
  | error failure => exact .pure _

theorem carries_readContent : (readContent text).Carries scope.Agree := by
  refine (carries_look hnames).bind fun item => ?_
  cases item with
  | directory => exact .throw _
  | file content => exact .pure _
  | link target => exact .throw _

theorem carries_readText : (readText text).Carries scope.Agree := by
  refine (carries_readContent hnames).bind fun content => ?_
  cases content with
  | bytes bytes => exact (Carries.lift _).bind fun _ => .pure _
  | program program => exact .pure _

theorem carries_placeOf? : (placeOf? text).Carries scope.Agree :=
  .orElseIf ((carries_look hnames).bind fun _ => (carries_locate hnames true).bind fun _ => .pure _)
    fun _ => .pure _

theorem carries_isDirectoryItem : (isDirectoryItem text).Carries scope.Agree :=
  .orElseIf ((carries_look hnames).bind fun _ => .pure _) fun _ => .pure _

end Looking

/-! ## Steps on the target -/

/-- The place of a file that is opened for writing, or why it cannot be. -/
def openedAt (tree : FileTree) (here : Location) (path : Text) : Except Failure Location :=
  match tree.locate here path true with
  | .error failure => .error failure
  | .ok place =>
      match tree.get? place with
      | some .directory => .error (.system .isDirectory path)
      | _ => .ok place

theorem ends_openForWriting_iff {s s' : Session} {r : Except Failure Location} :
    (openForWriting text).Ends s r s' ↔ r = openedAt s.tree s.here text ∧ s' = s := by
  rw [openForWriting, openedAt]
  cases hlocate : s.tree.locate s.here text true with
  | error failure =>
      rw [ends_bind]
      simp [ends_locate, hlocate, and_comm]
  | ok place =>
      rw [Ends.bind_iff (ends_locate.2 ⟨hlocate.symm, rfl⟩), ends_get_bind]
      dsimp only
      cases s.tree.get? place with
      | none => exact ends_pure
      | some item =>
          cases item with
          | directory => exact ends_throw
          | file content => exact ends_pure
          | link target => exact ends_pure

section Writing

variable (htargets : scope.Targets rest text)
include htargets

theorem carries_makeDirectory : (makeDirectory text).Carries scope.Agree := by
  refine fun s t h => .makeDirectory h (h.locate_eq htargets.names) ?_ ?_
  · intro place hlocate
    obtain rfl := h.place_of_locate htargets.names hlocate
    exact h.same _ List.mem_cons_self rest
  · intro place hlocate hnone
    obtain rfl := h.place_of_locate htargets.names hlocate
    have hplace := ne_nil_of_get? (show s.tree.get? (scope.place ++ rest) ≠ _ by simp [hnone])
    exact h.put (hasRoom_of_locate h.well.1 hlocate hplace) (by simp [hnone]) rfl

theorem carries_openForWriting : (openForWriting text).Carries scope.Agree :=
  .of_told (fun s => openedAt s.tree s.here text) ends_openForWriting_iff fun s t h => by
    rw [openedAt, openedAt, h.locate_eq htargets.names]
    cases hlocate : s.tree.locate s.here text true with
    | error failure => rfl
    | ok place =>
        obtain rfl := h.place_of_locate htargets.names hlocate
        dsimp only
        rw [h.same _ List.mem_cons_self]

/-- A file that was opened is written in both sessions. -/
theorem carriesFrom_putContent {s t m : Session} (h : scope.Agree m t)
    (hopen : (openForWriting text).Ends s (.ok place) m) (content : Content) :
    (putContent place content).CarriesFrom scope.Agree m t := by
  obtain ⟨rfl, htold⟩ := ends_openForWriting hopen
  obtain ⟨hlocate, hget⟩ := (htold place).1 rfl
  obtain rfl := h.place_of_locate htargets.names hlocate
  have hplace := ne_nil_of_get? hget
  intro r s' hend
  obtain ⟨rfl, rfl⟩ := ends_putContent.1 hend
  refine ⟨_, ends_putContent.2 ⟨rfl, rfl⟩,
    h.put (hasRoom_of_locate h.well.1 hlocate hplace) (fun old hold => ?_) rfl⟩
  cases old with
  | directory => exact absurd hold hget
  | file old => exact ⟨by simp, rfl⟩
  | link target => exact absurd hold (h.unlinked.of_kept h.kept _ _)

theorem carries_writeText (content : Text) : (writeText text content).Carries scope.Agree := by
  intro s t h
  refine (carries_openForWriting htargets s t h).bind fun place m m' hopen hm => ?_
  refine (carriesFrom_putContent htargets hm hopen _).bind fun _ n n' hput hn => ?_
  obtain ⟨-, rfl⟩ := ends_putContent.1 hput
  refine (Carries.lift _ _ _ hn).bind fun bytes n₁ n₁' hencode hn' => ?_
  obtain ⟨-, rfl⟩ := ends_lift.1 hencode
  -- the file that was emptied is written once more
  obtain ⟨rfl, htold⟩ := ends_openForWriting hopen
  obtain ⟨hlocate, hget⟩ := (htold place).1 rfl
  obtain rfl := h.place_of_locate htargets.names hlocate
  have hplace := ne_nil_of_get? hget
  have hfile : (m.tree.put (scope.place ++ rest) (.file (.bytes []))).get? (scope.place ++ rest) =
      some (.file (.bytes [])) := by simp [get?_put hplace]
  intro r s' hend
  obtain ⟨rfl, rfl⟩ := ends_putContent.1 hend
  refine ⟨_, ends_putContent.2 ⟨rfl, rfl⟩, hn'.put (hn'.well.1.hasRoom hplace hfile) ?_ rfl⟩
  rintro old hold
  rw [hfile] at hold
  cases hold
  exact ⟨by simp, rfl⟩

end Writing

theorem carries_makeOr (htargets : scope.Targets rest text) {unlessAbove : Failure → Action Unit}
    (h : ∀ failure, (unlessAbove failure).Carries scope.Agree) :
    (makeOr text unlessAbove).Carries scope.Agree :=
  .makeOr (carries_makeDirectory htargets) (carries_isDirectory htargets.names) h

/-- The directory of the target is there, so nothing is done for it. -/
theorem carries_ensureParent :
    (ensureDirectories scope.target.parent).Carries scope.Agree := by
  intro s t h r s' hend
  obtain ⟨rfl, rfl⟩ := (ends_ensureDirectories_of_look h.parent).1 hend
  exact ⟨t, (ends_ensureDirectories_of_look h.parent').2 ⟨rfl, rfl⟩, h⟩

theorem carries_ensureDirectories (hproper : scope.target.IsProper) (hrest : rest.IsProper) :
    (ensureDirectories (scope.target.below rest)).Carries scope.Agree := by
  induction rest using List.reverseRecOn with
  | nil =>
      have htargets : scope.Targets [] scope.target.text := FilePath.goesOn_text hproper
      rw [FilePath.below_nil, ensureDirectories]
      cases hnames : scope.target.parts.reverse with
      | nil =>
          have hpath : FilePath.mk scope.target.anchor [] = scope.target := by
            rw [← List.reverse_eq_nil_iff.1 hnames]
          rw [ensureNames, hpath]
          exact carries_makeOr htargets fun failure => .throw failure
      | cons name above =>
          have hpath : FilePath.mk scope.target.anchor (name :: above).reverse = scope.target := by
            rw [← hnames, List.reverse_reverse]
          have habove : above = scope.target.parent.parts.reverse := by
            rw [FilePath.parent, ← List.tail_reverse, hnames, List.tail_cons]
          rw [ensureNames, hpath]
          refine carries_makeOr htargets fun _ => ?_
          rw [habove]
          exact carries_ensureParent.bind fun _ =>
            carries_makeOr htargets fun failure => .throw failure
  | append_singleton front name ih =>
      have hfront : Location.IsProper front := fun other hother =>
        hrest other (List.mem_append_left _ hother)
      have htargets : scope.Targets (front ++ [name]) (scope.target.below (front ++ [name])).text :=
        FilePath.goesOn_below hproper hrest
      have hreverse : (scope.target.below (front ++ [name])).parts.reverse =
          name :: (scope.target.below front).parts.reverse := by simp
      have hpath : FilePath.mk (scope.target.below (front ++ [name])).anchor
          (name :: (scope.target.below front).parts.reverse).reverse =
            scope.target.below (front ++ [name]) := by simp [FilePath.below]
      rw [ensureDirectories, hreverse, ensureNames, hpath]
      exact carries_makeOr htargets fun _ => (ih hfront).bind fun _ =>
        carries_makeOr htargets fun failure => .throw failure

theorem carries_writeFile (hproper : scope.target.IsProper) (hrest : rest.IsProper)
    (content : Text) : (writeFile (scope.target.below rest) content).Carries scope.Agree := by
  refine .bind ?_ fun _ => carries_writeText (FilePath.goesOn_below hproper hrest) content
  rcases List.eq_nil_or_concat' rest with rfl | ⟨front, name, rfl⟩
  · rw [FilePath.below_nil]
    exact carries_ensureParent
  · have hparent : (scope.target.below (front ++ [name])).parent = scope.target.below front := by
      rw [← FilePath.below_below, FilePath.parent_below]
    rw [hparent]
    exact carries_ensureDirectories hproper fun other hother =>
      hrest other (List.mem_append_left _ hother)

/-! ## Copying -/

section Copying

variable {source target : CopyPath} {rest' : Location}

theorem carries_isSamePlace (hsource : scope.Names root rest source.path)
    (htarget : scope.Targets rest' target.path) :
    (isSamePlace source.path target.path).Carries scope.Agree := by
  refine (carries_placeOf? hsource).bind fun found => ?_
  cases found with
  | none => exact .pure _
  | some place => exact (carries_placeOf? htarget.names).bind fun _ => .pure _

theorem carries_copyOnto (hsource : scope.Names root rest source.path)
    (htarget : scope.Targets rest' target.path) : (copyOnto source target).Carries scope.Agree := by
  refine (carries_isSamePlace hsource htarget).bind fun same => ?_
  split
  · exact .throw _
  · refine (carries_readContent hsource).bind fun content s t h => ?_
    exact (carries_openForWriting htarget s t h).bind fun place m m' hopen hm =>
      carriesFrom_putContent htarget hm hopen content

theorem carries_copyFile (hsource : scope.Names root rest source.path)
    (htarget : scope.Targets rest' target.path)
    (hname : IsName (source.path.reverse.takeWhile (· ≠ FilePath.slash)).reverse) :
    (copyFile source target).Carries scope.Agree := by
  refine (carries_leadsToDirectory htarget.names).bind fun found => ?_
  split
  · have hinside : scope.Targets _ (CopyPath.ofText _).path := htarget.inside hname
    exact carries_copyOnto hsource hinside
  · exact carries_copyOnto hsource htarget

/-- Unless there is a directory to copy a file into, the last name of its source does not matter. -/
theorem carriesFrom_copyFile (hsource : scope.Names root rest source.path)
    (htarget : scope.Targets rest' target.path) (h : scope.Agree s t)
    (hfree : s.tree.look s.here target.path true ≠ .ok .directory) :
    (copyFile source target).CarriesFrom scope.Agree s t := by
  refine (carries_leadsToDirectory htarget.names s t h).bind fun found m m' hleads hm => ?_
  obtain ⟨rfl, _, hfound, hiff⟩ := ends_leadsToDirectory hleads
  cases hfound
  split
  · rename_i hthere
    exact absurd (hiff.1 hthere) hfree
  · exact carries_copyOnto hsource htarget _ _ hm

theorem carries_makeTarget (htarget : scope.Targets rest text) :
    (makeTarget text).Carries scope.Agree := by
  refine .orElseIf (carries_makeDirectory htarget) fun failure => ?_
  refine (carries_leadsToDirectory htarget.names).bind fun found => ?_
  split
  · exact .throw failure
  · exact .pure ()

end Copying

/-- The name of an item in a directory is the end of its text. -/
theorem last_inside {directory : Text} (hname : IsName name) :
    ((inside directory name).reverse.takeWhile (· ≠ FilePath.slash)).reverse = name := by
  have hslash : ∀ c ∈ name.reverse, decide (c ≠ FilePath.slash) = true := by
    intro c hc
    have : c ≠ FilePath.slash := by
      rintro rfl
      exact hname.2.2.2.1 (List.mem_reverse.1 hc)
    simpa using this
  have hend : ∀ front : Text, front = [] ∨ front.getLast? = some FilePath.slash →
      ((front ++ name).reverse.takeWhile (· ≠ FilePath.slash)).reverse = name := by
    intro front hfront
    rw [List.reverse_append, List.takeWhile_append_of_pos hslash]
    rcases hfront with rfl | hlast
    · simp
    · obtain ⟨front, rfl⟩ := List.getLast?_eq_some_iff.1 hlast
      simp
  unfold inside
  split
  · rename_i hempty
    refine hend _ (hempty.imp (by simp) fun hends => ?_)
    exact (Text.endsWith_iff FilePath.slash directory).1 hends
  · exact hend _ (.inr (by simp [Text.ofString, FilePath.slash]))

section Directories

variable {descend : Text → Text → Action Unit} {source target : Text} {rest' : Location}

/-- A way of copying directories that ends alike in sessions that agree. -/
def CopiesAlike (scope : Scope) (descend : Text → Text → Action Unit) : Prop :=
  ∀ root rest rest' source target, scope.Names root rest source → scope.Targets rest' target →
    (descend source target).Carries scope.Agree

theorem carries_copyItem (hdescend : CopiesAlike scope descend)
    (hsource : scope.Names root rest source) (htarget : scope.Targets rest' target)
    (hname : IsName name) : (copyItem descend source target name).Carries scope.Agree := by
  have hitem := hsource.inside hname
  have hcopy := htarget.inside hname
  refine .bind (.attempt ?_) fun copied => ?_
  · refine (carries_isDirectoryItem hitem).bind fun found => ?_
    split
    · exact hdescend _ _ _ _ _ hitem hcopy
    · refine carries_copyFile hitem hcopy ?_
      rwa [CopyPath.ofItem, last_inside hname]
  · cases copied with
    | ok _ => exact .pure _
    | error failure =>
        dsimp only
        split
        · exact .pure _
        · exact .throw failure

theorem copiesAlike_copyItems (hdescend : CopiesAlike scope descend) :
    CopiesAlike scope (copyItems descend) := by
  intro root rest rest' source target hsource htarget s t h
  refine (carries_namesIn hsource s t h).bind fun names m m' hlist hm => ?_
  obtain ⟨hnames, rfl⟩ := ends_namesIn.1 hlist
  obtain ⟨place, -, -, rfl⟩ := namesAt_eq_ok_iff.1 hnames.symm
  refine ((carries_makeTarget htarget).bind fun _ => .bind (.mapM fun name hname =>
    carries_copyItem hdescend hsource htarget (h.well.1.isName_of_mem_names hname))
      fun errors => ?_) _ _ hm
  split
  · exact .pure ()
  · exact .throw _

theorem copiesAlike_copyDirectory (depth : Nat) : CopiesAlike scope (copyDirectory depth) := by
  induction depth with
  | zero => exact copiesAlike_copyItems fun _ _ _ _ _ _ _ => .throw _
  | succ depth ih => exact copiesAlike_copyItems ih

end Directories

/-- A source is copied alike to a target that is no directory. -/
theorem carriesFrom_copy {source : FilePath} (hproper : scope.target.IsProper)
    (hsource : scope.Names root rest source.text) (h : scope.Agree s t)
    (hfree : s.tree.look s.here scope.target.text true ≠ .ok .directory) :
    (copy source scope.target).CarriesFrom scope.Agree s t := by
  have htarget : scope.Targets [] scope.target.text := FilePath.goesOn_text hproper
  refine (carries_ensureParent s t h).bind fun _ m m' hensure hm => ?_
  obtain ⟨-, rfl⟩ := (ends_ensureDirectories_of_look h.parent).1 hensure
  refine (carries_isDirectory hsource _ _ hm).bind fun found m₁ m₁' hfound hm₁ => ?_
  obtain ⟨-, rfl⟩ := ends_isDirectory.1 hfound
  split
  · exact copiesAlike_copyDirectory _ _ _ _ _ _ hsource htarget _ _ hm₁
  · have hfile : scope.Names root rest (CopyPath.ofPath source).path := hsource
    exact carriesFrom_copyFile hfile htarget hm₁ hfree

end Action

end Stencil
