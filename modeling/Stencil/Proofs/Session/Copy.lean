import Stencil.Proofs.FileTree.Source
import Stencil.Proofs.Session.Changes

/-!
# Copies

What is copied to a free place fills the region of that place and nothing else.
If no error was met, the copy holds every file of the source under its names.
-/

namespace Stencil.Action

open FileTree PathText Session

variable {α : Type} {s m s' : Session} {place rest : Location} {path : FilePath}
  {source name : Text} {names : List Text}

/-! ## Failures while copying -/

theorem FailsWith.orElseIf {isCaught : Failure → Bool} {action : Action α}
    {handle : Failure → Action α} {test : Failure → Prop} (h : action.FailsWith test)
    (hhandle : ∀ failure, (handle failure).FailsWith test) :
    (Action.orElseIf isCaught action handle).FailsWith test := by
  intro s failure s' hend
  rcases ends_orElseIf.1 hend with ⟨a, -, heq⟩ | ⟨other, m, -, -, hlast⟩ |
    ⟨other, hfirst, -, heq⟩
  · cases heq
  · exact hhandle other m failure s' hlast
  · cases heq
    exact h s failure s' hfirst

theorem FailsWith.mapM {β : Type} {f : α → Action β} {items : List α} {test : Failure → Prop}
    (h : ∀ item, (f item).FailsWith test) : (items.mapM f).FailsWith test := by
  induction items with
  | nil => exact .pure
  | cons item items ih =>
      rw [List.mapM_cons]
      exact (h item).bind fun _ => ih.bind fun _ => .pure

theorem failsWith_leadsToDirectory (path : Text) (test : Failure → Prop) :
    (leadsToDirectory path).FailsWith test := by
  intro s failure s' h
  obtain ⟨-, found, hr, -⟩ := ends_leadsToDirectory h
  cases hr

theorem failsWith_placeOf? (path : Text) :
    (placeOf? path).FailsWith (·.isOfCopying = false) :=
  (failsWith_look.bind fun _ => failsWith_locate.bind fun _ => .pure).orElseIf fun _ => .pure

theorem failsWith_isSamePlace (source target : Text) :
    (isSamePlace source target).FailsWith (·.isOfCopying = false) := by
  refine (failsWith_placeOf? source).bind fun found => ?_
  cases found with
  | none => exact .pure
  | some place => exact (failsWith_placeOf? target).bind fun _ => .pure

theorem failsWith_readContent (path : Text) :
    (readContent path).FailsWith (·.isOfCopying = false) := by
  refine failsWith_look.bind fun item => ?_
  cases item with
  | directory => exact .throw rfl
  | file content => exact .pure
  | link target => exact .throw rfl

theorem failsWith_openForWriting (path : Text) :
    (openForWriting path).FailsWith (·.isOfCopying = false) := by
  refine failsWith_locate.bind fun place s failure s' h => ?_
  rw [ends_get_bind] at h
  split at h
  · cases (ends_throw.1 h).1
    rfl
  · cases (ends_pure.1 h).1

theorem failsWith_copyOnto (source target : CopyPath) :
    (copyOnto source target).FailsWith (·.isOfCopying = false) := by
  refine (failsWith_isSamePlace _ _).bind fun same => ?_
  split
  · exact .throw rfl
  refine (failsWith_readContent _).bind fun content => ?_
  refine (failsWith_openForWriting _).bind fun place s failure s' h => ?_
  cases (ends_putContent.1 h).1

theorem failsWith_copyFile (source target : CopyPath) :
    (copyFile source target).FailsWith (·.isOfCopying = false) := by
  refine (failsWith_leadsToDirectory _ _).bind fun found => ?_
  split
  · exact failsWith_copyOnto _ _
  · exact failsWith_copyOnto _ _

/-- Errors are told of unless there are none to tell of. -/
theorem errorsOf_ne_nil {target : Text} {failure : Failure} (h : failure ≠ .copying []) :
    errorsOf source target failure ≠ [] := by
  unfold errorsOf
  split
  · rintro rfl
    exact h rfl
  · simp [Failure.message, Text.ofString]
  · simp

/-! ## Copying a file -/

theorem follows_placeOf? (path : Text) : (placeOf? path).Follows Eq :=
  discipline_eq.orElseIf
    (discipline_eq.bind (fun _ _ _ h => (ends_look.1 h).2.symm) fun _ =>
      discipline_eq.bind (fun _ _ _ h => (ends_locate.1 h).2.symm) fun _ => discipline_eq.pure _)
    fun _ => discipline_eq.pure _

theorem follows_isSamePlace (source target : Text) : (isSamePlace source target).Follows Eq := by
  refine discipline_eq.bind (follows_placeOf? source) fun found => ?_
  cases found with
  | none => exact discipline_eq.pure _
  | some place =>
      exact discipline_eq.bind (follows_placeOf? target) fun _ => discipline_eq.pure _

/-- A file that is copied to a free place of a region is put there, or nothing happens. -/
theorem ends_copyOnto {source target : CopyPath} {r : Except Failure Unit}
    (hregion : s.tree.Region s.here path place) (hrest : rest.IsProper)
    (hfree : s.tree.get? (place ++ rest) = none) (htarget : target.path = (path.below rest).text)
    (h : (copyOnto source target).Ends s r s') :
    s'.tree.Region s'.here path place ∧ Changes (place ++ rest) s s' ∧
      (r = .ok () → ∃ content, s.tree.look s.here source.path true = .ok (.file content) ∧
        s'.tree.get? (place ++ rest) = some (.file content)) := by
  have hstill : ∀ {r' : Except Failure Unit} {failure : Failure}, r' = .error failure →
      s.tree.Region s.here path place ∧ Changes (place ++ rest) s s ∧
        (r' = .ok () → ∃ content, s.tree.look s.here source.path true = .ok (.file content) ∧
          s.tree.get? (place ++ rest) = some (.file content)) := by
    rintro _ failure rfl
    exact ⟨hregion, .refl _ _, by simp⟩
  rcases ends_bind.1 h with ⟨same, m, hsame, hrest₁⟩ | ⟨failure, hsame, rfl⟩
  case inr =>
    obtain rfl := follows_isSamePlace _ _ _ _ _ hsame
    exact hstill rfl
  obtain rfl := follows_isSamePlace _ _ _ _ _ hsame
  split at hrest₁
  · obtain ⟨rfl, rfl⟩ := ends_throw.1 hrest₁
    exact hstill rfl
  rcases ends_bind.1 hrest₁ with ⟨content, m, hread, hrest₂⟩ | ⟨failure, hread, rfl⟩
  case inr =>
    obtain ⟨rfl, -⟩ := ends_readContent hread
    exact hstill rfl
  obtain ⟨rfl, hcontent⟩ := ends_readContent hread
  rcases ends_bind.1 hrest₂ with ⟨opened, m, hopen, hput⟩ | ⟨failure, hopen, rfl⟩
  case inr =>
    obtain ⟨rfl, -⟩ := ends_openForWriting hopen
    exact hstill rfl
  obtain ⟨rfl, hopened⟩ := ends_openForWriting hopen
  have hlocate := ((hopened opened).1 rfl).1
  rw [htarget] at hlocate
  obtain ⟨rfl, -⟩ := hregion.locate_eq hrest hlocate
  obtain ⟨rfl, rfl⟩ := ends_putContent.1 hput
  obtain ⟨hlater, hchanges⟩ := changes_put (.file content) hregion hrest hlocate
    (by simp [hfree]) rfl
  refine ⟨hlater, hchanges, fun _ => ⟨content, (hcontent content).1 rfl, ?_⟩⟩
  have hne := ne_nil_of_get? (show m.tree.get? (place ++ rest) ≠ _ by simp [hfree])
  simp [get?_put hne]

theorem ends_copyFile {source target : CopyPath} {r : Except Failure Unit}
    (hregion : s.tree.Region s.here path place) (hrest : rest.IsProper)
    (hfree : s.tree.get? (place ++ rest) = none) (htarget : target.path = (path.below rest).text)
    (h : (copyFile source target).Ends s r s') :
    s'.tree.Region s'.here path place ∧ Changes (place ++ rest) s s' ∧
      (r = .ok () → ∃ content, s.tree.look s.here source.path true = .ok (.file content) ∧
        s'.tree.get? (place ++ rest) = some (.file content)) := by
  rcases ends_bind.1 h with ⟨found, m, hleads, hcopy⟩ | ⟨failure, hleads, rfl⟩
  · obtain ⟨rfl, _, hfound, hiff⟩ := ends_leadsToDirectory hleads
    cases hfound
    cases found with
    | true =>
        have hlook := hiff.1 rfl
        rw [htarget, hregion.look_iff hrest, hfree] at hlook
        cases hlook
    | false => exact ends_copyOnto hregion hrest hfree htarget hcopy
  · obtain ⟨rfl, _, hfound, -⟩ := ends_leadsToDirectory hleads
    cases hfound

/-! ## Copies -/

/-- How copying to a place ends, from a source that lies behind names. -/
structure CopyEnds (path : FilePath) (place rest : Location) (source : Text) (names : List Text)
    (s : Session) (r : Except Failure Unit) (s' : Session) : Prop where
  region : s'.tree.Region s'.here path place
  changes : Changes (place ++ rest) s s'
  told : r ≠ .error (.copying [])
  made : r = .ok () → (s'.tree.get? (place ++ rest)).isSome
  copied : r = .ok () → ∀ more content, Location.IsProper more →
    s.tree.HoldsFile s.here source (names ++ more) content →
    s'.tree.get? (place ++ (rest ++ more)) = some (.file content)

def Copies (copier : Text → Text → Action Unit) : Prop :=
  ∀ path place rest source names s r s', s.tree.Region s.here path place →
    Location.IsProper rest → s.tree.get? (place ++ rest) = none → Spells source names →
    (copier source (path.below rest).text).Ends s r s' →
    CopyEnds path place rest source names s r s'

theorem CopyEnds.still {failure : Failure} (hregion : s.tree.Region s.here path place)
    (hfailure : failure.isOfCopying = false) :
    CopyEnds path place rest source names s (.error failure) s := by
  refine ⟨hregion, .refl _ _, ?_, by simp, by simp⟩
  rintro ⟨⟩
  cases hfailure

theorem copyEnds_copyFile {source target : CopyPath} {r : Except Failure Unit}
    (hregion : s.tree.Region s.here path place) (hrest : rest.IsProper)
    (hfree : s.tree.get? (place ++ rest) = none) (hspells : Spells source.path names)
    (htarget : target.path = (path.below rest).text) (h : (copyFile source target).Ends s r s') :
    CopyEnds path place rest source.path names s r s' := by
  obtain ⟨hlater, hchanges, hmade⟩ := ends_copyFile hregion hrest hfree htarget h
  refine ⟨hlater, hchanges, ?_, fun hok => ?_, fun hok more content hmore hholds => ?_⟩
  · rintro rfl
    exact absurd (failsWith_copyFile _ _ _ _ _ h) (by simp [Failure.isOfCopying])
  · obtain ⟨content, -, hget⟩ := hmade hok
    simp [hget]
  · obtain ⟨copied, hlook, hget⟩ := hmade hok
    cases more with
    | nil =>
        rw [List.append_nil] at hholds ⊢
        rw [hget, look_of_holdsFile hspells hholds hlook]
    | cons name more =>
        obtain ⟨other, hlocate, hfile⟩ := look_eq_ok_iff.1 hlook
        have hdirectory := (locate_of_holdsFile hregion.well hspells
          (hmore name List.mem_cons_self) hholds hlocate).1
        rw [hfile] at hdirectory
        cases hdirectory

/-! ## Copying directories -/

theorem follows_isDirectoryItem (path : Text) : (isDirectoryItem path).Follows Eq :=
  discipline_eq.orElseIf
    (discipline_eq.bind (fun _ _ _ h => (ends_look.1 h).2.symm) fun _ => discipline_eq.pure _)
    fun _ => discipline_eq.pure _

theorem failsWith_isDirectoryItem (path : Text) :
    (isDirectoryItem path).FailsWith (·.isOfCopying = false) :=
  (failsWith_look.bind fun _ => .pure).orElseIf fun _ => .pure

theorem failsWith_namesIn (path : Text) : (namesIn path).FailsWith (·.isOfCopying = false) := by
  intro s failure s' h
  rcases namesAt_eq_error (ends_namesIn.1 h).1.symm with hfault | ⟨cause, rfl⟩
  · exact Failure.not_isOfCopying_of_fault? hfault
  · rfl

theorem failsWith_makeDirectory (path : Text) :
    (makeDirectory path).FailsWith (·.isOfCopying = false) := by
  intro s failure s' h
  rcases ends_makeDirectory h with ⟨_, hlocate, hr, -⟩ | ⟨_, _, -, -, hr, -⟩ | ⟨_, -, -, hr, -⟩
  · cases hr
    exact failsWith_locate s failure s (ends_locate.2 ⟨hlocate.symm, rfl⟩)
  · cases hr
    rfl
  · cases hr

/-- A directory that was just made at a free place of a region. -/
structure MakesDirectory (path : FilePath) (place rest : Location) (s s' : Session) : Prop where
  region : s'.tree.Region s'.here path place
  changes : Changes (place ++ rest) s s'
  tree : s'.tree = s.tree.put (place ++ rest) .directory
  free : s.tree.get? (place ++ rest) = none

namespace MakesDirectory

variable (h : MakesDirectory path place rest s m)
include h

theorem ne_nil : place ++ rest ≠ [] :=
  ne_nil_of_get? (show s.tree.get? (place ++ rest) ≠ _ by simp [h.free])

theorem get?_self : m.tree.get? (place ++ rest) = some .directory := by
  rw [h.tree, get?_put h.ne_nil]
  simp

theorem get?_below (hwell : s.tree.WellFormed) (name : Text) :
    m.tree.get? (place ++ rest ++ [name]) = none := by
  rw [h.tree, get?_put h.ne_nil, if_neg (by simp)]
  exact hwell.get?_below h.free [name]

end MakesDirectory

/-- The directory of a copy is made at a free place, or nothing happens. -/
theorem ends_makeTarget {r : Except Failure Unit} (hregion : s.tree.Region s.here path place)
    (hrest : rest.IsProper) (hfree : s.tree.get? (place ++ rest) = none)
    (h : (makeTarget (path.below rest).text).Ends s r s') :
    (s' = s ∧ ∃ failure, r = .error failure ∧ failure.isOfCopying = false) ∨
      r = .ok () ∧ MakesDirectory path place rest s s' := by
  rcases ends_orElseIf.1 h with ⟨_, hmake, rfl⟩ | ⟨failure, m, hmake, -, hhandle⟩ |
    ⟨failure, hmake, -, rfl⟩
  · right
    obtain ⟨other, hlocate, -, rfl⟩ := ends_makeDirectory_ok hmake
    obtain ⟨rfl, -⟩ := hregion.locate_eq hrest hlocate
    obtain ⟨hlater, hchanges⟩ := changes_put .directory hregion hrest hlocate (by simp [hfree]) rfl
    exact ⟨rfl, hlater, hchanges, rfl, hfree⟩
  · left
    have hfailure := failsWith_makeDirectory _ _ _ _ hmake
    obtain rfl := ends_makeDirectory_error hmake
    rcases ends_bind.1 hhandle with ⟨found, m', hleads, hlast⟩ | ⟨other, hleads, rfl⟩
    · obtain ⟨rfl, _, hfound, hiff⟩ := ends_leadsToDirectory hleads
      cases hfound
      cases found with
      | true =>
          have hlook := hiff.1 rfl
          rw [hregion.look_iff hrest, hfree] at hlook
          cases hlook
      | false =>
          obtain ⟨rfl, rfl⟩ := ends_throw.1 hlast
          exact ⟨rfl, failure, rfl, hfailure⟩
    · obtain ⟨-, _, hfound, -⟩ := ends_leadsToDirectory hleads
      cases hfound
  · obtain rfl := ends_makeDirectory_error hmake
    exact .inl ⟨rfl, failure, rfl, failsWith_makeDirectory _ _ _ _ hmake⟩

section Items

variable {descend : Text → Text → Action Unit}

/-- An item is copied like a directory or like a file, whichever it is. -/
theorem copyEnds_item (hdescend : Copies descend) (hregion : s.tree.Region s.here path place)
    (hrest : rest.IsProper) (hfree : s.tree.get? (place ++ rest) = none) (shown : CopyPath)
    (hshown : shown.path = source) (hspells : Spells source names) {r : Except Failure Unit}
    (h : (do
      if ← isDirectoryItem source then descend source (path.below rest).text
      else copyFile shown (.ofText (path.below rest).text) : Action Unit).Ends s r s') :
    CopyEnds path place rest source names s r s' := by
  rcases ends_bind.1 h with ⟨found, m, hfound, hcopy⟩ | ⟨failure, hfound, rfl⟩
  · obtain rfl := follows_isDirectoryItem _ _ _ _ hfound
    cases found with
    | true => exact hdescend _ _ _ _ _ _ _ _ hregion hrest hfree hspells hcopy
    | false =>
        subst hshown
        exact copyEnds_copyFile hregion hrest hfree hspells rfl hcopy
  · obtain rfl := follows_isDirectoryItem _ _ _ _ hfound
    exact .still hregion (failsWith_isDirectoryItem _ _ _ _ hfound)

/-- What goes wrong with an item is told, unless it does not come from the files. -/
theorem failsWith_copyItem (descend : Text → Text → Action Unit) (source target name : Text) :
    (copyItem descend source target name).FailsWith (·.isOfSystem = false) := by
  intro s failure s' h
  obtain ⟨copied, m, -, hlast⟩ := ends_attempt_bind.1 h
  cases copied with
  | ok _ => cases (ends_pure.1 hlast).1
  | error other =>
      dsimp only at hlast
      split at hlast
      · cases (ends_pure.1 hlast).1
      · rename_i hsystem
        cases (ends_throw.1 hlast).1
        simpa using hsystem

theorem ends_copyItem (hdescend : Copies descend) (hregion : s.tree.Region s.here path place)
    (hrest : rest.IsProper) (hname : IsName name)
    (hfree : s.tree.get? (place ++ (rest ++ [name])) = none) (hspells : Spells source names)
    {r : Except Failure (List CopyError)}
    (h : (copyItem descend source (path.below rest).text name).Ends s r s') :
    ∃ copied, CopyEnds path place (rest ++ [name]) (inside source name) (names ++ [name]) s copied
        s' ∧ (r = .ok [] → copied = .ok ()) := by
  have hnames := hrest.concat hname
  have htarget : inside (path.below rest).text name = (path.below (rest ++ [name])).text := by
    rw [FilePath.inside_text (hregion.leads.proper.below hrest)
      (by simp [hregion.leads.named]) hname, FilePath.below_below]
  rw [copyItem, htarget] at h
  obtain ⟨copied, m, hend, hlast⟩ := ends_attempt_bind.1 h
  have hcopy := copyEnds_item hdescend hregion hnames hfree (.ofItem (inside source name) name) rfl
    (hspells.inside hname) hend
  cases copied with
  | ok _ =>
      obtain ⟨rfl, rfl⟩ := ends_pure.1 hlast
      exact ⟨_, hcopy, fun _ => rfl⟩
  | error failure =>
      have hne : failure ≠ .copying [] := fun heq => hcopy.told (by rw [heq])
      dsimp only at hlast
      split at hlast
      · obtain ⟨rfl, rfl⟩ := ends_pure.1 hlast
        exact ⟨_, hcopy, fun hnil => absurd (Except.ok.inj hnil) (errorsOf_ne_nil hne)⟩
      · obtain ⟨rfl, rfl⟩ := ends_throw.1 hlast
        exact ⟨_, hcopy, by simp⟩

/-- The part of a copy that one item fills does not depend on the others. -/
theorem ends_copyNames (hdescend : Copies descend) {directory : Location}
    (hwell : s.tree.WellFormed) (hrest : rest.IsProper) (hspells : Spells source names)
    (hmade : MakesDirectory path place rest s m) {r : Except Failure (List (List CopyError))}
    (h : ((s.tree.names directory).mapM (copyItem descend source (path.below rest).text)).Ends
      m r s') :
    s'.tree.Region s'.here path place ∧ Changes (place ++ rest) m s' ∧
      ∀ results, r = .ok results → results.flatten = [] →
        ∀ name ∈ s.tree.names directory, ∀ more content, Location.IsProper more →
          s.tree.HoldsFile s.here source (names ++ name :: more) content →
          s'.tree.get? (place ++ rest ++ name :: more) = some (.file content) := by
  -- each name fills a part of its own, and what was there when the target was made stays
  have hstep : ∀ name ∈ s.tree.names directory, ∀ t r t',
      (t.tree.Region t.here path place ∧ m.tree.IsKeptBy t.tree ∧ t.here = s.here) →
      t.tree.get? (place ++ rest ++ [name]) = none →
      (copyItem descend source (path.below rest).text name).Ends t r t' →
      (t'.tree.Region t'.here path place ∧ m.tree.IsKeptBy t'.tree ∧ t'.here = s.here) ∧
        Changes (place ++ rest ++ [name]) t t' := by
    rintro name hname t r t' ⟨hregion, hkept, hhere⟩ hfree hend
    rw [List.append_assoc] at hfree ⊢
    obtain ⟨copied, hcopy, -⟩ := ends_copyItem hdescend hregion hrest
      (hwell.isName_of_mem_names hname) hfree hspells hend
    exact ⟨⟨hcopy.region, hkept.trans (hcopy.changes.below.isKeptBy hregion.well hfree),
      hcopy.changes.here.trans hhere⟩, hcopy.changes⟩
  obtain ⟨⟨hregion, -, -⟩, hchanges, -, hall⟩ := ends_mapM_names (· = none) hwell.names_nodup hstep
    ⟨hmade.region, .refl _, hmade.changes.here⟩ (fun name _ => hmade.get?_below hwell name) h
  refine ⟨hregion, hchanges, fun results hr hnil name hname more content hmore hholds => ?_⟩
  obtain ⟨t, t', result, hmem, ⟨hregion', hkept, hhere⟩, -, hone, hbefore, hafter⟩ :=
    hall results hr name hname
  have hresult : result = [] := List.flatten_eq_nil_iff.1 hnil result hmem
  subst hresult
  have hfree : t.tree.get? (place ++ (rest ++ [name])) = none := by
    rw [← List.append_assoc, hbefore []]
    exact hmade.get?_below hwell name
  obtain ⟨copied, hcopy, hok⟩ := ends_copyItem hdescend hregion' hrest
    (hwell.isName_of_mem_names hname) hfree hspells hone
  have hholds' : t.tree.HoldsFile t.here (inside source name) (names ++ [name] ++ more) content := by
    rw [hhere, List.append_assoc]
    have hkeptAll := (hmade.changes.below.isKeptBy hwell hmade.free).trans hkept
    exact (hholds.kept hkeptAll).inside hspells name
  have hget := hcopy.copied (hok rfl) more content hmore hholds'
  have hsame := hafter more
  simp only [List.append_assoc, List.singleton_append] at hget hsame ⊢
  rw [hsame, hget]

theorem copies_copyItems (hdescend : Copies descend) : Copies (copyItems descend) := by
  intro path place rest source names s r s' hregion hrest hfree hspells h
  have hwell := hregion.well
  rw [copyItems] at h
  rcases ends_bind.1 h with ⟨listed, m, hlist, hmake⟩ | ⟨failure, hlist, rfl⟩
  case inr =>
    obtain ⟨-, rfl⟩ := ends_namesIn.1 hlist
    exact .still hregion (failsWith_namesIn _ _ _ _ hlist)
  obtain ⟨hlisted, rfl⟩ := ends_namesIn.1 hlist
  obtain ⟨directory, hlocate, hdirectory, rfl⟩ := namesAt_eq_ok_iff.1 hlisted.symm
  rcases ends_bind.1 hmake with ⟨_, made, htarget, hitems⟩ | ⟨failure, htarget, rfl⟩
  case inr =>
    rcases ends_makeTarget hregion hrest hfree htarget with ⟨rfl, _, hr, hfailure⟩ | ⟨hr, -⟩
    · cases hr
      exact .still hregion hfailure
    · cases hr
  rcases ends_makeTarget hregion hrest hfree htarget with ⟨-, _, hr, -⟩ | ⟨-, hmade⟩
  · cases hr
  rcases ends_bind.1 hitems with ⟨results, t, hend, hlast⟩ | ⟨failure, hend, rfl⟩
  case inr =>
    obtain ⟨hlater, hmore, -⟩ := ends_copyNames hdescend hwell hrest hspells hmade hend
    refine ⟨hlater, hmade.changes.trans hmore, ?_, by simp, by simp⟩
    rintro ⟨⟩
    cases FailsWith.mapM (failsWith_copyItem descend source _) _ _ _ hend
  obtain ⟨hlater, hmore, hall⟩ := ends_copyNames hdescend hwell hrest hspells hmade hend
  split at hlast
  · rename_i hnil
    obtain ⟨rfl, rfl⟩ := ends_pure.1 hlast
    refine ⟨hlater, hmade.changes.trans hmore, by simp, fun _ => ?_,
      fun _ more content hproper hholds => ?_⟩
    · rw [hmore.below.extended.directory hmade.get?_self]
      rfl
    · cases more with
      | nil =>
          have hlook := look_of_holdsFile hspells (by simpa using hholds)
            (look_eq_ok_iff.2 ⟨_, hlocate, hdirectory⟩)
          cases hlook
      | cons name more =>
          have hname := (locate_of_holdsFile hwell hspells (hproper name List.mem_cons_self)
            hholds hlocate).2
          rw [← List.append_assoc]
          exact hall results rfl hnil name hname more content
            (fun other hother => hproper other (List.mem_cons_of_mem _ hother)) hholds
  · rename_i hne
    obtain ⟨rfl, rfl⟩ := ends_throw.1 hlast
    refine ⟨hlater, hmade.changes.trans hmore, ?_, by simp, by simp⟩
    simpa using hne

theorem copies_copyDirectory (depth : Nat) : Copies (copyDirectory depth) := by
  induction depth with
  | zero =>
      refine copies_copyItems fun path place rest source names s r s' hregion _ _ _ h => ?_
      obtain ⟨rfl, rfl⟩ := ends_throw.1 h
      exact .still hregion rfl
  | succ depth ih => exact copies_copyItems ih

end Items

/-! ## Sources and targets -/

/-- A target that cannot be located is not copied to. -/
theorem ends_copyFile_unreachable {source target : CopyPath} {r : Except Failure Unit}
    (hnowhere : ∀ place, s.tree.locate s.here target.path true ≠ .ok place)
    (h : (copyFile source target).Ends s r s') : s' = s ∧ r ≠ .ok () := by
  have hlook : s.tree.look s.here target.path true ≠ .ok .directory := by
    intro hlook
    obtain ⟨place, hlocate, -⟩ := look_eq_ok_iff.1 hlook
    exact hnowhere place hlocate
  rcases ends_bind.1 h with ⟨found, m, hleads, hcopy⟩ | ⟨failure, hleads, rfl⟩
  case inr =>
    obtain ⟨-, _, hfound, -⟩ := ends_leadsToDirectory hleads
    cases hfound
  obtain ⟨rfl, _, hfound, hiff⟩ := ends_leadsToDirectory hleads
  cases hfound
  cases found with
  | true => exact absurd (hiff.1 rfl) hlook
  | false =>
      rcases ends_bind.1 hcopy with ⟨same, m', hsame, hrest⟩ | ⟨failure, hsame, rfl⟩
      case inr =>
        obtain rfl := follows_isSamePlace _ _ _ _ _ hsame
        exact ⟨rfl, by simp⟩
      obtain rfl := follows_isSamePlace _ _ _ _ _ hsame
      split at hrest
      · obtain ⟨rfl, rfl⟩ := ends_throw.1 hrest
        exact ⟨rfl, by simp⟩
      rcases ends_bind.1 hrest with ⟨content, m', hread, hwrite⟩ | ⟨failure, hread, rfl⟩
      case inr =>
        obtain ⟨rfl, -⟩ := ends_readContent hread
        exact ⟨rfl, by simp⟩
      obtain ⟨rfl, -⟩ := ends_readContent hread
      rcases ends_bind.1 hwrite with ⟨opened, m', hopen, -⟩ | ⟨failure, hopen, rfl⟩
      · obtain ⟨rfl, hopened⟩ := ends_openForWriting hopen
        exact absurd ((hopened opened).1 rfl).1 (hnowhere opened)
      · obtain ⟨rfl, -⟩ := ends_openForWriting hopen
        exact ⟨rfl, by simp⟩

theorem ends_copyItems_unreachable {descend : Text → Text → Action Unit} {target : Text}
    {r : Except Failure Unit}
    (hnowhere : ∀ followLast place, s.tree.locate s.here target followLast ≠ .ok place)
    (h : (copyItems descend source target).Ends s r s') : s' = s ∧ r ≠ .ok () := by
  have hmake : ∀ {r' m}, (makeDirectory target).Ends s r' m → m = s ∧ r' ≠ .ok () := by
    intro r' m hmake
    rcases ends_makeDirectory hmake with ⟨_, -, rfl, rfl⟩ | ⟨_, _, -, -, rfl, rfl⟩ |
      ⟨place, hlocate, -, -, -⟩
    · exact ⟨rfl, by simp⟩
    · exact ⟨rfl, by simp⟩
    · exact absurd hlocate (hnowhere _ place)
  rcases ends_bind.1 h with ⟨listed, m, hlist, hrest⟩ | ⟨failure, hlist, rfl⟩
  case inr =>
    obtain ⟨-, rfl⟩ := ends_namesIn.1 hlist
    exact ⟨rfl, by simp⟩
  obtain ⟨-, rfl⟩ := ends_namesIn.1 hlist
  have htarget : ∀ {r' t}, (makeTarget target).Ends m r' t → t = m ∧ r' ≠ .ok () := by
    intro r' t hend
    rcases ends_orElseIf.1 hend with ⟨a, hfirst, rfl⟩ | ⟨failure, m', hfirst, -, hhandle⟩ |
      ⟨failure, hfirst, -, rfl⟩
    · exact absurd rfl (hmake hfirst).2
    · obtain ⟨rfl, -⟩ := hmake hfirst
      rcases ends_bind.1 hhandle with ⟨found, m'', hleads, hlast⟩ | ⟨other, hleads, rfl⟩
      · obtain ⟨rfl, _, hfound, hiff⟩ := ends_leadsToDirectory hleads
        cases hfound
        cases found with
        | true =>
            obtain ⟨place, hlocate, -⟩ := look_eq_ok_iff.1 (hiff.1 rfl)
            exact absurd hlocate (hnowhere _ place)
        | false =>
            obtain ⟨rfl, rfl⟩ := ends_throw.1 hlast
            exact ⟨rfl, by simp⟩
      · obtain ⟨-, _, hfound, -⟩ := ends_leadsToDirectory hleads
        cases hfound
    · exact ⟨(hmake hfirst).1, by simp⟩
  rcases ends_bind.1 hrest with ⟨_, t, hend, -⟩ | ⟨failure, hend, rfl⟩
  · exact absurd rfl (htarget hend).2
  · exact ⟨(htarget hend).1, by simp⟩

/-- A copy fills the place of a target where nothing is, or the target cannot be reached. -/
theorem ends_copy {source target : FilePath} {r : Except Failure Unit} {failure : Failure}
    (hwell : s.tree.WellFormed) (hsource : source.IsProper) (htarget : target.IsProper)
    (hparent : s.tree.look s.here target.parent.text true = .ok .directory)
    (hfree : s.tree.look s.here target.text false = .error failure)
    (h : (copy source target).Ends s r s') :
    s' = s ∧ r ≠ .ok () ∨
      ∃ place, s.tree.get? place = none ∧ s.tree.Region s.here target place ∧
        CopyEnds target place [] source.text source.parts s r s' := by
  have hensure : (ensureDirectories target.parent).Ends s (.ok ()) s :=
    (ends_ensureDirectories_of_look hparent).2 ⟨rfl, rfl⟩
  rw [copy, hensure.bind_iff] at h
  have hspells := spells_text hsource
  rcases ends_bind.1 h with ⟨isDirectory, m, hlook, hcopy⟩ | ⟨failure, hlook, rfl⟩
  case inr =>
    obtain ⟨-, rfl⟩ := ends_isDirectory.1 hlook
    exact .inl ⟨rfl, by simp⟩
  obtain ⟨-, rfl⟩ := ends_isDirectory.1 hlook
  rcases locate_of_look_error hfree with hnowhere | ⟨place, hget, hlocate⟩
  · have hnowhere' : ∀ followLast place, m.tree.locate m.here target.text followLast ≠ .ok place := by
      intro followLast place hlocate
      cases followLast with
      | true => exact hnowhere place hlocate
      | false =>
          cases hget : m.tree.get? place with
          | none => exact hnowhere place (locate_followed hlocate (by simp [hget]))
          | some item =>
              rw [look_eq_ok_iff.2 ⟨place, hlocate, hget⟩] at hfree
              cases hfree
    left
    cases isDirectory with
    | true => exact ends_copyItems_unreachable hnowhere' hcopy
    | false => exact ends_copyFile_unreachable hnowhere hcopy
  · right
    have hregion := Region.fresh hwell htarget hget hlocate
    have hnil : m.tree.get? (place ++ []) = none := by simpa using hget
    refine ⟨place, hget, hregion, ?_⟩
    cases isDirectory with
    | true =>
        refine copies_copyDirectory longestPath _ _ _ _ _ _ _ _ hregion (fun _ h => by cases h) hnil
          hspells ?_
        rwa [FilePath.below_nil]
    | false =>
        exact copyEnds_copyFile hregion (fun _ h => by cases h) hnil hspells
          (by rw [FilePath.below_nil]; rfl) hcopy

end Stencil.Action
