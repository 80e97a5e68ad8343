import Stencil.Proofs.Placement.Tour
import Stencil.Proofs.Scaffold.Shown

/-!
# What walks do not see

Filling a directory and recording it both go from one item to the next, and what
cannot be listed or looked at is left out.  Filling warns of it, while recording
only shows it.  A file that is not recorded lies where something was left out.
-/

namespace Stencil

open FileTree Session Action

namespace Placement

/-! ## Walks -/

/-- What is left out of a walk: a directory that cannot be listed, or an item that cannot be
looked at. -/
inductive Miss where
  | directory (path : FilePath) (failure : Failure)
  | item (path : FilePath) (failure : Failure)
  deriving Repr

namespace Miss

def path : Miss → FilePath
  | .directory path _ => path
  | .item path _ => path

/-- What filling warns of. -/
def warning : Miss → Text
  | .directory path failure => skipping "directory" path.text failure
  | .item path failure => skipping "item" path.text failure

def complaintOf (kind : Text) (path : FilePath) (failure : Failure) : Text :=
  ("Cannot " : Text) ++ kind ++ (" " : Text) ++ path.text ++ (": " : Text) ++ failure.message

/-- What recording shows. -/
def complaint : Miss → Text
  | .directory path failure => complaintOf "read directory" path failure
  | .item path failure => complaintOf "stat" path failure

end Miss

/-- Names are handled one after the other, and none fails. -/
inductive Through {β : Type} (handle : Text → Action β) :
    List Text → Session → Session → Prop where
  | done {s : Session} : Through handle [] s s
  | next {name : Text} {names : List Text} {s m s' : Session} {b : β}
      (first : (handle name).Ends s (.ok b) m) (rest : Through handle names m s') :
      Through handle (name :: names) s s'

/-- What a walk through a directory leaves out; it goes down as far as its depth allows. -/
inductive Misses {β : Type} (visit : Nat → FilePath → Text → Action β) :
    Nat → FilePath → Session → Miss → Prop where
  | directory {depth : Nat} {path : FilePath} {s m : Session} {failure : Failure}
      (fails : (Storage.names path.text).Ends s (.error failure) m) :
      Misses visit depth path s (.directory path failure)
  | item {depth : Nat} {path : FilePath} {s m t t' : Session} {before after : List Text}
      {name : Text} {failure : Failure}
      (names : (Storage.names path.text).Ends s (.ok (before ++ name :: after)) m)
      (earlier : Through (visit depth path) before m t)
      (fails : (Storage.item (path.child name).text).Ends t (.error failure) t') :
      Misses visit depth path s (.item (path.child name) failure)
  | inner {depth : Nat} {path : FilePath} {s m t t' : Session} {before after : List Text}
      {name : Text} {miss : Miss}
      (names : (Storage.names path.text).Ends s (.ok (before ++ name :: after)) m)
      (earlier : Through (visit (depth + 1) path) before m t)
      (item : (Storage.item (path.child name).text).Ends t (.ok .directory) t')
      (misses : Misses visit depth (path.child name) t' miss) :
      Misses visit (depth + 1) path s miss

def fillBelow (vars : Variables) : Nat → Text → Action (List Text)
  | 0 => fun _ => return []
  | depth + 1 => fillDirectory vars depth

def recordBelow (note : Journal → Text → Journal) : Nat → FilePath → Action Unit
  | 0 => fun _ => return
  | depth + 1 => recordTree note depth

/-- The step of filling a directory. -/
def fillStep (vars : Variables) (depth : Nat) (path : FilePath) : Text → Action (List Text) :=
  fillItem (fillBelow vars depth) path vars

/-- The step of recording a directory. -/
def recordStep (note : Journal → Text → Journal) (depth : Nat) (path : FilePath) :
    Text → Action Unit :=
  recordItem note (recordBelow note depth) path

theorem fillDirectory_eq (vars : Variables) (depth : Nat) (path : Text) :
    fillDirectory vars depth path = (do
      match ← attempt (Storage.names path) with
      | .ok names => return (← names.mapM (fillStep vars depth (.ofText path))).flatten
      | .error failure =>
          if failure.isOfSystem then skipped "directory" path failure else throw failure) := by
  cases depth <;> rfl

theorem recordTree_eq (note : Journal → Text → Journal) (depth : Nat) (path : FilePath) :
    recordTree note depth path = (do
      match ← attempt (Storage.names path.text) with
      | .ok names => names.forM (recordStep note depth path)
      | .error failure =>
          if failure.isOfSystem then unseen "read directory" path.text failure
          else throw failure) := by
  cases depth <;> rfl

end Placement

open Placement

variable {β : Type} {s m t s' : Session} {path file : FilePath} {name : Text} {depth : Nat}
  {vars : Variables} {warnings before after names : List Text} {miss : Miss} {failure : Failure}
  {note : Journal → Text → Journal}

namespace Placement

/-! ## Passing names -/

theorem Through.follows {rel : Session → Session → Prop} {handle : Text → Action β}
    (hrel : Discipline rel) (hhandle : ∀ name ∈ names, (handle name).Follows rel)
    (h : Through handle names s m) : rel s m := by
  induction h with
  | done => exact hrel.refl _
  | next first rest ih =>
      refine hrel.trans (hhandle _ List.mem_cons_self _ _ _ first) (ih fun name hname => ?_)
      exact hhandle name (List.mem_cons_of_mem _ hname)

theorem Through.ends_forM {handle : Text → Action Unit} {r : Except Failure Unit}
    (h : Through handle before s m) :
    ((before ++ names).forM handle).Ends s r s' ↔ (names.forM handle).Ends m r s' := by
  induction h with
  | done => rfl
  | next first rest ih =>
      exact first.bind_iff.trans ih

theorem exists_through_forM {handle : Text → Action Unit}
    (h : ((before ++ names).forM handle).Ends s (.ok ()) s') :
    ∃ m, Through handle before s m ∧ (names.forM handle).Ends m (.ok ()) s' := by
  induction before generalizing s with
  | nil => exact ⟨s, .done, h⟩
  | cons name before ih =>
      obtain ⟨_, t, hfirst, hrest⟩ := ends_bind_ok.1 h
      obtain ⟨m, hthrough, hlast⟩ := ih hrest
      exact ⟨m, .next hfirst hthrough, hlast⟩

theorem Through.ends_mapM {handle : Text → Action β} {found : List β}
    (h : Through handle before s m)
    (hend : ((before ++ names).mapM handle).Ends s (.ok found) s') :
    ∃ front back, found = front ++ back ∧ (names.mapM handle).Ends m (.ok back) s' := by
  induction h generalizing found with
  | done => exact ⟨[], found, rfl, hend⟩
  | next first rest ih =>
      rw [List.cons_append, List.mapM_cons, first.bind_iff] at hend
      obtain ⟨others, t, hothers, hpure⟩ := ends_bind_ok.1 hend
      obtain ⟨heq, rfl⟩ := ends_pure.1 hpure
      cases heq
      obtain ⟨front, back, rfl, hback⟩ := ih hothers
      exact ⟨_ :: front, back, rfl, hback⟩

theorem exists_through_mapM {handle : Text → Action β} {found : List β}
    (h : ((before ++ names).mapM handle).Ends s (.ok found) s') :
    ∃ m, Through handle before s m := by
  induction before generalizing s found s' with
  | nil => exact ⟨s, .done⟩
  | cons name before ih =>
      rw [List.cons_append, List.mapM_cons] at h
      obtain ⟨_, t, hfirst, hrest⟩ := ends_bind_ok.1 h
      obtain ⟨others, _, hothers, -⟩ := ends_bind_ok.1 hrest
      obtain ⟨m, hthrough⟩ := ih hothers
      exact ⟨m, .next hfirst hthrough⟩

/-! ## What filling warns of -/

theorem eq_of_skipped {kind called : Text}
    (h : (if failure.isOfSystem then skipped kind called failure else throw failure :
      Action (List Text)).Ends s (.ok warnings) s') :
    warnings = [skipping kind called failure] := by
  split at h
  · exact Except.ok.inj (Action.ends_skipped h).2
  · cases (ends_throw.1 h).1

/-- The warnings of an item are among those of its directory. -/
theorem exists_fillStep (hproper : path.IsProper)
    (h : (fillDirectory vars depth path.text).Ends s (.ok warnings) s')
    (hnames : (Storage.names path.text).Ends s (.ok (before ++ name :: after)) m)
    (hthrough : Through (fillStep vars depth path) before m t) :
    ∃ own u, (fillStep vars depth path name).Ends t (.ok own) u ∧
      ∀ warning ∈ own, warning ∈ warnings := by
  rw [fillDirectory_eq, hproper.ofText_text] at h
  obtain ⟨found, m', hfound, hnext⟩ := ends_attempt_bind.1 h
  obtain ⟨rfl, rfl⟩ := hfound.unique hnames
  obtain ⟨results, t', hmapped, hpure⟩ := ends_bind_ok.1 hnext
  obtain ⟨heq, rfl⟩ := ends_pure.1 hpure
  cases heq
  obtain ⟨front, back, rfl, hback⟩ := hthrough.ends_mapM hmapped
  rw [List.mapM_cons] at hback
  obtain ⟨own, u, hown, hrest⟩ := ends_bind_ok.1 hback
  obtain ⟨others, u', -, hlast⟩ := ends_bind_ok.1 hrest
  cases (ends_pure.1 hlast).1
  exact ⟨own, u, hown, fun warning hwarning => by simp [hwarning]⟩

/-- What filling leaves out, it warns of. -/
theorem warning_mem_of_misses (hmiss : Misses (fillStep vars) depth path s miss)
    (hproper : path.IsProper) (h : (fillDirectory vars depth path.text).Ends s (.ok warnings) s') :
    miss.warning ∈ warnings := by
  induction hmiss generalizing warnings s' with
  | directory fails =>
      rw [fillDirectory_eq] at h
      obtain ⟨found, m, hnames, hnext⟩ := ends_attempt_bind.1 h
      obtain ⟨rfl, rfl⟩ := hnames.unique fails
      rw [eq_of_skipped hnext]
      exact List.mem_singleton_self _
  | item names earlier fails =>
      obtain ⟨own, u, hown, hmem⟩ := exists_fillStep hproper h names earlier
      obtain ⟨found, m, hitem, hnext⟩ := ends_attempt_bind.1 hown
      obtain ⟨rfl, rfl⟩ := hitem.unique fails
      refine hmem _ ?_
      rw [eq_of_skipped hnext]
      exact List.mem_singleton_self _
  | inner names earlier item misses ih =>
      obtain ⟨own, u, hown, hmem⟩ := exists_fillStep hproper h names earlier
      obtain ⟨found, m, hitem, hnext⟩ := ends_attempt_bind.1 hown
      obtain ⟨rfl, rfl⟩ := hitem.unique item
      exact hmem _ (ih (hproper.child _) hnext)

end Placement

/-! ## What recording shows -/

namespace Session

/-- Lines are shown on the way from a session to another one. -/
def Shows (lines : List Text) (s s' : Session) : Prop :=
  ∃ first last, s'.shown = s.shown ++ first ++ lines ++ last

variable {lines : List Text}

theorem Shows.later (h : s.shown <+: m.shown) (h' : m.Shows lines s') : s.Shows lines s' := by
  obtain ⟨more, hmore⟩ := h
  obtain ⟨first, last, hshown⟩ := h'
  exact ⟨more ++ first, last, by rw [hshown, ← hmore, List.append_assoc s.shown]⟩

theorem Shows.earlier (h : s.Shows lines m) (h' : m.shown <+: s'.shown) : s.Shows lines s' := by
  obtain ⟨more, hmore⟩ := h'
  obtain ⟨first, last, hshown⟩ := h
  exact ⟨first, last ++ more, by rw [← hmore, hshown, List.append_assoc]⟩

end Session

namespace Placement

theorem shows_unseen {kind : Text}
    (h : (if failure.isOfSystem then unseen kind path.text failure else throw failure :
      Action Unit).Ends s (.ok ()) s') :
    s.Shows (warningLines (Miss.complaintOf kind path failure)) s' := by
  split at h
  · exact ⟨[], [], by rw [shown_printWarning h]; simp [Miss.complaintOf]⟩
  · cases (ends_throw.1 h).1

theorem follows_recordStep_of {rel : Session → Session → Prop} (hrel : Discipline rel)
    (hpeeks : ∀ s s' : Session, s.Peeks s' → rel s s')
    (hprint : ∀ message, (printWarning message).Follows rel)
    (hnote : ∀ text, (updateJournal fun journal => note journal text).Follows rel) (depth : Nat)
    (path : FilePath) (name : Text) : (recordStep note depth path name).Follows rel := by
  refine follows_recordItem_of hrel hpeeks hprint hnote (fun path => ?_) path name
  cases depth with
  | zero => exact hrel.pure _
  | succ depth => exact follows_recordTree_of hrel hpeeks hprint hnote depth path

theorem works_recordStep (note : Journal → Text → Journal) (depth : Nat) (path : FilePath)
    (name : Text) : (recordStep note depth path name).Follows Works :=
  follows_recordStep_of discipline_works (fun _ _ => Peeks.works) works_printWarning
    (fun _ => works_updateJournal _) depth path name

/-- An item is recorded between what is done before it and after it. -/
theorem exists_recordStep (h : (recordTree note depth path).Ends s (.ok ()) s')
    (hnames : (Storage.names path.text).Ends s (.ok (before ++ name :: after)) m)
    (hthrough : Through (recordStep note depth path) before m t) :
    ∃ u, s.Works t ∧ (recordStep note depth path name).Ends t (.ok ()) u ∧ u.Works s' := by
  rw [recordTree_eq] at h
  obtain ⟨found, m', hfound, hnext⟩ := ends_attempt_bind.1 h
  obtain ⟨rfl, rfl⟩ := hfound.unique hnames
  obtain ⟨_, u, hstep, hrest⟩ := ends_bind_ok.1 (hthrough.ends_forM.1 hnext)
  have hworks := works_recordStep note depth path
  exact ⟨u, discipline_works.trans (works_of_peeks (peeks_names _) _ _ _ hnames)
      (hthrough.follows discipline_works fun name _ => hworks name), hstep,
    discipline_works.forM (fun name _ => hworks name) _ _ _ hrest⟩

/-- What recording leaves out, it shows. -/
theorem shows_of_misses (hmiss : Misses (recordStep note) depth path s miss)
    (h : (recordTree note depth path).Ends s (.ok ()) s') :
    s.Shows (warningLines miss.complaint) s' := by
  induction hmiss generalizing s' with
  | directory fails =>
      rw [recordTree_eq] at h
      obtain ⟨found, m, hnames, hnext⟩ := ends_attempt_bind.1 h
      obtain ⟨rfl, rfl⟩ := hnames.unique fails
      exact .later (works_of_peeks (peeks_names _) _ _ _ fails).shown (shows_unseen hnext)
  | item names earlier fails =>
      obtain ⟨u, hworks, hstep, hlast⟩ := exists_recordStep h names earlier
      obtain ⟨found, m, hitem, hnext⟩ := ends_attempt_bind.1 hstep
      obtain ⟨rfl, rfl⟩ := hitem.unique fails
      have hitem := discipline_works.trans hworks (works_of_peeks (peeks_item _) _ _ _ fails)
      exact .earlier (.later hitem.shown (shows_unseen hnext)) hlast.shown
  | inner names earlier item misses ih =>
      obtain ⟨u, hworks, hstep, hlast⟩ := exists_recordStep h names earlier
      obtain ⟨found, m, hitem, hnext⟩ := ends_attempt_bind.1 hstep
      obtain ⟨rfl, rfl⟩ := hitem.unique item
      have hitem := discipline_works.trans hworks (works_of_peeks (peeks_item _) _ _ _ item)
      exact .earlier (.later hitem.shown (ih hnext)) hlast.shown

end Placement

/-! ## Files that are not recorded -/

/-- Nothing is done but to note some files. -/
structure Session.Gathers (note : Journal → Text → Journal) (s s' : Session) : Prop
    extends s.Notes s' where
  noted : ∃ files : List Text, s'.journal = files.foldl note s.journal

/-- A file is among those that were noted. -/
def Session.Noted (note : Journal → Text → Journal) (file : Text) (s s' : Session) : Prop :=
  ∃ front back : List Text, s'.journal = (front ++ file :: back).foldl note s.journal

namespace Session

theorem Looks.gathers (h : s.Looks s') : s.Gathers note s' := ⟨h.notes, [], h.journal⟩

theorem Noted.within {noted : Text} (hfirst : s.Gathers note m) (h : Noted note noted m t)
    (hlast : t.Gathers note s') : Noted note noted s s' := by
  obtain ⟨first, hfirst⟩ := hfirst.noted
  obtain ⟨last, hlast⟩ := hlast.noted
  obtain ⟨front, back, hjournal⟩ := h
  refine ⟨first ++ front, back ++ last, ?_⟩
  rw [hlast, hjournal, hfirst]
  simp only [List.foldl_append, List.foldl_cons]

theorem Noted.mem_existing {noted : Text} (h : s.Noted Journal.preserve noted s') :
    noted ∈ s'.journal.existing := by
  obtain ⟨front, back, hjournal⟩ := h
  rw [hjournal, foldl_preserve]
  simp

theorem Noted.mem_created {noted : Text} (h : s.Noted Journal.create noted s') :
    noted ∈ s'.journal.created := by
  obtain ⟨front, back, hjournal⟩ := h
  rw [hjournal, foldl_create]
  simp

end Session

namespace Action

theorem discipline_gathers : Discipline (Gathers note) where
  refl s := (Looks.refl s).gathers
  trans h h' := by
    obtain ⟨files, hfiles⟩ := h.noted
    obtain ⟨more, hmore⟩ := h'.noted
    exact ⟨h.toNotes.trans h'.toNotes, files ++ more, by rw [hmore, hfiles, List.foldl_append]⟩

theorem gathers_note (text : Text) :
    (updateJournal fun journal => note journal text).Follows (Gathers note) := by
  intro s r s' h
  refine ⟨follows_updateJournal _ _ _ _ h, [text], ?_⟩
  obtain ⟨-, rfl⟩ := ends_modify.1 h
  rfl

theorem gathers_record (path : Text) : (record note path).Follows (Gathers note) :=
  follows_record_of discipline_gathers (fun _ _ h => h.toLooks.gathers)
    (fun message => (follows_printWarning message).mono fun _ _ => Looks.gathers) gathers_note path

theorem gathers_recordStep (depth : Nat) (path : FilePath) (name : Text) :
    (recordStep note depth path name).Follows (Gathers note) :=
  follows_recordStep_of discipline_gathers (fun _ _ h => h.toLooks.gathers)
    (fun message => (follows_printWarning message).mono fun _ _ => Looks.gathers) gathers_note
    depth path name

end Action

namespace FileTree

variable {tree : FileTree} {here : Location} {way : List Text}

theorem textBelow_text (hproper : path.IsProper) :
    textBelow path.text way = (path.below way).text := by
  by_cases hnil : way = []
  · rw [hnil, textBelow_nil, FilePath.below_nil]
  · rw [textBelow_of_ne_nil hnil, hproper.ofText_text]

theorem Lists.ne_nil {called : Text} (h : tree.Lists here called way) : way ≠ [] := by
  obtain ⟨above, last, -, rfl, -⟩ := h.listed
  simp

/-- Names are listed in directories only. -/
theorem Lists.look (h : tree.Lists here path.text way) (hwell : tree.WellFormed)
    (hproper : path.IsProper) : tree.look here path.text true = .ok .directory := by
  obtain ⟨above, last, place, rfl, hlocate, hget, -⟩ := h.listed
  by_cases hnil : above = []
  · rw [hnil, textBelow_nil] at hlocate
    exact look_eq_ok_iff.2 ⟨place, hlocate, hget⟩
  · have habove : Location.IsProper above :=
      fun other hother => h.proper other (List.mem_append_left _ hother)
    rw [textBelow_text hproper] at hlocate
    exact FilePath.look_of_below hwell (hproper.below habove) hnil hlocate

/-- What is listed below a directory of a directory is listed from there as well. -/
theorem Lists.tail (h : tree.Lists here path.text (name :: way)) (hproper : path.IsProper)
    (hway : way ≠ []) : tree.Lists here (path.child name).text way := by
  have hname : IsName name := h.proper name List.mem_cons_self
  obtain ⟨above, last, place, heq, hlocate, hget, hmem⟩ := h.listed
  cases above with
  | nil => exact absurd (List.cons.inj heq).2 hway
  | cons first above =>
      obtain ⟨rfl, rfl⟩ := List.cons.inj heq
      refine ⟨fun other hother => h.proper other (List.mem_cons_of_mem _ hother), above, last,
        place, rfl, ?_, hget, hmem⟩
      rw [textBelow_text hproper, ← List.singleton_append, ← FilePath.below_below,
        ← FilePath.child_of_isName hname] at hlocate
      rwa [textBelow_text (hproper.child _)]

end FileTree

namespace Placement

/-- An item is recorded between what is noted before it and after it. -/
theorem exists_step_between
    (h : ((before ++ name :: after).forM (recordStep note depth path)).Ends m (.ok ()) s') :
    ∃ t u, Through (recordStep note depth path) before m t ∧ m.Gathers note t ∧
      (recordStep note depth path name).Ends t (.ok ()) u ∧ u.Gathers note s' := by
  obtain ⟨t, hthrough, hrest⟩ := exists_through_forM h
  obtain ⟨_, u, hstep, hafter⟩ := ends_bind_ok.1 hrest
  have hgathers : ∀ name, (recordStep note depth path name).Follows (Gathers note) :=
    gathers_recordStep depth path
  exact ⟨t, u, hthrough, hthrough.follows discipline_gathers fun name _ => hgathers name, hstep,
    discipline_gathers.forM (fun name _ => hgathers name) _ _ _ hafter⟩

/-- A file that a directory lists is noted, or it lies where something was left out. -/
theorem noted_or_missed {way : List Text} {content : Content} (hwell : s.tree.WellFormed)
    (hproper : path.IsProper) (hdepth : longestPath ≤ path.parts.length + depth)
    (h : (recordTree note depth path).Ends s (.ok ()) s')
    (hlists : s.tree.Lists s.here path.text way)
    (hlook : s.tree.look s.here (path.below way).text true = .ok (.file content)) :
    Noted note (path.below way).text s s' ∨
      ∃ miss rest, Misses (recordStep note) depth path s miss ∧
        path.below way = miss.path.below rest := by
  -- the way loses its first name at each level, while the depth left covers all longer paths
  induction depth using Nat.strong_induction_on generalizing path way s s' with
  | _ depth ih =>
  rw [recordTree_eq] at h
  obtain ⟨found, m, hnames, hnext⟩ := ends_attempt_bind.1 h
  obtain ⟨hlooks, htold, -⟩ := ends_storage_names hnames
  cases found with
  | error failure => exact .inr ⟨_, way, .directory hnames, rfl⟩
  | ok names =>
  obtain ⟨place, hlocate, -, rfl⟩ := namesAt_eq_ok_iff.1 (htold _ rfl)
  obtain ⟨name, rest, rfl⟩ := List.exists_cons_of_ne_nil hlists.ne_nil
  have hname : IsName name := hlists.proper name List.mem_cons_self
  have hchild : path.below (name :: rest) = (path.child name).below rest := by
    rw [FilePath.child_of_isName hname, FilePath.below_below, List.singleton_append]
  have hwhole : s.tree.Lists s.here path.text ([] ++ name :: rest) := hlists
  obtain ⟨before, after, hsplit⟩ := List.append_of_mem (hwhole.mem_names hwell hlocate)
  rw [hsplit] at hnames hnext
  obtain ⟨t, u, hthrough, hfirst, hstep, hlast⟩ := exists_step_between hnext
  obtain ⟨found, t', hitem, hdone⟩ := ends_attempt_bind.1 hstep
  obtain ⟨hlooks', htold, -⟩ := ends_storage_item hitem
  have hbefore := discipline_gathers.trans hlooks.gathers hfirst
  rw [hbefore.tree, hbefore.here] at htold
  have hfirst := discipline_gathers.trans hbefore hlooks'.gathers
  cases found with
  | error failure => exact .inr ⟨_, rest, .item hnames hthrough hitem, hchild⟩
  | ok item =>
  have hfound := htold item rfl
  rw [hchild] at hlook ⊢
  by_cases hnil : rest = []
  · subst hnil
    rw [FilePath.below_nil] at hlook ⊢
    rw [hlook] at hfound
    cases hfound
    obtain ⟨-, rfl⟩ := ends_modify.1 hdone
    exact .inl (.within hfirst ⟨[], [], rfl⟩ hlast)
  have hfront : s.tree.Lists s.here path.text ([name] ++ rest) := hlists
  have hdirectory := hfront.look_front hwell (by simp) hnil
  rw [textBelow_text hproper, ← FilePath.child_of_isName hname, hfound] at hdirectory
  cases hdirectory
  have hlong : (path.child name).parts.length = path.parts.length + 1 := by
    rw [FilePath.child_of_isName hname, FilePath.parts_below, List.length_append]
    rfl
  cases depth with
  | zero =>
      -- no directory has so long a path
      obtain ⟨place, hplace, -⟩ := look_eq_ok_iff.1 hfound
      have := length_parts_le_of_locate (hproper.child name) hplace
      omega
  | succ depth =>
      rcases ih depth (Nat.lt_succ_self _) (by rwa [hfirst.tree]) (hproper.child name) (by omega)
        hdone (by rw [hfirst.tree, hfirst.here]; exact hlists.tail hproper hnil)
        (by rwa [hfirst.tree, hfirst.here]) with hnoted | ⟨miss, more, hmiss, hbelow⟩
      · exact .inl (.within hfirst hnoted hlast)
      · exact .inr ⟨miss, more, .inner hnames hthrough hitem hmiss, hbelow⟩

/-! ## Targets -/

/-- What a walk through the directory at a path leaves out; a file is not walked through. -/
def MissedFrom (visit : Nat → FilePath → Text → Action β) (path : FilePath) (s : Session)
    (miss : Miss) : Prop :=
  ∃ m, (Storage.isDirectory path.text).Ends s (.ok true) m ∧ Misses visit longestPath path m miss

theorem warning_mem_of_missedFrom (hproper : path.IsProper)
    (h : (fill path.text vars).Ends s (.ok warnings) s')
    (hmiss : MissedFrom (fillStep vars) path s miss) : miss.warning ∈ warnings := by
  obtain ⟨m, hdirectory, hmisses⟩ := hmiss
  rw [fill, hproper.ofText_text, hdirectory.bind_iff] at h
  exact warning_mem_of_misses hmisses hproper h

theorem shows_of_missedFrom (hproper : path.IsProper)
    (h : (record note path.text).Ends s (.ok ()) s')
    (hmiss : MissedFrom (recordStep note) path s miss) :
    s.Shows (warningLines miss.complaint) s' := by
  obtain ⟨m, hdirectory, hmisses⟩ := hmiss
  rw [record, hproper.ofText_text, hdirectory.bind_iff] at h
  exact .later (works_of_peeks (peeks_isDirectory _) _ _ _ hdirectory).shown
    (shows_of_misses hmisses h)

/-- A file of a target is noted, or it lies where something was left out. -/
theorem noted_or_missedFrom {way : List Text} {content : Content} (hwell : s.tree.WellFormed)
    (hproper : path.IsProper) (h : (record note path.text).Ends s (.ok ()) s')
    (hway : way = [] ∨ s.tree.Lists s.here path.text way)
    (hlook : s.tree.look s.here (path.below way).text true = .ok (.file content)) :
    Noted note (path.below way).text s s' ∨
      ∃ miss rest, MissedFrom (recordStep note) path s miss ∧
        path.below way = miss.path.below rest := by
  rw [record, hproper.ofText_text] at h
  obtain ⟨found, m, hdirectory, hnext⟩ := ends_bind_ok.1 h
  obtain ⟨hlooks, htold, -⟩ := ends_storage_isDirectory hdirectory
  have hfound := htold found rfl
  rcases hway with rfl | hlists
  · rw [FilePath.below_nil] at hlook ⊢
    rw [hlook] at hfound
    cases hfound
    obtain ⟨-, rfl⟩ := ends_modify.1 hnext
    exact .inl (.within hlooks.gathers ⟨[], [], rfl⟩ (discipline_gathers.refl _))
  · rw [hlists.look hwell hproper] at hfound
    cases hfound
    rcases noted_or_missed (by rwa [hlooks.tree]) hproper (by omega) hnext
      (by rwa [hlooks.tree, hlooks.here]) (by rwa [hlooks.tree, hlooks.here]) with
      hnoted | ⟨miss, rest, hmisses, hbelow⟩
    · exact .inl (.within hlooks.gathers hnoted (discipline_gathers.refl _))
    · exact .inr ⟨miss, rest, ⟨m, hdirectory, hmisses⟩, hbelow⟩

end Placement

end Stencil
