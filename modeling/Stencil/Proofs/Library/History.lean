import Stencil.Proofs.Library.Work

/-!
# The memory of manifests

Whatever is asked of a library, and whatever is done to its files in between,
comes down to loads of manifests, to work that nothing is remembered of, and to
forgetting.  A manifest that was loaded once stays the manifest of its place
until all is forgotten, and nothing else is ever remembered.
-/

namespace Stencil

open Session Action

/-- The same manifests are remembered. -/
def Session.SameMemory (s s' : Session) : Prop := s'.manifests = s.manifests

namespace Manifests

/-! ## Loads -/

/-- A load of a manifest, with the session that it found and the one that it left. -/
structure Load where
  template : FilePath
  before : Session
  result : Except Failure (Option Manifest)
  after : Session

/-- What a template's file says, whatever is remembered of it. -/
def readAgain (template : FilePath) : Action (Option Manifest) := do
  let path := (template.child fileName).text
  if ← Storage.exists? path then return some (← readFrom path) else return none

namespace Load

def IsDone (load : Load) : Prop :=
  (Manifests.load load.template).Ends load.before load.result load.after

def ResolvesTo (load : Load) (place : Location) : Prop :=
  load.before.tree.resolved load.before.here load.template.text = .ok place

def Returns (load : Load) (manifest : Manifest) : Prop := load.result = .ok (some manifest)

/-- The load reads the file of its template as it is now. -/
def ReadsAgain (load : Load) : Prop :=
  ∃ m, (readAgain load.template).Ends load.before load.result m

/-- The file of the template holds a manifest. -/
def Finds (load : Load) (manifest : Manifest) : Prop :=
  ∃ content text value, load.before.tree.look load.before.here
      (Storage.plain (load.template.child fileName).text) true = .ok (.file content) ∧
    textOf content = .ok text ∧ Yaml.read text = .ok value ∧ Manifest.ofValue value = .ok manifest

end Load

variable {s s' : Session} {template : FilePath} {load : Load} {place : Location}
  {manifest : Manifest} {path : Text}

theorem ends_storage_readText_ok {text : Text} (h : (Storage.readText path).Ends s (.ok text) s') :
    ∃ content, s.tree.look s.here (Storage.plain path) true = .ok (.file content) ∧
      textOf content = .ok text := by
  rcases ends_guarded h with ⟨_, hr, -⟩ | ⟨m, hlooks, hread⟩
  · cases hr
  obtain ⟨content, t, hcontent, -⟩ := ends_bind_ok.1 hread
  have hlook := ((ends_readContent hcontent).2 content).1 rfl
  refine ⟨content, ?_, (ends_readText hlook hread).1.symm⟩
  rwa [hlooks.tree, hlooks.here] at hlook

/-- A manifest that was read is the one that the file held. -/
theorem ends_readFrom_ok (h : (readFrom path).Ends s (.ok manifest) s') :
    ∃ content text value, s.tree.look s.here (Storage.plain path) true = .ok (.file content) ∧
      textOf content = .ok text ∧ Yaml.read text = .ok value ∧
      Manifest.ofValue value = .ok manifest := by
  rcases ends_orElseIf.1 h with ⟨found, hread, hfound⟩ | ⟨_, _, -, -, hthrow⟩ | ⟨_, -, -, hr⟩
  case inr.inl => cases (ends_throw.1 hthrow).1
  case inr.inr => cases hr
  cases hfound
  obtain ⟨text, m, htext, hnext⟩ := ends_bind_ok.1 hread
  obtain ⟨content, hlook, hcontent⟩ := ends_storage_readText_ok htext
  obtain ⟨value, t, hvalue, hlast⟩ := ends_bind_ok.1 hnext
  exact ⟨content, text, value, hlook, hcontent, (ends_lift_mapError_ok.1 hvalue).1,
    (ends_lift_mapError_ok.1 hlast).1⟩

/-- What a load does to the memory: a manifest that was not known of its place is added. -/
inductive Load.Course (load : Load) : Prop where
  | known (place : Location) (manifest : Manifest) (resolves : load.ResolvesTo place)
      (lookup : load.before.manifests.lookup place = some manifest)
      (returns : load.Returns manifest) (memory : load.after.manifests = load.before.manifests)
  | found (place : Location) (manifest : Manifest) (resolves : load.ResolvesTo place)
      (lookup : load.before.manifests.lookup place = none) (returns : load.Returns manifest)
      (memory : load.after.manifests = load.before.manifests ++ [(place, manifest)])
      (finds : load.Finds manifest) (readsAgain : load.ReadsAgain)
  | missed (returnsNone : ∀ manifest, ¬ load.Returns manifest)
      (unknown : ∀ place, load.ResolvesTo place → load.before.manifests.lookup place = none)
      (memory : load.after.manifests = load.before.manifests)
      (readsAgain : ∀ place, load.ResolvesTo place → load.ReadsAgain)

theorem Load.IsDone.course (h : load.IsDone) : load.Course := by
  obtain ⟨template, s, r, s'⟩ := load
  dsimp only [Load.IsDone] at h
  rcases ends_bind.1 h with ⟨place, m, hresolve, hnext⟩ | ⟨failure, hresolve, rfl⟩
  case inr =>
    obtain ⟨hplace, rfl⟩ := ends_resolve.1 hresolve
    have hunresolved : ∀ place, s'.tree.resolved s'.here template.text ≠ .ok place := by
      simp [← hplace]
    exact .missed (by simp [Load.Returns]) (fun place hok => absurd hok (hunresolved place)) rfl
      fun place hok => absurd hok (hunresolved place)
  obtain ⟨hplace, rfl⟩ := ends_resolve.1 hresolve
  have hplaced : ∀ other, m.tree.resolved m.here template.text = .ok other → other = place :=
    fun other hother => Except.ok.inj (hother.symm.trans hplace.symm)
  rw [ends_get_bind] at hnext
  cases hlookup : m.manifests.lookup place with
  | some known =>
      simp only [hlookup] at hnext
      obtain ⟨rfl, rfl⟩ := ends_pure.1 hnext
      exact .known place known hplace.symm hlookup rfl rfl
  | none =>
      simp only [hlookup] at hnext
      have hmissed (hreturns : ∀ manifest, r ≠ .ok (some manifest))
          (hmemory : s'.manifests = m.manifests) (hagain : (readAgain template).Ends m r s') :
          Load.Course ⟨template, m, r, s'⟩ :=
        .missed hreturns (fun other hother => hplaced other hother ▸ hlookup) hmemory
          fun _ _ => ⟨s', hagain⟩
      rcases ends_bind.1 hnext with ⟨isThere, t, hexists, hlast⟩ | ⟨failure, hexists, rfl⟩
      case inr =>
        exact hmissed (by simp) (ends_storage_exists? hexists).1.manifests
          (ends_bind.2 (.inr ⟨failure, hexists, rfl⟩))
      have hlooks := (ends_storage_exists? hexists).1
      cases isThere with
      | false =>
          obtain ⟨rfl, rfl⟩ := ends_pure.1 hlast
          exact hmissed (by simp) hlooks.manifests (hexists.bind (ends_pure.2 ⟨rfl, rfl⟩))
      | true =>
          rcases ends_bind.1 hlast with ⟨manifest, u, hread, hremember⟩ | ⟨failure, hread, rfl⟩
          case inr =>
            exact hmissed (by simp) (hlooks.trans (follows_readFrom _ _ _ _ hread)).manifests
              (hexists.bind (ends_bind.2 (.inr ⟨failure, hread, rfl⟩)))
          have hlooks' := hlooks.trans (follows_readFrom _ _ _ _ hread)
          rw [remember, ends_modify_bind] at hremember
          obtain ⟨rfl, rfl⟩ := ends_pure.1 hremember
          refine .found place manifest hplace.symm hlookup rfl ?_ ?_ ?_
          · simp [hlooks'.manifests]
          · have hfinds := ends_readFrom_ok hread
            rwa [hlooks.tree, hlooks.here] at hfinds
          · exact ⟨u, hexists.bind (hread.bind (ends_pure.2 ⟨rfl, rfl⟩))⟩

/-! ## Histories -/

inductive Event where
  | loaded (load : Load)
  | cleared

/-- How an action runs, with its loads in their order.  What is no load and does not forget is work,
which leaves the memory alone in whichever session it is done. -/
inductive Runs : {α : Type} → Action α → Session → List Event → Except Failure α → Session → Prop where
  | load {template : FilePath} {s s' : Session} {r : Except Failure (Option Manifest)}
      (h : (Manifests.load template).Ends s r s') :
      Runs (Manifests.load template) s [.loaded ⟨template, s, r, s'⟩] r s'
  | clear (s : Session) : Runs forgetAll s [.cleared] (.ok ()) { s with manifests := [] }
  | work {α : Type} {action : Action α} {s s' : Session} {r : Except Failure α}
      (hwork : action.Follows SameMemory) (h : action.Ends s r s') : Runs action s [] r s'
  | attempt {α : Type} {action : Action α} {s s' : Session} {events : List Event}
      {r : Except Failure α} (h : Runs action s events r s') :
      Runs (Action.attempt action) s events (.ok r) s'
  | bind {α β : Type} {action : Action α} {next : α → Action β} {s m s' : Session}
      {events more : List Event} {a : α} {r : Except Failure β} (first : Runs action s events (.ok a) m)
      (rest : Runs (next a) m more r s') : Runs (action >>= next) s (events ++ more) r s'
  | fail {α β : Type} {action : Action α} {next : α → Action β} {s s' : Session}
      {events : List Event} {failure : Failure} (h : Runs action s events (.error failure) s') :
      Runs (action >>= next) s events (.error failure) s'

/-- Events one after the other: what is remembered after one of them is what the next one finds. -/
inductive Chain : List (Location × Manifest) → List Event → List (Location × Manifest) → Prop where
  | nil (memory : List (Location × Manifest)) : Chain memory [] memory
  | loaded (load : Load) {events : List Event} {memory : List (Location × Manifest)}
      (done : load.IsDone) (rest : Chain load.after.manifests events memory) :
      Chain load.before.manifests (.loaded load :: events) memory
  | cleared {events : List Event} {memory later : List (Location × Manifest)}
      (rest : Chain [] events later) : Chain memory (.cleared :: events) later

namespace Chain

variable {memory middle later : List (Location × Manifest)} {events more : List Event}

theorem append (h : Chain memory events middle) (h' : Chain middle more later) :
    Chain memory (events ++ more) later := by
  induction h with
  | nil => exact h'
  | loaded load done _ ih => exact .loaded load done (ih h')
  | cleared _ ih => exact .cleared (ih h')

theorem split (h : Chain memory (events ++ more) later) :
    ∃ middle, Chain memory events middle ∧ Chain middle more later := by
  induction events generalizing memory with
  | nil => exact ⟨memory, .nil memory, h⟩
  | cons event events ih =>
      cases h with
      | loaded load done rest =>
          obtain ⟨middle, hfirst, hrest⟩ := ih rest
          exact ⟨middle, .loaded load done hfirst, hrest⟩
      | cleared rest =>
          obtain ⟨middle, hfirst, hrest⟩ := ih rest
          exact ⟨middle, .cleared hfirst, hrest⟩

/-- What is known of a place stays known until all is forgotten. -/
theorem lookup_kept (h : Chain memory events later) (huncleared : .cleared ∉ events)
    (hlookup : memory.lookup place = some manifest) : later.lookup place = some manifest := by
  induction h with
  | nil => exact hlookup
  | cleared => exact absurd List.mem_cons_self huncleared
  | loaded load done rest ih =>
      refine ih (fun hcleared => huncleared (List.mem_cons_of_mem _ hcleared)) ?_
      cases done.course with
      | known _ _ _ _ _ hmemory => rwa [hmemory]
      | found _ _ _ _ _ hmemory => simp [hmemory, List.lookup_append, hlookup]
      | missed _ _ hmemory => rwa [hmemory]

/-- Of a place that no load returned a manifest for, nothing is known. -/
theorem lookup_none (h : Chain memory events later)
    (hmissed : ∀ load, .loaded load ∈ events → load.ResolvesTo place →
      ∀ manifest, ¬ load.Returns manifest)
    (hlookup : memory.lookup place = none) : later.lookup place = none := by
  induction h with
  | nil => exact hlookup
  | cleared rest ih =>
      exact ih (fun load hload => hmissed load (List.mem_cons_of_mem _ hload)) rfl
  | loaded load done rest ih =>
      refine ih (fun load hload => hmissed load (List.mem_cons_of_mem _ hload)) ?_
      cases done.course with
      | known _ _ _ _ _ hmemory => rwa [hmemory]
      | missed _ _ hmemory => rwa [hmemory]
      | found other manifest hresolves _ hreturns hmemory =>
          have hother : place ≠ other := by
            rintro rfl
            exact hmissed load List.mem_cons_self hresolves manifest hreturns
          simp [hmemory, List.lookup_append, hlookup, List.lookup_cons, beq_eq_false_iff_ne.2 hother]

/-- What is remembered was so before, or it was found by a load since all was forgotten last. -/
theorem mem_found (h : Chain memory events later) (hmem : (place, manifest) ∈ later) :
    (place, manifest) ∈ memory ∧ .cleared ∉ events ∨
      ∃ earlier load more, events = earlier ++ .loaded load :: more ∧ .cleared ∉ more ∧
        load.ResolvesTo place ∧ load.Returns manifest ∧ load.Finds manifest := by
  induction h with
  | nil => exact .inl ⟨hmem, by simp⟩
  | loaded load done rest ih =>
      rcases ih hmem with ⟨hbefore, huncleared⟩ | ⟨earlier, other, more, rfl, hfound⟩
      case inr => exact .inr ⟨.loaded load :: earlier, other, more, rfl, hfound⟩
      have hold (hmemory : load.after.manifests = load.before.manifests) :
          (place, manifest) ∈ load.before.manifests ∧ .cleared ∉ Event.loaded load :: _ :=
        ⟨hmemory ▸ hbefore, by simpa using huncleared⟩
      cases done.course with
      | known _ _ _ _ _ hmemory => exact .inl (hold hmemory)
      | missed _ _ hmemory => exact .inl (hold hmemory)
      | found other found hresolves _ hreturns hmemory hfinds =>
          rw [hmemory, List.mem_append, List.mem_singleton] at hbefore
          rcases hbefore with hbefore | hnew
          · exact .inl ⟨hbefore, by simpa using huncleared⟩
          · cases hnew
            exact .inr ⟨[], load, _, rfl, huncleared, hresolves, hreturns, hfinds⟩
  | cleared rest ih =>
      rcases ih hmem with ⟨hnone, -⟩ | ⟨earlier, load, more, rfl, hfound⟩
      · cases hnone
      · exact .inr ⟨.cleared :: earlier, load, more, rfl, hfound⟩

end Chain

theorem Runs.chain {α : Type} {action : Action α} {events : List Event} {r : Except Failure α}
    (h : Runs action s events r s') : Chain s.manifests events s'.manifests := by
  induction h with
  | load hend => exact .loaded ⟨_, _, _, _⟩ hend (.nil _)
  | clear s => exact .cleared (.nil _)
  | work hwork hend => exact (hwork _ _ _ hend : _ = _) ▸ .nil _
  | attempt _ ih => exact ih
  | bind _ _ ih ih' => exact ih.append ih'
  | fail _ ih => exact ih

/-- What the loads of a history have to do with each other and with what is remembered. -/
structure IsFaithful (events : List Event) (memory : List (Location × Manifest)) : Prop where
  /-- A manifest that was returned for a place is returned for it until all is forgotten. -/
  kept : ∀ earlier first between last later place manifest,
    events = earlier ++ .loaded first :: between ++ .loaded last :: later → .cleared ∉ between →
      first.ResolvesTo place → first.Returns manifest → last.ResolvesTo place →
        last.Returns manifest
  /-- A load that fails or finds no manifest leaves the memory as it was. -/
  missed : ∀ load, .loaded load ∈ events → (∀ manifest, ¬ load.Returns manifest) →
    load.after.manifests = load.before.manifests
  /-- After such a load the file is read again, unless a manifest was found for its place. -/
  readAgain : ∀ earlier first between last later place,
    events = earlier ++ .loaded first :: between ++ .loaded last :: later →
      (∀ manifest, ¬ first.Returns manifest) → first.ResolvesTo place → last.ResolvesTo place →
      (∀ load, .loaded load ∈ between → load.ResolvesTo place →
        ∀ manifest, ¬ load.Returns manifest) → last.ReadsAgain
  /-- What is remembered was found by a load since all was forgotten last. -/
  found : ∀ place manifest, (place, manifest) ∈ memory →
    ∃ earlier load later, events = earlier ++ .loaded load :: later ∧ .cleared ∉ later ∧
      load.ResolvesTo place ∧ load.Returns manifest ∧ load.Finds manifest

/-- Two loads of a chain, with what is remembered between them. -/
theorem Chain.loads {memory later : List (Location × Manifest)}
    {earlier between more : List Event} {first last : Load}
    (h : Chain memory (earlier ++ .loaded first :: between ++ .loaded last :: more) later) :
    first.IsDone ∧ last.IsDone ∧ Chain first.after.manifests between last.before.manifests := by
  obtain ⟨middle, hfirst, hlast⟩ := h.split
  obtain ⟨_, -, hbetween⟩ := hfirst.split
  cases hlast with
  | loaded _ hdone' _ =>
      cases hbetween with
      | loaded _ hdone hrest => exact ⟨hdone, hdone', hrest⟩

theorem Chain.isDone_of_mem {memory later : List (Location × Manifest)} {events : List Event}
    (h : Chain memory events later) (hload : .loaded load ∈ events) : load.IsDone := by
  obtain ⟨earlier, more, rfl⟩ := List.append_of_mem hload
  obtain ⟨_, -, hrest⟩ := h.split
  cases hrest with
  | loaded _ hdone _ => exact hdone

theorem Load.IsDone.returns_of_lookup (h : load.IsDone) (hplace : load.ResolvesTo place)
    (hlookup : load.before.manifests.lookup place = some manifest) : load.Returns manifest :=
  (Ends.unique h (ends_load_of_lookup hplace hlookup)).1

theorem Load.IsDone.lookup_of_returns (h : load.IsDone) (hplace : load.ResolvesTo place)
    (hreturns : load.Returns manifest) : load.after.manifests.lookup place = some manifest := by
  obtain ⟨other, hother, hlookup⟩ := (ends_load h).2 _ hreturns
  obtain rfl : place = other := Except.ok.inj (hplace.symm.trans hother)
  exact hlookup manifest rfl

theorem Chain.isFaithful {memory : List (Location × Manifest)} {events : List Event}
    (h : Chain [] events memory) : IsFaithful events memory where
  kept earlier first between last later place manifest heq huncleared hfirst hreturns hlast := by
    subst heq
    obtain ⟨hdone, hdone', hbetween⟩ := h.loads
    exact hdone'.returns_of_lookup hlast
      (hbetween.lookup_kept huncleared (hdone.lookup_of_returns hfirst hreturns))
  missed load hload hmissed := by
    cases (h.isDone_of_mem hload).course with
    | known _ manifest _ _ hreturns => exact absurd hreturns (hmissed manifest)
    | found _ manifest _ _ hreturns => exact absurd hreturns (hmissed manifest)
    | missed _ _ hmemory => exact hmemory
  readAgain earlier first between last later place heq hmissed hfirst hlast hnone := by
    subst heq
    obtain ⟨hdone, hdone', hbetween⟩ := h.loads
    have hunknown : first.after.manifests.lookup place = none := by
      cases hdone.course with
      | known _ manifest _ _ hreturns => exact absurd hreturns (hmissed manifest)
      | found _ manifest _ _ hreturns => exact absurd hreturns (hmissed manifest)
      | missed _ hunknown hmemory => exact hmemory ▸ hunknown place hfirst
    have hunknown' := hbetween.lookup_none hnone hunknown
    cases hdone'.course with
    | found _ _ _ _ _ _ _ hagain => exact hagain
    | missed _ _ _ hagain => exact hagain place hlast
    | known other manifest hother hlookup =>
        obtain rfl : place = other := Except.ok.inj (hlast.symm.trans hother)
        rw [hunknown'] at hlookup
        cases hlookup
  found place manifest hmem := by
    rcases h.mem_found hmem with ⟨hnone, -⟩ | hfound
    · cases hnone
    · exact hfound

end Manifests

end Stencil
