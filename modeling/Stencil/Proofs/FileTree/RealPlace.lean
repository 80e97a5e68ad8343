import Mathlib.Data.List.Perm.Basic
import Mathlib.Data.Nat.Find
import Stencil.Proofs.FileTree.Follow

/-!
# Real places at the end of ways

Where a way leads somewhere, the links on it do not lead to themselves.  So the
path has a real place, which is the one that the way ends at.
-/

namespace Stencil.FileTree

variable {tree : FileTree} {here place next : Location} {names rest : List Text} {path : Text}
  {links more depth : Nat} {known : Resolved} {pending : List Location} {item : FileItem}

/-- The link at a place leads on to another place. -/
def LeadsOn (tree : FileTree) (links : Nat) (next place : Location) : Prop :=
  ∃ directory name target, next = directory ++ [name] ∧
    tree.get? next = some (.link target) ∧
    Walks tree true links (behind directory target) (PathText.steps target) place

theorem LeadsOn.unique {other : Location} (h : tree.LeadsOn links next place)
    (h' : tree.LeadsOn more next other) : place = other := by
  obtain ⟨directory, name, target, rfl, hget, hway⟩ := h
  obtain ⟨directory', name', target', heq, hget', hway'⟩ := h'
  obtain ⟨rfl, -⟩ := List.append_inj' heq rfl
  rw [hget] at hget'
  cases hget'
  exact hway.unique hway'

theorem LeadsOn.walks {name target : Text} (h : tree.LeadsOn links (here ++ [name]) place)
    (hget : tree.get? (here ++ [name]) = some (.link target)) :
    Walks tree true links (behind here target) (PathText.steps target) place := by
  obtain ⟨directory, other, target', heq, hget', hway⟩ := h
  obtain ⟨rfl, -⟩ := List.append_inj' heq rfl
  rw [hget] at hget'
  cases hget'
  exact hway

theorem LeadsOn.exists_least (h : tree.LeadsOn links next place) :
    ∃ least, tree.LeadsOn least next place ∧
      ∀ more other, tree.LeadsOn more next other → least ≤ more := by
  classical
  have hsome : ∃ links, tree.LeadsOn links next place := ⟨links, h⟩
  refine ⟨Nat.find hsome, Nat.find_spec hsome, fun more other hother => Nat.find_min' hsome ?_⟩
  obtain rfl := h.unique hother
  exact hother

/-- What is remembered of links: where they lead, or that they are being followed. -/
structure Tracks (tree : FileTree) (pending : List Location) (known : Resolved) : Prop where
  found : ∀ next place, known.lookup next = some (some place) →
    ∃ links, tree.LeadsOn links next place
  open_iff : ∀ next, known.lookup next = some none ↔ next ∈ pending

/-- A link that was not met yet is being followed. -/
theorem Tracks.enter (h : tree.Tracks pending known) :
    tree.Tracks (next :: pending) ((next, none) :: known) where
  found other place hlookup := by
    rw [Keyed.lookup_cons] at hlookup
    split at hlookup
    · cases hlookup
    · exact h.found other place hlookup
  open_iff other := by
    rw [Keyed.lookup_cons]
    split
    · simp [*]
    · simp [*, h.open_iff]

/-- A link was followed. -/
theorem Tracks.leave (h : tree.Tracks (next :: pending) known) (hnext : next ∉ pending)
    (hleads : tree.LeadsOn links next place) :
    tree.Tracks pending ((next, some place) :: known) where
  found other found hlookup := by
    rw [Keyed.lookup_cons] at hlookup
    split at hlookup
    · rename_i heq
      cases hlookup
      exact ⟨links, heq ▸ hleads⟩
    · exact h.found other found hlookup
  open_iff other := by
    rw [Keyed.lookup_cons]
    split
    · rename_i heq
      simpa [heq] using hnext
    · rename_i hne
      simp [h.open_iff, hne]

/-- No link that is being followed leads anywhere on a way with fewer links. -/
def IsFar (tree : FileTree) (links : Nat) (pending : List Location) : Prop :=
  ∀ next ∈ pending, ∀ more place, tree.LeadsOn more next place → links ≤ more

theorem IsFar.mono (h : tree.IsFar links pending) (hle : more ≤ links) :
    tree.IsFar more pending :=
  fun next hnext other place hleads => hle.trans (h next hnext other place hleads)

/-- The links that are being followed are different links of the tree. -/
structure ArePending (tree : FileTree) (pending : List Location) : Prop where
  nodup : pending.Nodup
  links : ∀ next ∈ pending, ∃ target, tree.get? next = some (.link target)

theorem ArePending.length_le (h : tree.ArePending pending) (hwell : tree.WellFormed) :
    pending.length ≤ tree.links.length := by
  have hsubset : pending ⊆ tree.links.map (·.1) := by
    intro next hnext
    obtain ⟨target, hget⟩ := h.links next hnext
    exact List.mem_map.2 ⟨(next, .link target), (mem_links hwell).2 ⟨target, rfl, hget⟩, rfl⟩
  simpa using (List.subperm_of_subset h.nodup hsubset).length_le

theorem ArePending.cons (h : tree.ArePending pending) (hnext : next ∉ pending) {target : Text}
    (hget : tree.get? next = some (.link target)) : tree.ArePending (next :: pending) :=
  ⟨List.nodup_cons.2 ⟨hnext, h.nodup⟩, List.forall_mem_cons.2 ⟨⟨target, hget⟩, h.links⟩⟩

/-- A way that links lead to does not meet a link that is being followed. -/
def FollowsWays (tree : FileTree) (depth : Nat)
    (follow : Location → List Text → Resolved → Location × Bool × Resolved) : Prop :=
  ∀ links here names known pending place, Walks tree true links here names place →
    tree.get? here = some .directory → tree.Tracks pending known → tree.ArePending pending →
    tree.IsFar links pending → tree.links.length ≤ depth + pending.length →
    ∃ later, follow here names known = (place, true, later) ∧ tree.Tracks pending later

/-- A way behind a link, and the rest of it. -/
theorem exists_middle {target : Text} (hwell : tree.WellFormed)
    (hhere : tree.get? here = some .directory)
    (h : Walks tree true links (behind here target) (PathText.steps target ++ rest) place) :
    ∃ middle, Walks tree true links (behind here target) (PathText.steps target) middle ∧
      (rest = [] ∧ middle = place ∨ tree.get? middle = some .directory ∧
        ∃ fewer ≤ links, Walks tree true fewer middle rest place) := by
  by_cases hrest : rest = []
  · subst hrest
    rw [List.append_nil] at h
    exact ⟨place, h, .inl ⟨rfl, rfl⟩⟩
  · obtain ⟨fewer, middle, hle, hfirst, hmiddle, hlast⟩ :=
      h.of_append hwell (Walks.behind_directory hhere target) hrest
    exact ⟨middle, hfirst, .inr ⟨hmiddle, fewer, hle, hlast⟩⟩

/-- A link that is met for the first time is followed to where it leads. -/
theorem FollowsWays.enter {way : Location → List Text → Resolved → Location × Bool × Resolved}
    {name target : Text} (h : tree.FollowsWays depth way)
    (hhere : tree.get? here = some .directory)
    (hget : tree.get? (here ++ [name]) = some (.link target)) (htracks : tree.Tracks pending known)
    (hpending : tree.ArePending ((here ++ [name]) :: pending)) (hfar : tree.IsFar links pending)
    (hleads : tree.LeadsOn links (here ++ [name]) place)
    (hdepth : tree.links.length ≤ depth + (pending.length + 1)) :
    ∃ later, way (behind here target) (PathText.steps target) ((here ++ [name], none) :: known) =
        (place, true, later) ∧ tree.Tracks pending ((here ++ [name], some place) :: later) := by
  -- on a way with the fewest links, the link itself cannot be met again
  obtain ⟨least, hleast, hmin⟩ := hleads.exists_least
  have hfar' : tree.IsFar least ((here ++ [name]) :: pending) :=
    List.forall_mem_cons.2 ⟨hmin, hfar.mono (hmin _ _ hleads)⟩
  obtain ⟨later, hfollow, hlater⟩ := h least _ _ _ _ _ (hleast.walks hget)
    (Walks.behind_directory hhere target) htracks.enter hpending hfar' hdepth
  exact ⟨later, hfollow, hlater.leave (List.nodup_cons.1 hpending.nodup).1 hleads⟩

/-- Links are followed by nothing if the depth is used up, and by a way of less depth otherwise. -/
def InnerWay (tree : FileTree) (depth : Nat)
    (inner : Option (Location → List Text → Resolved → Location × Bool × Resolved)) : Prop :=
  depth = 0 ∧ inner = none ∨
    ∃ fewer way, depth = fewer + 1 ∧ inner = some way ∧ tree.FollowsWays fewer way

/-- A link is replaced by where it leads, which is known already or is found out. -/
theorem InnerWay.followNames_link {name target : Text} {middle : Location}
    {inner : Option (Location → List Text → Resolved → Location × Bool × Resolved)}
    (hinner : tree.InnerWay depth inner) (hwell : tree.WellFormed) (hfits : Fits name)
    (hhere : tree.get? here = some .directory)
    (hget : tree.get? (here ++ [name]) = some (.link target)) (htracks : tree.Tracks pending known)
    (hpending : tree.ArePending pending) (hfar : tree.IsFar (links + 1) pending)
    (hleads : tree.LeadsOn links (here ++ [name]) middle)
    (hdepth : tree.links.length ≤ depth + pending.length) :
    ∃ later, followNames tree inner here (name :: rest) known =
        followNames tree inner middle rest later ∧ tree.Tracks pending later := by
  rw [followNames]
  simp only [if_neg hfits.1, if_neg hfits.2.1, hget]
  cases hlookup : known.lookup (here ++ [name]) with
  | some found =>
      cases found with
      | some found =>
          obtain ⟨more, hfound⟩ := htracks.found _ _ hlookup
          obtain rfl := hfound.unique hleads
          exact ⟨known, rfl, htracks⟩
      | none =>
          -- a link that is being followed is too far from the end to be met
          have := hfar _ ((htracks.open_iff _).1 hlookup) _ _ hleads
          omega
  | none =>
      have hnew : here ++ [name] ∉ pending := by
        rw [← htracks.open_iff, hlookup]
        simp
      have hpending' := hpending.cons hnew hget
      rcases hinner with ⟨rfl, rfl⟩ | ⟨fewer, way, rfl, rfl, hfollows⟩
      · -- there are no more links in the tree than those being followed
        have := hpending'.length_le hwell
        simp only [List.length_cons] at this
        omega
      · obtain ⟨later, hfollow, hlater⟩ := hfollows.enter hhere hget htracks hpending'
          (hfar.mono (Nat.le_succ links)) hleads (by omega)
        rw [behind] at hfollow
        simp only [hfollow]
        exact ⟨_, rfl, hlater⟩

theorem followsWays_followNames (hwell : tree.WellFormed)
    {inner : Option (Location → List Text → Resolved → Location × Bool × Resolved)}
    (hinner : tree.InnerWay depth inner) : tree.FollowsWays depth (followNames tree inner) := by
  intro links here names known pending place hway hhere htracks hpending hfar hdepth
  induction names generalizing links here known with
  | nil =>
      cases hway
      exact ⟨known, rfl, htracks⟩
  | cons name rest ih =>
      cases hway with
      | dot hway =>
          rw [followNames, if_pos rfl]
          exact ih _ _ _ hway hhere htracks hfar
      | up hway =>
          rw [followNames, if_neg (by decide), if_pos rfl]
          exact ih _ _ _ hway (hwell.get?_dropLast hhere) htracks hfar
      | free hfits hget =>
          simp only [followNames, if_neg hfits.1, if_neg hfits.2.1, hget]
          exact ⟨known, rfl, htracks⟩
      | file hfits hget =>
          simp only [followNames, if_neg hfits.1, if_neg hfits.2.1, hget]
          exact ⟨known, rfl, htracks⟩
      | enter hfits hget hway =>
          rw [followNames]
          simp only [if_neg hfits.1, if_neg hfits.2.1, hget]
          exact ih _ _ _ hway hget htracks hfar
      | link _ _ hfollow => cases hfollow
      | @jump links _ _ _ target _ hfits hget _ hway =>
          obtain ⟨middle, hfirst, hlast⟩ := exists_middle hwell hhere hway
          obtain ⟨later, heq, hlater⟩ := hinner.followNames_link hwell hfits hhere hget htracks
            hpending hfar ⟨here, name, target, rfl, hget, hfirst⟩ hdepth
          rw [heq]
          rcases hlast with ⟨rfl, rfl⟩ | ⟨hmiddle, fewer, hle, hlast⟩
          · exact ⟨later, rfl, hlater⟩
          · exact ih _ _ _ hlast hmiddle hlater (hfar.mono (Nat.le_succ_of_le hle))

theorem followsWays_follow (hwell : tree.WellFormed) (depth : Nat) :
    tree.FollowsWays depth (follow tree depth) := by
  induction depth with
  | zero => exact followsWays_followNames hwell (.inl ⟨rfl, rfl⟩)
  | succ depth ih => exact followsWays_followNames hwell (.inr ⟨depth, _, rfl, rfl, ih⟩)

/-- The real place of a path is where it leads to, if it leads anywhere. -/
theorem realPlace_of_locate (hwell : tree.WellFormed)
    (h : tree.locate here path true = .ok place) : tree.realPlace here path = .ok place := by
  obtain ⟨husable, origin, hstart, hway⟩ := locate_eq_ok_iff.1 h
  obtain ⟨later, hfollow, -⟩ := followsWays_follow hwell tree.links.length _ _ _ [] [] _ hway
    (start_isDirectory hstart) ⟨by simp, by simp⟩ ⟨List.nodup_nil, by simp⟩ (by simp [IsFar])
    (by simp)
  simp only [realPlace, husable.1, hstart, hfollow]

/-! ## Resolving -/

/-- No links are met on the way to a directory by the names of its place. -/
theorem walkNames_ne_linkLoop {jump : Location → List Text → Except Cause Location}
    (hwell : tree.WellFormed) (hnames : ∀ name ∈ names, IsName name)
    (hget : tree.get? (here ++ names) = some .directory) :
    walkNames tree true jump here names ≠ .error .linkLoop := by
  induction names generalizing here with
  | nil => simp [walkNames]
  | cons name rest ih =>
      obtain ⟨⟨-, hdot, hup, -⟩, hrest⟩ := List.forall_mem_cons.1 hnames
      rw [show here ++ name :: rest = here ++ [name] ++ rest by simp] at hget
      have hnext : tree.get? (here ++ [name]) = some .directory := by
        by_cases hnil : rest = []
        · simpa [hnil] using hget
        · exact hwell.get?_above hnil hget
      rw [walkNames, if_neg hdot, if_neg hup]
      split
      · simp
      · simp only [hnext]
        exact ih hrest hget

theorem walk_ne_linkLoop (hwell : tree.WellFormed) (hget : tree.get? place = some .directory)
    (links : Nat) :
    walk tree true links [] (PathText.steps place.path.text) ≠ .error .linkLoop := by
  obtain ⟨jump, hjump⟩ : ∃ jump, walk tree true links = walkNames tree true jump := by
    cases links <;> exact ⟨_, rfl⟩
  rw [hjump]
  by_cases hroot : place = []
  · subst hroot
    -- the root is written with a slash at its end
    rw [show PathText.steps (Location.path []).text = [("." : Text)] by decide]
    simp [walkNames]
  · have hproper := hwell.isProper hget
    rw [(FilePath.isProper_path hproper).steps_text hroot]
    exact walkNames_ne_linkLoop hwell hproper hget

theorem look_path_ne_linkLoop (hwell : tree.WellFormed) (hget : tree.get? place = some .directory)
    (other : Text) :
    tree.look here place.path.text true ≠ .error (.system .linkLoop other) := by
  intro hlook
  have hstart : tree.start here place.path.text = some [] := by
    rw [start, (FilePath.isProper_path (hwell.isProper hget)).isAbsolute_text]
    rfl
  cases hlocate : tree.locate here place.path.text true with
  | ok found =>
      cases hfound : tree.get? found with
      | some item => simp [look_eq_ok_iff.2 ⟨found, hlocate, hfound⟩] at hlook
      | none => simp [look_of_locate_ok hlocate hfound] at hlook
  | error failure =>
      rw [look_of_locate_error hlocate] at hlook
      cases hlook
      unfold locate at hlocate
      rw [hstart] at hlocate
      split at hlocate
      · rename_i hfault
        cases hlocate
        unfold PathText.fault? at hfault
        split at hfault
        · cases hfault
        · split at hfault <;> cases hfault
      · dsimp only at hlocate
        split at hlocate
        · cases hlocate
        split at hlocate
        · cases hlocate
        split at hlocate
        · cases hlocate
        · rename_i cause hwalk
          cases hlocate
          exact walk_ne_linkLoop hwell hget _ hwalk

/-- A path that leads to a directory is resolved to its place. -/
theorem resolved_of_locate (hwell : tree.WellFormed)
    (hlocate : tree.locate here path true = .ok place) (hget : tree.get? place = some .directory) :
    tree.resolved here path = .ok place := by
  rw [resolved, realPlace_of_locate hwell hlocate]
  dsimp only
  split
  · rename_i other hlook
    exact absurd hlook (look_path_ne_linkLoop hwell hget other)
  · rfl

theorem exists_resolved (hwell : tree.WellFormed)
    (h : tree.look here path true = .ok .directory) :
    ∃ place, tree.resolved here path = .ok place := by
  obtain ⟨place, hlocate, hget⟩ := look_eq_ok_iff.1 h
  exact ⟨place, resolved_of_locate hwell hlocate hget⟩

end Stencil.FileTree
