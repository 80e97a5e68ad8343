import Stencil.Proofs.FileTree.Locate

/-!
# Real places

Following links leads to a place with names that a path can have, and it depends
on the links of a tree only.  So a path keeps its real place while files and
directories are added to the tree.
-/

namespace Stencil.FileTree

variable {tree later : FileTree} {here place : Location} {names : List Text} {path : Text}
  {known : Resolved}

/-! ## Places with proper names -/

theorem isProper_concat {name : Text} (hhere : here.path.IsProper) (hname : PathText.IsStep name)
    (hdot : name ≠ ("." : Text)) : (Location.path (here ++ [name])).IsProper := by
  intro part hpart
  rcases List.mem_append.1 hpart with hpart | hpart
  · exact hhere part hpart
  · rw [List.mem_singleton.1 hpart]
    exact ⟨hname.1, hdot, hname.2⟩

theorem isProper_normal (hhere : here.path.IsProper) (hnames : ∀ name ∈ names, PathText.IsStep name) :
    (normal here names).path.IsProper := by
  induction names generalizing here with
  | nil => exact hhere
  | cons name names ih =>
      have hrest := fun other hother => hnames other (List.mem_cons_of_mem name hother)
      rw [normal, List.foldl_cons]
      refine ih ?_ hrest
      split
      · exact hhere
      · rename_i hdot
        split
        · exact FilePath.IsProper.parent hhere
        · exact isProper_concat hhere (hnames name List.mem_cons_self) fun heq => hdot (.inl heq)

/-- The places that links were resolved to have proper names. -/
def Recalls (known : Resolved) : Prop :=
  ∀ entry ∈ known, ∀ place, entry.2 = some place → place.path.IsProper

theorem Recalls.cons {next : Location} {found : Option Location} (h : Recalls known)
    (hfound : ∀ place, found = some place → place.path.IsProper) :
    Recalls ((next, found) :: known) := by
  intro entry hentry
  rcases List.mem_cons.1 hentry with rfl | hentry
  · exact hfound
  · exact h entry hentry

theorem Recalls.lookup {next place : Location} (h : Recalls known)
    (hlookup : known.lookup next = some (some place)) : place.path.IsProper := by
  obtain ⟨front, back, rfl, -⟩ := List.lookup_eq_some_iff.1 hlookup
  exact h (next, some place) (by simp) place rfl

/-- What a way of following links leads to, and what it remembers, is proper. -/
def FollowsProperly (inner : Location → List Text → Resolved → Location × Bool × Resolved) : Prop :=
  ∀ here names known, here.path.IsProper → (∀ name ∈ names, PathText.IsStep name) →
    Recalls known →
    (inner here names known).1.path.IsProper ∧ Recalls (inner here names known).2.2

theorem followsProperly_followNames
    {inner : Option (Location → List Text → Resolved → Location × Bool × Resolved)}
    (hinner : ∀ way, inner = some way → FollowsProperly way) :
    FollowsProperly (followNames tree inner) := by
  intro here names known hhere hnames hknown
  induction names generalizing here known with
  | nil => exact ⟨hhere, hknown⟩
  | cons name rest ih =>
      have hname := hnames name List.mem_cons_self
      have hrest := fun other hother => hnames other (List.mem_cons_of_mem name hother)
      rw [followNames]
      by_cases hdot : name = ("." : Text)
      · rw [if_pos hdot]
        exact ih _ _ hhere hrest hknown
      by_cases hup : name = (".." : Text)
      · rw [if_neg hdot, if_pos hup]
        exact ih _ _ (FilePath.IsProper.parent hhere) hrest hknown
      rw [if_neg hdot, if_neg hup]
      have hnext := isProper_concat hhere hname hdot
      dsimp only
      split
      · rename_i target _
        have hstart : (Location.path (if PathText.isAbsolute target then [] else here)).IsProper := by
          split
          · exact fun part hpart => absurd hpart List.not_mem_nil
          · exact hhere
        split
        · rename_i hlookup
          exact ih _ _ (hknown.lookup hlookup) hrest hknown
        · exact ⟨isProper_normal hnext hrest, hknown⟩
        · exact ⟨isProper_normal hnext hrest, hknown⟩
        · rename_i way _
          have hpending : Recalls ((here ++ [name], none) :: known) := hknown.cons (by simp)
          have hway := hinner way rfl _ (PathText.steps target) _ hstart
            (fun _ => PathText.isStep_of_mem_steps) hpending
          split
          all_goals
            rename_i heq
            rw [heq] at hway
          · exact ih _ _ hway.1 hrest (hway.2.cons (by simpa using hway.1))
          · exact ⟨isProper_normal hway.1 hrest, hway.2⟩
      · exact ih _ _ hnext hrest hknown

theorem followsProperly_follow (depth : Nat) : FollowsProperly (follow tree depth) := by
  induction depth with
  | zero => exact followsProperly_followNames (by simp)
  | succ depth ih =>
      refine followsProperly_followNames ?_
      rintro way ⟨⟩
      exact ih

theorem isProper_realPlace (hwell : tree.WellFormed) (h : tree.realPlace here path = .ok place) :
    place.path.IsProper := by
  unfold realPlace at h
  split at h
  · cases h
  split at h
  · cases h
  rename_i start hstart
  cases h
  refine (followsProperly_follow _ _ _ _ ?_ (fun _ => PathText.isStep_of_mem_steps) ?_).1
  · exact FilePath.isProper_path (hwell.isProper (start_isDirectory hstart))
  · exact fun entry hentry => absurd hentry List.not_mem_nil

/-! ## Trees with the same links -/

def HasLinksOf (later tree : FileTree) : Prop :=
  ∀ place target, later.get? place = some (.link target) ↔ tree.get? place = some (.link target)

theorem HasLinksOf.followNames (h : later.HasLinksOf tree)
    (inner : Option (Location → List Text → Resolved → Location × Bool × Resolved)) :
    later.followNames inner = tree.followNames inner := by
  funext here names known
  induction names generalizing here known with
  | nil => rfl
  | cons name rest ih =>
      simp only [FileTree.followNames, ih]
      by_cases hlink : ∃ target, tree.get? (here ++ [name]) = some (.link target)
      · obtain ⟨target, hlink⟩ := hlink
        simp only [hlink, (h _ _).2 hlink]
        -- a way in is taken only at a link that was not met before
        rcases known.lookup (here ++ [name]) with _ | _ | _ <;> cases inner <;> simp only [ih]
      · have hlater : ¬ ∃ target, later.get? (here ++ [name]) = some (.link target) :=
          fun ⟨target, hget⟩ => hlink ⟨target, (h _ _).1 hget⟩
        split
        · rfl
        split
        · rfl
        split
        · rename_i target hget
          exact absurd ⟨target, hget⟩ hlater
        split
        · rename_i target hget
          exact absurd ⟨target, hget⟩ hlink
        · rfl

theorem HasLinksOf.follow (h : later.HasLinksOf tree) (depth : Nat) :
    later.follow depth = tree.follow depth := by
  induction depth with
  | zero => rw [FileTree.follow, FileTree.follow, h.followNames]
  | succ depth ih => rw [FileTree.follow, FileTree.follow, h.followNames, ih]

theorem mem_links (hwell : tree.WellFormed) {entry : Location × FileItem} :
    entry ∈ tree.links ↔ ∃ target, entry.2 = .link target ∧
      tree.get? entry.1 = some (.link target) := by
  obtain ⟨place, item⟩ := entry
  rw [links, List.mem_filter]
  constructor
  · rintro ⟨hmem, hlink⟩
    cases item with
    | link target =>
        exact ⟨target, rfl, (hwell.get?_eq_some_iff (hwell.occupied _ hmem)).2 hmem⟩
    | _ => cases hlink
  · rintro ⟨target, rfl, hget⟩
    have hplace := ne_nil_of_get? (show tree.get? place ≠ _ by simp [hget])
    exact ⟨(hwell.get?_eq_some_iff hplace).1 hget, rfl⟩

theorem HasLinksOf.length_links (h : later.HasLinksOf tree) (hwell : tree.WellFormed)
    (hwell' : later.WellFormed) : later.links.length = tree.links.length := by
  have hnodup : ∀ {other : FileTree}, other.WellFormed → other.links.Nodup :=
    fun hother => (List.Nodup.of_map _ hother.distinct).filter _
  refine ((List.perm_ext_iff_of_nodup (hnodup hwell') (hnodup hwell)).2 fun entry => ?_).length_eq
  rw [mem_links hwell', mem_links hwell]
  simp only [h entry.1]

/-- A path keeps its real place while nothing but files and directories is added. -/
theorem realPlace_kept (hwell : tree.WellFormed) (hwell' : later.WellFormed)
    (hkept : tree.IsKeptBy later) (hlinks : later.HasLinksOf tree)
    (h : tree.realPlace here path = .ok place) : later.realPlace here path = .ok place := by
  unfold realPlace at h ⊢
  split at h
  · cases h
  split at h
  · cases h
  rename_i start hstart
  rw [start_extend hkept.isExtendedBy hstart]
  simpa [hlinks.follow, hlinks.length_links hwell hwell'] using h

/-! ## Resolving -/

/-- The real place of a path, unless a loop of links is in the way. -/
def resolved (tree : FileTree) (here : Location) (path : Text) : Except Failure Location :=
  match tree.realPlace here path with
  | .error failure => .error failure
  | .ok place =>
      match tree.look here place.path.text true with
      | .error (.system .linkLoop path) => .error (.linkLoop path)
      | _ => .ok place

theorem realPlace_of_resolved (h : tree.resolved here path = .ok place) :
    tree.realPlace here path = .ok place := by
  unfold resolved at h
  split at h
  · cases h
  · rename_i found hfound
    split at h
    · cases h
    · cases h
      exact hfound

theorem resolved_of_look {item : FileItem} (h : tree.realPlace here path = .ok place)
    (hlook : tree.look here place.path.text true = .ok item) :
    tree.resolved here path = .ok place := by
  simp [resolved, h, hlook]

end Stencil.FileTree
