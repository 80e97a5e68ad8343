import Mathlib.Data.List.Sort
import Stencil.Proofs.FileTree.Follow
import Stencil.Proofs.FileTree.Listing
import Stencil.Proofs.FileTree.Source

/-!
# Trees without links

Where no links are, a path leads to the place that it spells, and it needs what
is on its way there only.  So two trees locate a path alike if one of them keeps
the other one, and if they are the same at the place of the path and below.
-/

namespace Stencil

/-- The place that a path spells, with its dots taken literally. -/
def FilePath.placeFrom (here : Location) (path : FilePath) : Location :=
  FileTree.normal (if path.isAbsolute then [] else here) path.parts

namespace FileTree

variable {tree later : FileTree} {followLast : Bool} {here place other above origin : Location}
  {names rest : List Text} {text name : Text} {path : FilePath} {item : FileItem}

def IsUnlinked (tree : FileTree) : Prop := ∀ place target, tree.get? place ≠ some (.link target)

theorem isUnlinked_of_links (hwell : tree.WellFormed) (h : tree.links = []) :
    tree.IsUnlinked := by
  intro place target hget
  have hmem : (place, .link target) ∈ tree.links := (mem_links hwell).2 ⟨target, rfl, hget⟩
  rw [h] at hmem
  cases hmem

theorem IsUnlinked.of_kept (h : later.IsUnlinked) (hkept : tree.IsKeptBy later) :
    tree.IsUnlinked :=
  fun place target hget => h place target (hkept _ _ hget)

/-! ## Places that are spelt -/

theorem normal_append (here : Location) (front back : List Text) :
    normal here (front ++ back) = normal (normal here front) back :=
  List.foldl_append

theorem normal_of_plain (here : Location)
    (hrest : ∀ name ∈ rest, name ≠ [] ∧ name ≠ ("." : Text) ∧ name ≠ (".." : Text)) :
    normal here rest = here ++ rest := by
  induction rest generalizing here with
  | nil => exact (List.append_nil here).symm
  | cons name rest ih =>
      obtain ⟨hne, hdot, hup⟩ := hrest name List.mem_cons_self
      have hstep : normal here (name :: rest) = normal (here ++ [name]) rest := by
        simp [normal, hne, hdot, hup]
      rw [hstep, ih _ fun other hother => hrest other (List.mem_cons_of_mem _ hother)]
      simp

theorem normal_of_isProper (here : Location) (hrest : Location.IsProper rest) :
    normal here rest = here ++ rest :=
  normal_of_plain here fun name hname =>
    have ⟨hne, hdot, hup, _⟩ := hrest name hname
    ⟨hne, hdot, hup⟩

theorem normal_dot (here : Location) (rest : List Text) :
    normal here (("." : Text) :: rest) = normal here rest := by
  simp [normal]

theorem Walks.eq_normal {links : Nat} (h : Walks tree followLast links here names place)
    (hunlinked : tree.IsUnlinked) (hnames : ∀ name ∈ names, name ≠ []) :
    place = normal here names := by
  induction h with
  | done => rfl
  | dot _ ih =>
      rw [normal_dot]
      exact ih fun name hname => hnames name (List.mem_cons_of_mem _ hname)
  | up _ ih =>
      have := ih fun name hname => hnames name (List.mem_cons_of_mem _ hname)
      simpa [normal, Text.ofString] using this
  | @free _ here name hfits _ | @file _ here name _ hfits _ =>
      have hne := hnames name List.mem_cons_self
      simp [normal, hne, hfits.1, hfits.2.1]
  | @enter _ here name _ _ hfits _ _ ih =>
      have hne := hnames name List.mem_cons_self
      have := ih fun other hother => hnames other (List.mem_cons_of_mem _ hother)
      simpa [normal, hne, hfits.1, hfits.2.1] using this
  | link _ hget _ | jump _ hget _ _ => exact absurd hget (hunlinked _ _)

theorem start_eq (hproper : path.IsProper) (h : tree.start here path.text = some origin) :
    origin = if path.isAbsolute then [] else here := by
  unfold start at h
  rw [hproper.isAbsolute_text] at h
  split at h
  · rename_i habsolute
    rw [if_pos habsolute]
    exact (Option.some.inj h).symm
  · rename_i hrelative
    rw [if_neg hrelative]
    split at h
    · exact (Option.some.inj h).symm
    · cases h

theorem placeFrom_eq (hproper : path.IsProper) (hunlinked : tree.IsUnlinked)
    (h : tree.locate here path.text followLast = .ok place) : place = path.placeFrom here := by
  obtain ⟨-, origin, hstart, hway⟩ := locate_eq_ok_iff.1 h
  rw [(PathText.spells_text hproper).walks_iff] at hway
  rw [FilePath.placeFrom, ← start_eq hproper hstart]
  exact hway.eq_normal hunlinked fun name hname => (hproper name hname).1

/-! ## Ways that meet nothing new -/

/-- Everything on the way over names is there already, unless it lies at a place or below. -/
def Meets (tree : FileTree) (place : Location) : Location → List Text → Prop
  | _, [] => True
  | here, name :: rest =>
      if name = ("." : Text) then Meets tree place here rest
      else if name = (".." : Text) then Meets tree place here.dropLast rest
      else ((tree.get? (here ++ [name])).isSome ∨ place <+: here ++ [name]) ∧
        Meets tree place (here ++ [name]) rest

theorem meets_append {front back : List Text} (hfront : ∀ name ∈ front, name ≠ []) :
    tree.Meets place here (front ++ back) ↔
      tree.Meets place here front ∧ tree.Meets place (normal here front) back := by
  induction front generalizing here with
  | nil => simp [Meets, normal]
  | cons name front ih =>
      have hrest := fun other hother => hfront other (List.mem_cons_of_mem name hother)
      have hne := hfront name List.mem_cons_self
      rw [List.cons_append, Meets, Meets]
      by_cases hdot : name = ("." : Text)
      · rw [if_pos hdot, if_pos hdot, ih hrest, hdot, normal_dot]
      · rw [if_neg hdot, if_neg hdot]
        by_cases hup : name = (".." : Text)
        · rw [if_pos hup, if_pos hup, ih hrest]
          simp [normal, hup, Text.ofString]
        · rw [if_neg hup, if_neg hup, ih hrest, and_assoc]
          simp [normal, hdot, hup, hne]

theorem meets_below (h : place <+: here) (hrest : Location.IsProper rest) :
    tree.Meets place here rest := by
  induction rest generalizing here with
  | nil => trivial
  | cons name rest ih =>
      obtain ⟨-, hdot, hup, -⟩ := hrest name List.mem_cons_self
      have hnext : place <+: here ++ [name] := h.trans (List.prefix_append _ _)
      rw [Meets, if_neg hdot, if_neg hup]
      exact ⟨.inr hnext, ih hnext fun other hother => hrest other (List.mem_cons_of_mem _ hother)⟩

theorem Meets.mono (h : tree.Meets place here names) (hextended : tree.IsExtendedBy later) :
    later.Meets place here names := by
  induction names generalizing here with
  | nil => trivial
  | cons name names ih =>
      rw [Meets] at h ⊢
      split
      · rename_i hdot
        rw [if_pos hdot] at h
        exact ih h
      · rename_i hdot
        rw [if_neg hdot] at h
        split
        · rename_i hup
          rw [if_pos hup] at h
          exact ih h
        · rename_i hup
          rw [if_neg hup] at h
          exact ⟨h.1.imp_left hextended.isSome, ih h.2⟩

theorem Walks.meets {links : Nat} (h : Walks tree followLast links here names other)
    (hunlinked : tree.IsUnlinked) (hend : tree.get? other = none → place <+: other) :
    tree.Meets place here names := by
  induction h with
  | done => trivial
  | dot _ ih =>
      rw [Meets, if_pos rfl]
      exact ih hend
  | up _ ih =>
      rw [Meets, if_neg (by decide), if_pos rfl]
      exact ih hend
  | free hfits hget =>
      rw [Meets, if_neg hfits.1, if_neg hfits.2.1]
      exact ⟨.inr (hend hget), trivial⟩
  | enter hfits hget _ ih =>
      rw [Meets, if_neg hfits.1, if_neg hfits.2.1]
      exact ⟨.inl (by simp [hget]), ih hend⟩
  | file hfits hget =>
      rw [Meets, if_neg hfits.1, if_neg hfits.2.1]
      exact ⟨.inl (by simp [hget]), trivial⟩
  | link _ hget _ | jump _ hget _ _ => exact absurd hget (hunlinked _ _)

/-! ## Trees that are the same at a place -/

/-- A tree without links that keeps another one, with nothing new at a place or below. -/
structure KeepsPart (place : Location) (tree later : FileTree) : Prop where
  kept : tree.IsKeptBy later
  unlinked : later.IsUnlinked
  same : ∀ rest, later.get? (place ++ rest) = tree.get? (place ++ rest)

namespace KeepsPart

variable (h : KeepsPart place tree later)
include h

theorem get?_eq (hmet : (tree.get? other).isSome ∨ place <+: other) :
    later.get? other = tree.get? other := by
  rcases hmet with hsome | ⟨rest, rfl⟩
  · obtain ⟨item, hitem⟩ := Option.isSome_iff_exists.1 hsome
    rw [hitem, h.kept _ _ hitem]
  · exact h.same rest

theorem walkNames_eq {jump jump' : Location → List Text → Except Cause Location}
    (hmeets : tree.Meets place here names) :
    later.walkNames followLast jump here names = tree.walkNames followLast jump' here names := by
  induction names generalizing here with
  | nil => rfl
  | cons name names ih =>
      rw [Meets] at hmeets
      rw [walkNames, walkNames]
      split
      · rename_i hdot
        rw [if_pos hdot] at hmeets
        exact ih hmeets
      · rename_i hdot
        rw [if_neg hdot] at hmeets
        split
        · rename_i hup
          rw [if_pos hup] at hmeets
          exact ih hmeets
        · rename_i hup
          rw [if_neg hup] at hmeets
          split
          · rfl
          · dsimp only
            rw [h.get?_eq hmeets.1]
            cases hget : tree.get? (here ++ [name]) with
            | none => rfl
            | some item =>
                cases item with
                | directory => exact ih hmeets.2
                | file content => rfl
                | link target => exact absurd hget (h.unlinked.of_kept h.kept _ _)

theorem walk_eq {links : Nat} (hmeets : tree.Meets place here names) :
    later.walk followLast links here names = tree.walk followLast links here names := by
  cases links <;> exact h.walkNames_eq hmeets

/-- The names of a directory are the same as well. -/
theorem names_eq (hwell : tree.WellFormed) (hwell' : later.WellFormed) (hplace : place <+: above) :
    later.names above = tree.names above := by
  have hmem : ∀ name, name ∈ later.names above ↔ name ∈ tree.names above := by
    intro name
    rw [hwell'.mem_names, hwell.mem_names, h.get?_eq (.inr (hplace.trans (List.prefix_append _ _)))]
  have hperm : (later.names above).Perm (tree.names above) :=
    (List.perm_ext_iff_of_nodup hwell'.names_nodup hwell.names_nodup).2 hmem
  refine hperm.eq_of_pairwise (fun first second _ _ hfirst hsecond => ?_) hwell'.names_pairwise
    hwell.names_pairwise
  rw [Text.precedes_iff] at hfirst hsecond
  exact absurd hfirst hsecond.not_gt

end KeepsPart

end FileTree

/-! ## Paths to a place -/

namespace FilePath

open FileTree PathText

variable {tree later : FileTree} {followLast : Bool} {here place other : Location}
  {path : FilePath} {rest : Location} {text name : Text} {item : FileItem}

/-- A path whose way meets nothing but what is there, and the place that it spells. -/
structure Reaches (tree : FileTree) (here : Location) (path : FilePath) (place : Location) :
    Prop where
  proper : path.IsProper
  way : ∃ origin, tree.start here path.text = some origin ∧
    tree.Meets place origin path.parts ∧ normal origin path.parts = place

/-- A text for what lies behind more names than those of a path. -/
structure GoesOn (path : FilePath) (rest : Location) (text : Text) : Prop where
  proper : rest.IsProper
  spells : Spells text (path.parts ++ rest)
  isAbsolute : PathText.isAbsolute text = path.isAbsolute

theorem goesOn_below (hproper : path.IsProper) (hrest : rest.IsProper) :
    path.GoesOn rest (path.below rest).text :=
  ⟨hrest, spells_text (hproper.below hrest), (hproper.below hrest).isAbsolute_text⟩

theorem goesOn_text (hproper : path.IsProper) : path.GoesOn [] path.text := by
  have h := goesOn_below hproper Location.isProper_nil
  rwa [below_nil] at h

theorem GoesOn.inside (h : path.GoesOn rest text) (hname : IsName name) :
    path.GoesOn (rest ++ [name]) (Action.inside text name) := by
  refine ⟨h.proper.concat hname, ?_, by rw [h.spells.isAbsolute_inside, h.isAbsolute]⟩
  rw [← List.append_assoc]
  exact h.spells.inside hname

namespace Reaches

theorem of_look (hproper : path.IsProper) (hunlinked : tree.IsUnlinked)
    (h : tree.look here path.text followLast = .ok item) :
    path.Reaches tree here (path.placeFrom here) := by
  obtain ⟨other, hlocate, hget⟩ := look_eq_ok_iff.1 h
  obtain ⟨-, origin, hstart, hway⟩ := locate_eq_ok_iff.1 hlocate
  rw [(spells_text hproper).walks_iff] at hway
  refine ⟨hproper, origin, hstart, hway.meets hunlinked fun hnone => ?_, ?_⟩
  · rw [hget] at hnone
    cases hnone
  · rw [placeFrom, start_eq hproper hstart]

/-- The last name of a path need not be there. -/
theorem of_look_parent (hproper : path.IsProper) (hunlinked : tree.IsUnlinked)
    (h : tree.look here path.parent.text followLast = .ok item) :
    path.Reaches tree here (path.placeFrom here) := by
  obtain ⟨anchor, parts⟩ := path
  rcases List.eq_nil_or_concat' parts with rfl | ⟨front, name, rfl⟩
  · exact of_look hproper hunlinked h
  have hparent : (FilePath.mk anchor (front ++ [name])).parent = ⟨anchor, front⟩ := by
    simp [parent]
  rw [hparent] at h
  have hfront : (FilePath.mk anchor front).IsProper := hparent ▸ hproper.parent
  obtain ⟨other, hlocate, hget⟩ := look_eq_ok_iff.1 h
  obtain ⟨-, origin, hstart, hway⟩ := locate_eq_ok_iff.1 hlocate
  rw [(spells_text hfront).walks_iff] at hway
  have hstart' : tree.start here (FilePath.mk anchor (front ++ [name])).text = some origin := by
    rw [start, hproper.isAbsolute_text]
    rwa [start, hfront.isAbsolute_text] at hstart
  have hplace : normal origin (front ++ [name]) =
      (FilePath.mk anchor (front ++ [name])).placeFrom here := by
    rw [placeFrom, start_eq hproper hstart']
  have hnames : ∀ part ∈ front, part ≠ [] := fun part hpart => (hfront part hpart).1
  refine ⟨hproper, origin, hstart', (meets_append hnames).2
    ⟨hway.meets hunlinked fun hnone => ?_, ?_⟩, hplace⟩
  · rw [hget] at hnone
    cases hnone
  · obtain ⟨hne, hdot, -⟩ := hproper name (by simp)
    rw [Meets, if_neg hdot]
    split
    · trivial
    · rename_i hup
      have hlast : (FilePath.mk anchor (front ++ [name])).placeFrom here =
          normal origin front ++ [name] := by
        rw [← hplace, normal_append, normal, List.foldl_cons, List.foldl_nil,
          if_neg (not_or.2 ⟨hdot, by simpa using hne⟩), if_neg hup]
      exact ⟨.inr (hlast ▸ List.prefix_rfl), trivial⟩

theorem mono (h : path.Reaches tree here place) (hextended : tree.IsExtendedBy later) :
    path.Reaches later here place := by
  obtain ⟨hproper, origin, hstart, hmeets, hplace⟩ := h
  exact ⟨hproper, origin, start_extend hextended hstart, hmeets.mono hextended, hplace⟩

/-! ### What lies behind more names -/

section Names

variable (h : path.Reaches tree here place) (hrest : path.GoesOn rest text)
include h hrest

theorem start_text : ∃ origin, tree.start here text = some origin ∧
    tree.Meets place origin (steps text) ∧ normal origin (path.parts ++ rest) = place ++ rest := by
  obtain ⟨hproper, origin, hstart, hmeets, hplace⟩ := h
  have hall : tree.Meets place origin (path.parts ++ rest) :=
    (meets_append fun name hname => (hproper name hname).1).2
      ⟨hmeets, meets_below (hplace ▸ List.prefix_rfl) hrest.proper⟩
  refine ⟨origin, ?_, ?_, ?_⟩
  · rwa [start, hrest.isAbsolute, ← hproper.isAbsolute_text]
  · rcases hrest.spells with ⟨-, -, hsteps | hsteps⟩ | ⟨-, hsteps, -⟩ <;> rw [hsteps]
    · exact hall
    · rwa [Meets, if_pos rfl]
    · rw [Meets, if_pos rfl]
      trivial
  · rw [normal_append, hplace, normal_of_isProper _ hrest.proper]

theorem place_of_locate (hunlinked : tree.IsUnlinked)
    (hlocate : tree.locate here text followLast = .ok other) : other = place ++ rest := by
  obtain ⟨origin, hstart, -, hplace⟩ := h.start_text hrest
  obtain ⟨-, origin', hstart', hway⟩ := locate_eq_ok_iff.1 hlocate
  rw [hstart] at hstart'
  cases hstart'
  rw [hrest.spells.walks_iff] at hway
  rw [← hplace]
  refine hway.eq_normal hunlinked fun name hname => ?_
  rcases List.mem_append.1 hname with hname | hname
  · exact (h.proper name hname).1
  · exact (hrest.proper name hname).1

theorem locate_eq (hkeeps : KeepsPart place tree later) :
    later.locate here text followLast = tree.locate here text followLast := by
  obtain ⟨origin, hstart, hmeets, -⟩ := h.start_text hrest
  unfold locate
  rw [hstart, start_extend hkeeps.kept.isExtendedBy hstart]
  simp only [hkeeps.walk_eq hmeets]

theorem look_eq (hkeeps : KeepsPart place tree later) :
    later.look here text followLast = tree.look here text followLast := by
  unfold look
  rw [h.locate_eq hrest hkeeps]
  cases hlocate : tree.locate here text followLast with
  | error failure => rfl
  | ok other =>
      obtain rfl := h.place_of_locate hrest (hkeeps.unlinked.of_kept hkeeps.kept) hlocate
      simp only [bind, Except.bind, hkeeps.same]

end Names

end Reaches

end FilePath

end Stencil
