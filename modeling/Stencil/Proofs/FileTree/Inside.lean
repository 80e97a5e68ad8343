import Stencil.Proofs.FileTree.Region

/-!
# Paths that stay inside

A path may rise by pairs of dots.  Where no link leads away, names that do not
rise above the place that they start from lead to something below that place.
-/

namespace Stencil

open FileTree

/-! ## Names that rise -/

namespace PathText

/-- Whether names rise above a place, if they start a number of names below it. -/
def risesAbove : Nat → List Text → Bool
  | _, [] => false
  | depth, name :: names =>
      if name = ("." : Text) then risesAbove depth names
      else if name = (".." : Text) then
        match depth with
        | 0 => true
        | depth + 1 => risesAbove depth names
      else risesAbove (depth + 1) names

variable {depth : Nat} {names front back : List Text}

theorem risesAbove_append (h : risesAbove depth (front ++ back) = false) :
    risesAbove depth front = false := by
  induction front generalizing depth with
  | nil => rfl
  | cons name front ih =>
      simp only [List.cons_append, risesAbove] at h ⊢
      split
      · rename_i hdot
        rw [if_pos hdot] at h
        exact ih h
      · rename_i hdot
        rw [if_neg hdot] at h
        split
        · rename_i hup
          rw [if_pos hup] at h
          cases depth with
          | zero => exact h
          | succ depth => exact ih h
        · rename_i hup
          rw [if_neg hup] at h
          exact ih h

end PathText

namespace FileTree

variable {tree : FileTree} {followLast : Bool} {links : Nat} {here base place : Location}
  {names : List Text}

/-- Without links, names that do not rise above a place lead to something below it. -/
theorem Walks.stays (h : Walks tree followLast links here names place) {more : Location}
    (hhere : here = base ++ more) (hnames : PathText.risesAbove more.length names = false)
    (hlinks : ∀ below target, tree.get? (base ++ below) ≠ some (.link target)) :
    base <+: place := by
  induction h generalizing more with
  | done => exact hhere ▸ List.prefix_append _ _
  | dot _ ih => exact ih hhere (by simpa [PathText.risesAbove] using hnames)
  | @up links here rest place _ ih =>
      subst hhere
      rcases List.eq_nil_or_concat' more with rfl | ⟨more, name, rfl⟩
      · cases hnames
      · rw [List.length_append, List.length_singleton] at hnames
        exact ih (by rw [← List.append_assoc, List.dropLast_concat]) hnames
  | free => exact hhere ▸ (List.prefix_append _ _).trans (List.prefix_append _ _)
  | @enter links here name rest place hfits _ _ ih =>
      subst hhere
      refine ih (List.append_assoc _ _ _) ?_
      simpa [PathText.risesAbove, hfits.1, hfits.2.1] using hnames
  | file => exact hhere ▸ (List.prefix_append _ _).trans (List.prefix_append _ _)
  | link => exact hhere ▸ (List.prefix_append _ _).trans (List.prefix_append _ _)
  | @jump links here name rest target place _ hget _ _ _ =>
      subst hhere
      rw [List.append_assoc] at hget
      exact absurd hget (hlinks _ _)

end FileTree

/-! ## Paths that go on -/

namespace FilePath

variable {tree : FileTree} {followLast : Bool} {here place base : Location} {path : FilePath}
  {names : List Text} {text : Text}

theorem isProper_of_below (names : List Text) (h : (path.below names).IsProper) :
    path.IsProper :=
  fun part hpart => h part (List.mem_append_left _ hpart)

/-- A path that goes on from a path leads to a directory first. -/
theorem look_of_below (hwell : tree.WellFormed) (hproper : (path.below names).IsProper)
    (hnames : names ≠ [])
    (h : tree.locate here (path.below names).text followLast = .ok place) :
    tree.look here path.text true = .ok .directory := by
  induction names using List.reverseRecOn generalizing followLast place with
  | nil => exact absurd rfl hnames
  | append_singleton names name ih =>
      have hparent := look_parent hwell hproper (by simp) h
      have heq : (path.below (names ++ [name])).parent = path.below names := by
        simp [parent, below, ← List.append_assoc]
      rw [heq] at hparent
      by_cases hnil : names = []
      · simpa [hnil] using hparent
      · obtain ⟨other, hlocate, -⟩ := look_eq_ok_iff.1 hparent
        exact ih (isProper_of_below [name] (by simpa using hproper)) hnil hlocate

/-- A path that goes on from a path leads on from the place of that path, with no more links. -/
theorem exists_walks_of_below (hwell : tree.WellFormed) (hproper : (path.below names).IsProper)
    (hbase : tree.locate here path.text true = .ok base)
    (h : tree.locate here (path.below names).text true = .ok place) :
    ∃ links ≤ mostLinks, Walks tree true links base names place := by
  by_cases hnil : names = []
  · subst hnil
    rw [below_nil, hbase] at h
    cases h
    exact ⟨0, Nat.zero_le _, .done⟩
  have hpath := isProper_of_below _ hproper
  obtain ⟨-, origin, hstart, hway⟩ := locate_eq_ok_iff.1 h
  obtain ⟨-, origin', hstart', hway'⟩ := locate_eq_ok_iff.1 hbase
  have habsolute : PathText.isAbsolute (path.below names).text = PathText.isAbsolute path.text := by
    rw [hproper.isAbsolute_text, hpath.isAbsolute_text, isAbsolute_below]
  rw [start, habsolute, ← start, hstart'] at hstart
  cases hstart
  rw [(PathText.spells_text hproper).walks_iff, parts_below] at hway
  rw [(PathText.spells_text hpath).walks_iff] at hway'
  obtain ⟨fewer, middle, hfewer, hfirst, -, hlast⟩ :=
    hway.of_append hwell (start_isDirectory hstart') hnil
  rw [hfirst.unique hway'] at hlast
  exact ⟨fewer, hfewer, hlast⟩

theorem walks_of_below (hwell : tree.WellFormed) (hproper : (path.below names).IsProper)
    (hbase : tree.locate here path.text true = .ok base)
    (h : tree.locate here (path.below names).text true = .ok place) :
    ∃ links, Walks tree true links base names place :=
  (exists_walks_of_below hwell hproper hbase h).imp fun _ hway => hway.2

/-- A relative path leads on from the place of the absolute path that it stands for. -/
theorem walks_of_relative (hwell : tree.WellFormed) (hproper : (path.below names).IsProper)
    (hrelative : path.isAbsolute = false) (hnames : names ≠ [])
    (hbase : tree.locate here ((Location.path here).below path.parts).text true = .ok base)
    (h : tree.locate here (path.below names).text true = .ok place) :
    ∃ links, Walks tree true links base names place := by
  have hpath := isProper_of_below _ hproper
  obtain ⟨-, origin, hstart, hway⟩ := locate_eq_ok_iff.1 h
  obtain ⟨-, origin', hstart', hway'⟩ := locate_eq_ok_iff.1 hbase
  have hhere : tree.get? here = some .directory := by
    have horigin := start_isDirectory hstart
    rw [start, hproper.isAbsolute_text, isAbsolute_below, hrelative, if_neg (by simp)] at hstart
    split at hstart
    · rename_i hthere
      exact any_isDirectory_iff.1 hthere
    · cases hstart
  have habsolute : ((Location.path here).below path.parts).IsProper := by
    intro part hpart
    exact (List.mem_append.1 hpart).elim (isProper_path (hwell.isProper hhere) part) (hpath part)
  rw [start, hproper.isAbsolute_text, isAbsolute_below, hrelative, if_neg (by simp),
    if_pos (any_isDirectory_iff.2 hhere)] at hstart
  rw [start, habsolute.isAbsolute_text, if_pos (by rfl)] at hstart'
  cases hstart
  cases hstart'
  rw [(PathText.spells_text hproper).walks_iff, parts_below] at hway
  rw [(PathText.spells_text habsolute).walks_iff, parts_below] at hway'
  obtain ⟨fewer, middle, -, hfirst, hmiddle, hlast⟩ := hway.of_append hwell hhere hnames
  -- the names of the current directory lead to it
  have hdown : Walks tree true 0 [] here here := by
    refine Walks.down hwell (fun name hname => ?_) (fun target htarget => by cases htarget) hhere
    obtain ⟨-, hdot, hup, -⟩ := hwell.isProper hhere name hname
    exact hway'.fits (List.mem_append_left _ hname) hdot hup
  have heq : middle = base := by
    by_cases hnil : path.parts = []
    · rw [hnil] at hfirst
      rw [hnil, List.append_nil] at hway'
      cases hfirst
      exact hdown.unique hway'
    · exact (hdown.append hhere hnil hfirst).unique hway'
  exact ⟨fewer, heq ▸ hlast⟩

/-- Whether a path that is taken from a directory can lead out of it without a link. -/
def leadsOut (path : FilePath) : Bool := path.isAbsolute || PathText.risesAbove 0 path.parts

theorem child_of_stays (path : FilePath) (h : leadsOut (ofText text) = false) :
    path.child text = path.below (ofText text).parts ∧
      PathText.risesAbove 0 (ofText text).parts = false := by
  obtain ⟨habsolute, hrises⟩ := Bool.or_eq_false_iff.1 h
  rw [child, join, if_neg (by simp [habsolute])]
  exact ⟨rfl, hrises⟩

end FilePath

end Stencil
