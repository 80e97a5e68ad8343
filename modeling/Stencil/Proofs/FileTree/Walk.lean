import Stencil.Proofs.FilePath
import Stencil.Proofs.FileTree.Growth

/-!
# Ways through a tree

`Walks` describes the ways that `walk` finds, one name after the other, with the
links that may still be followed.  A way leads to the same place in every
extension of its tree, it can be cut where it goes on, and below a place without
links it does not leave that place.
-/

namespace Stencil.FileTree

/-- A name that leads on to an item of a directory. -/
def Fits (name : Text) : Prop :=
  name ≠ ("." : Text) ∧ name ≠ (".." : Text) ∧ name.byteLength ≤ longestName

/-- Where the way behind a link starts. -/
def behind (here : Location) (target : Text) : Location :=
  if PathText.isAbsolute target then [] else here

inductive Walks (tree : FileTree) (followLast : Bool) :
    Nat → Location → List Text → Location → Prop where
  | done {links here} : Walks tree followLast links here [] here
  | dot {links here rest place} :
      Walks tree followLast links here rest place →
      Walks tree followLast links here (("." : Text) :: rest) place
  | up {links here rest place} :
      Walks tree followLast links here.dropLast rest place →
      Walks tree followLast links here ((".." : Text) :: rest) place
  | free {links here name} :
      Fits name → tree.get? (here ++ [name]) = none →
      Walks tree followLast links here [name] (here ++ [name])
  | enter {links here name rest place} :
      Fits name → tree.get? (here ++ [name]) = some .directory →
      Walks tree followLast links (here ++ [name]) rest place →
      Walks tree followLast links here (name :: rest) place
  | file {links here name content} :
      Fits name → tree.get? (here ++ [name]) = some (.file content) →
      Walks tree followLast links here [name] (here ++ [name])
  | link {links here name target} :
      Fits name → tree.get? (here ++ [name]) = some (.link target) → followLast = false →
      Walks tree followLast links here [name] (here ++ [name])
  | jump {links here name rest target place} :
      Fits name → tree.get? (here ++ [name]) = some (.link target) →
      (rest = [] → followLast = true) →
      Walks tree followLast links (behind here target) (PathText.steps target ++ rest) place →
      Walks tree followLast (links + 1) here (name :: rest) place

variable {tree later : FileTree} {followLast : Bool} {links more : Nat} {here place : Location}
  {names rest : List Text} {item : FileItem}

/-! ## Finding ways -/

theorem walks_of_walkNames {jump : Location → List Text → Except Cause Location}
    (hjump : ∀ start names place, jump start names = .ok place →
      ∃ fewer, links = fewer + 1 ∧ Walks tree followLast fewer start names place)
    (h : walkNames tree followLast jump here names = .ok place) :
    Walks tree followLast links here names place := by
  induction names generalizing here with
  | nil =>
      cases h
      exact .done
  | cons name rest ih =>
      rw [walkNames] at h
      by_cases hdot : name = ("." : Text)
      · rw [if_pos hdot] at h
        subst hdot
        exact .dot (ih h)
      by_cases hup : name = (".." : Text)
      · rw [if_neg hdot, if_pos hup] at h
        subst hup
        exact .up (ih h)
      by_cases hlong : longestName < name.byteLength
      · rw [if_neg hdot, if_neg hup, if_pos hlong] at h
        cases h
      rw [if_neg hdot, if_neg hup, if_neg hlong] at h
      have hfits : Fits name := ⟨hdot, hup, Nat.le_of_not_lt hlong⟩
      dsimp only at h
      split at h
      · rename_i hget
        split at h
        · rename_i hrest
          obtain rfl := List.isEmpty_iff.1 hrest
          cases h
          exact .free hfits hget
        · cases h
      · rename_i hget
        exact .enter hfits hget (ih h)
      · rename_i hget
        split at h
        · rename_i hrest
          obtain rfl := List.isEmpty_iff.1 hrest
          cases h
          exact .file hfits hget
        · cases h
      · rename_i hget
        split at h
        · rename_i hlast
          simp only [Bool.and_eq_true, List.isEmpty_iff, Bool.not_eq_true'] at hlast
          obtain ⟨rfl, hfollow⟩ := hlast
          cases h
          exact .link hfits hget hfollow
        · rename_i hlast
          obtain ⟨fewer, rfl, hwalk⟩ := hjump _ _ _ h
          refine .jump hfits hget ?_ hwalk
          rintro rfl
          simpa using hlast

theorem walk_eq_ok_iff :
    tree.walk followLast links here names = .ok place ↔
      Walks tree followLast links here names place := by
  constructor
  · intro h
    induction links generalizing here names place with
    | zero => exact walks_of_walkNames (fun start names place h => by cases h) h
    | succ links ih =>
        exact walks_of_walkNames (fun start names place h => ⟨links, rfl, ih h⟩) h
  · intro h
    induction h with
    | @done links here => cases links <;> rfl
    | @dot links here rest place _ ih => cases links <;> simpa [walk, walkNames] using ih
    | @up links here rest place _ ih =>
        cases links <;> simpa [walk, walkNames, show ((".." : Text) = ".") = False by decide] using ih
    | @free links here name hfits hget =>
        obtain ⟨hdot, hup, hlong⟩ := hfits
        cases links <;> simp [walk, walkNames, hdot, hup, Nat.not_lt.2 hlong, hget]
    | @enter links here name rest place hfits hget _ ih =>
        obtain ⟨hdot, hup, hlong⟩ := hfits
        cases links <;>
          simpa [walk, walkNames, hdot, hup, Nat.not_lt.2 hlong, hget] using ih
    | @file links here name content hfits hget =>
        obtain ⟨hdot, hup, hlong⟩ := hfits
        cases links <;> simp [walk, walkNames, hdot, hup, Nat.not_lt.2 hlong, hget]
    | @link links here name target hfits hget hfollow =>
        obtain ⟨hdot, hup, hlong⟩ := hfits
        cases links <;> simp [walk, walkNames, hdot, hup, Nat.not_lt.2 hlong, hget, hfollow]
    | @jump links here name rest target place hfits hget hlast _ ih =>
        obtain ⟨hdot, hup, hlong⟩ := hfits
        have hfollow : (rest.isEmpty && !followLast) = false := by
          cases rest with
          | nil => simp [hlast rfl]
          | cons => rfl
        simpa [walk, walkNames, behind, hdot, hup, Nat.not_lt.2 hlong, hget, hfollow] using ih

namespace Walks

theorem mono (h : Walks tree followLast links here names place) (hle : links ≤ more) :
    Walks tree followLast more here names place := by
  induction h generalizing more with
  | done => exact .done
  | dot _ ih => exact .dot (ih hle)
  | up _ ih => exact .up (ih hle)
  | free hfits hget => exact .free hfits hget
  | enter hfits hget _ ih => exact .enter hfits hget (ih hle)
  | file hfits hget => exact .file hfits hget
  | link hfits hget hfollow => exact .link hfits hget hfollow
  | jump hfits hget hlast _ ih =>
      obtain ⟨more, rfl⟩ := Nat.exists_eq_add_of_le' hle
      exact .jump hfits hget hlast (ih (Nat.le_add_left _ _))

/-- Two ways over the same names end at one place, however many links they may follow. -/
theorem unique {other : Location} (h : Walks tree followLast links here names place)
    (h' : Walks tree followLast more here names other) : place = other := by
  have hfound := walk_eq_ok_iff.2 (h.mono (Nat.le_max_left links more))
  rw [walk_eq_ok_iff.2 (h'.mono (Nat.le_max_right links more))] at hfound
  exact (Except.ok.inj hfound).symm

@[simp] theorem dot_iff :
    Walks tree followLast links here (("." : Text) :: rest) place ↔
      Walks tree followLast links here rest place := by
  constructor
  · generalize hnames : ("." : Text) :: rest = names
    intro h
    cases h with
    | done => cases hnames
    | dot h =>
        cases hnames
        exact h
    | up h => exact absurd (List.cons.inj hnames).1 (by decide)
    | free hfits _ => exact absurd (List.cons.inj hnames).1.symm hfits.1
    | enter hfits _ _ => exact absurd (List.cons.inj hnames).1.symm hfits.1
    | file hfits _ => exact absurd (List.cons.inj hnames).1.symm hfits.1
    | link hfits _ _ => exact absurd (List.cons.inj hnames).1.symm hfits.1
    | jump hfits _ _ _ => exact absurd (List.cons.inj hnames).1.symm hfits.1
  · exact .dot

/-- A way leads to the same place in an extension, unless a link was put at its end. -/
theorem extend (h : Walks tree followLast links here names place)
    (hextended : tree.IsExtendedBy later)
    (hend : tree.get? place = none → ∀ target, later.get? place ≠ some (.link target)) :
    Walks later followLast links here names place := by
  induction h with
  | done => exact .done
  | dot _ ih => exact .dot (ih hend)
  | up _ ih => exact .up (ih hend)
  | @free links here name hfits hget =>
      cases hlater : later.get? (here ++ [name]) with
      | none => exact .free hfits hlater
      | some item =>
          cases item with
          | directory => exact .enter hfits hlater .done
          | file content => exact .file hfits hlater
          | link target => exact absurd hlater (hend hget target)
  | enter hfits hget _ ih => exact .enter hfits (hextended.directory hget) (ih hend)
  | file hfits hget =>
      obtain ⟨content, hlater⟩ := hextended.file hget
      exact .file hfits hlater
  | link hfits hget hfollow => exact .link hfits (hextended.link hget) hfollow
  | jump hfits hget hlast _ ih => exact .jump hfits (hextended.link hget) hlast (ih hend)

theorem extend_of_get? (h : Walks tree followLast links here names place)
    (hextended : tree.IsExtendedBy later) (hget : tree.get? place = some item) :
    Walks later followLast links here names place :=
  h.extend hextended fun hnone => by simp [hget] at hnone

/-- Where the last link is not followed there is something if there is something behind it. -/
theorem unfollowed (h : Walks tree true links here names place) :
    ∃ other, Walks tree false links here names other ∧
      ((tree.get? place).isSome → (tree.get? other).isSome) := by
  induction h with
  | @done links here => exact ⟨here, .done, id⟩
  | dot _ ih =>
      obtain ⟨other, hother, hsome⟩ := ih
      exact ⟨other, .dot hother, hsome⟩
  | up _ ih =>
      obtain ⟨other, hother, hsome⟩ := ih
      exact ⟨other, .up hother, hsome⟩
  | free hfits hget => exact ⟨_, .free hfits hget, id⟩
  | enter hfits hget _ ih =>
      obtain ⟨other, hother, hsome⟩ := ih
      exact ⟨other, .enter hfits hget hother, hsome⟩
  | file hfits hget => exact ⟨_, .file hfits hget, id⟩
  | link _ _ hfollow => cases hfollow
  | @jump links here name rest target place hfits hget _ _ ih =>
      by_cases hrest : rest = []
      · subst hrest
        exact ⟨_, .link hfits hget rfl, fun _ => by simp [hget]⟩
      · obtain ⟨other, hother, hsome⟩ := ih
        exact ⟨other, .jump hfits hget (fun h => absurd h hrest) hother, hsome⟩

/-- Where there is no link it does not matter whether the last link is followed. -/
theorem followed (h : Walks tree false links here names place)
    (hget : ∀ target, tree.get? place ≠ some (.link target)) :
    Walks tree true links here names place := by
  induction h with
  | done => exact .done
  | dot _ ih => exact .dot (ih hget)
  | up _ ih => exact .up (ih hget)
  | free hfits hnone => exact .free hfits hnone
  | enter hfits hdirectory _ ih => exact .enter hfits hdirectory (ih hget)
  | file hfits hfile => exact .file hfits hfile
  | link _ hlink _ => exact absurd hlink (hget _)
  | jump hfits hlink _ _ ih => exact .jump hfits hlink (fun _ => rfl) (ih hget)

/-! ## Where ways end -/

theorem behind_directory (hhere : tree.get? here = some .directory) (target : Text) :
    tree.get? (behind here target) = some .directory := by
  unfold behind
  split
  · rfl
  · exact hhere

/-- At the end of a way there is something, or room for something. -/
theorem isSome_or_hasRoom (h : Walks tree followLast links here names place)
    (hwell : tree.WellFormed) (hhere : tree.get? here = some .directory)
    (hnames : ∀ name ∈ names, PathText.IsStep name ∧ PathText.fault? name = none) :
    (tree.get? place).isSome ∨ tree.HasRoom place := by
  induction h with
  | done => exact .inl (by simp [hhere])
  | dot _ ih => exact ih hhere fun name hname => hnames name (List.mem_cons_of_mem _ hname)
  | up _ ih =>
      exact ih (hwell.get?_dropLast hhere) fun name hname =>
        hnames name (List.mem_cons_of_mem _ hname)
  | @free links here name hfits hget =>
      obtain ⟨⟨hne, hslash⟩, hfault⟩ := hnames name List.mem_cons_self
      exact .inr ⟨here, name, rfl, hhere, hne, hfits.1, hfits.2.1, hslash, by simp [hfault]⟩
  | enter _ hget _ ih =>
      exact ih hget fun name hname => hnames name (List.mem_cons_of_mem _ hname)
  | file _ hget => exact .inl (by simp [hget])
  | link _ hget _ => exact .inl (by simp [hget])
  | @jump links here name rest target place _ hget _ _ ih =>
      refine ih (behind_directory hhere target) fun name hname => ?_
      rcases List.mem_append.1 hname with hname | hname
      · exact ⟨PathText.isStep_of_mem_steps hname,
          PathText.fault?_of_mem_steps (hwell.isPath hget) hname⟩
      · exact hnames name (List.mem_cons_of_mem _ hname)

/-! ## Ways that go on -/

theorem append {middle : Location} (h : Walks tree true links here names middle)
    (hmiddle : tree.get? middle = some .directory) (hrest : rest ≠ [])
    (h' : Walks tree followLast more middle rest place) :
    Walks tree followLast (links + more) here (names ++ rest) place := by
  generalize hfollow : true = follow at h
  induction h with
  | done => exact h'.mono (Nat.le_add_left _ _)
  | dot _ ih => exact .dot (ih hmiddle h')
  | up _ ih => exact .up (ih hmiddle h')
  | free _ hget => simp [hget] at hmiddle
  | enter hfits hget _ ih => exact .enter hfits hget (ih hmiddle h')
  | file _ hget => simp [hget] at hmiddle
  | link _ _ hnot =>
      rw [hnot] at hfollow
      cases hfollow
  | jump hfits hget _ _ ih =>
      have hway := ih hmiddle h'
      rw [List.append_assoc] at hway
      rw [Nat.add_right_comm]
      exact .jump hfits hget (fun hnil => absurd (List.append_eq_nil_iff.1 hnil).2 hrest) hway

/-- A way with more names to come leads to a directory first. -/
theorem of_append (h : Walks tree followLast links here (names ++ rest) place)
    (hwell : tree.WellFormed) (hhere : tree.get? here = some .directory) (hrest : rest ≠ []) :
    ∃ fewer middle, fewer ≤ links ∧ Walks tree true links here names middle ∧
      tree.get? middle = some .directory ∧ Walks tree followLast fewer middle rest place := by
  generalize hall : names ++ rest = all at h
  induction h generalizing names with
  | @done links here => exact absurd (List.append_eq_nil_iff.1 hall).2 hrest
  | @dot links here others place hway ih =>
      rcases List.append_eq_cons_iff.1 hall with ⟨rfl, rfl⟩ | ⟨names, rfl, rfl⟩
      · exact ⟨links, here, le_rfl, .done, hhere, .dot hway⟩
      · obtain ⟨fewer, middle, hle, hfirst, hmiddle, hlast⟩ := ih hhere rfl
        exact ⟨fewer, middle, hle, .dot hfirst, hmiddle, hlast⟩
  | @up links here others place hway ih =>
      rcases List.append_eq_cons_iff.1 hall with ⟨rfl, rfl⟩ | ⟨names, rfl, rfl⟩
      · exact ⟨links, here, le_rfl, .done, hhere, .up hway⟩
      · obtain ⟨fewer, middle, hle, hfirst, hmiddle, hlast⟩ := ih (hwell.get?_dropLast hhere) rfl
        exact ⟨fewer, middle, hle, .up hfirst, hmiddle, hlast⟩
  | @free links here name hfits hget =>
      rcases List.append_eq_cons_iff.1 hall with ⟨rfl, rfl⟩ | ⟨names, rfl, hnil⟩
      · exact ⟨links, here, le_rfl, .done, hhere, .free hfits hget⟩
      · exact absurd (List.append_eq_nil_iff.1 hnil.symm).2 hrest
  | @enter links here name others place hfits hget hway ih =>
      rcases List.append_eq_cons_iff.1 hall with ⟨rfl, rfl⟩ | ⟨names, rfl, rfl⟩
      · exact ⟨links, here, le_rfl, .done, hhere, .enter hfits hget hway⟩
      · obtain ⟨fewer, middle, hle, hfirst, hmiddle, hlast⟩ := ih hget rfl
        exact ⟨fewer, middle, hle, .enter hfits hget hfirst, hmiddle, hlast⟩
  | @file links here name content hfits hget =>
      rcases List.append_eq_cons_iff.1 hall with ⟨rfl, rfl⟩ | ⟨names, rfl, hnil⟩
      · exact ⟨links, here, le_rfl, .done, hhere, .file hfits hget⟩
      · exact absurd (List.append_eq_nil_iff.1 hnil.symm).2 hrest
  | @link links here name target hfits hget hfollow =>
      rcases List.append_eq_cons_iff.1 hall with ⟨rfl, rfl⟩ | ⟨names, rfl, hnil⟩
      · exact ⟨links, here, le_rfl, .done, hhere, .link hfits hget hfollow⟩
      · exact absurd (List.append_eq_nil_iff.1 hnil.symm).2 hrest
  | @jump links here name others target place hfits hget hlast hway ih =>
      rcases List.append_eq_cons_iff.1 hall with ⟨rfl, rfl⟩ | ⟨names, rfl, rfl⟩
      · exact ⟨links + 1, here, le_rfl, .done, hhere, .jump hfits hget hlast hway⟩
      · obtain ⟨fewer, middle, hle, hfirst, hmiddle, hend⟩ :=
          ih (behind_directory hhere target) (List.append_assoc _ _ _)
        exact ⟨fewer, middle, Nat.le_succ_of_le hle, .jump hfits hget (fun _ => rfl) hfirst,
          hmiddle, hend⟩

/-! ## Dots that are left out -/

section Dots

variable {front back : List Text}

private theorem exists_eq_append_filter {name : Text} {rest : List Text}
    (h : front ++ back = name :: rest) (hname : name ≠ ("." : Text)) :
    ∃ front' back', front' ++ back' = rest ∧
      front ++ back.filter (· ≠ ("." : Text)) =
        name :: (front' ++ back'.filter (· ≠ ("." : Text))) := by
  rcases List.append_eq_cons_iff.1 h with ⟨rfl, rfl⟩ | ⟨front, rfl, rfl⟩
  · exact ⟨[], rest, rfl, by simp [hname]⟩
  · exact ⟨front, back, rfl, rfl⟩

/-- A way to something stays one if single dots of its end are left out, unless a link is its last
name then. -/
theorem undotted (h : Walks tree false links here (front ++ back) place)
    (hsome : (tree.get? place).isSome) :
    ∃ other, Walks tree false links here (front ++ back.filter (· ≠ ("." : Text))) other ∧
      (tree.get? other).isSome := by
  generalize hnames : front ++ back = names at h
  induction h generalizing front back with
  | @done links here =>
      obtain ⟨rfl, rfl⟩ := List.append_eq_nil_iff.1 hnames
      exact ⟨here, .done, hsome⟩
  | @dot links here rest place _ ih =>
      rcases List.append_eq_cons_iff.1 hnames with ⟨rfl, rfl⟩ | ⟨front, rfl, rfl⟩
      · exact @ih [] rest hsome rfl
      · obtain ⟨other, hother, hfound⟩ := ih hsome rfl
        exact ⟨other, .dot hother, hfound⟩
  | up _ ih =>
      obtain ⟨front, back, rfl, heq⟩ := exists_eq_append_filter hnames (by decide)
      obtain ⟨other, hother, hfound⟩ := ih hsome rfl
      exact ⟨other, by rw [heq]; exact .up hother, hfound⟩
  | free _ hget =>
      rw [hget] at hsome
      cases hsome
  | enter hfits hget _ ih =>
      obtain ⟨front, back, rfl, heq⟩ := exists_eq_append_filter hnames hfits.1
      obtain ⟨other, hother, hfound⟩ := ih hsome rfl
      exact ⟨other, by rw [heq]; exact .enter hfits hget hother, hfound⟩
  | file hfits hget =>
      obtain ⟨front, back, hnil, heq⟩ := exists_eq_append_filter hnames hfits.1
      obtain ⟨rfl, rfl⟩ := List.append_eq_nil_iff.1 hnil
      exact ⟨_, by rw [heq]; exact .file hfits hget, hsome⟩
  | link hfits hget hfollow =>
      obtain ⟨front, back, hnil, heq⟩ := exists_eq_append_filter hnames hfits.1
      obtain ⟨rfl, rfl⟩ := List.append_eq_nil_iff.1 hnil
      exact ⟨_, by rw [heq]; exact .link hfits hget hfollow, hsome⟩
  | @jump links here name rest target place hfits hget _ _ ih =>
      obtain ⟨front, back, rfl, heq⟩ := exists_eq_append_filter hnames hfits.1
      rw [heq]
      by_cases hnil : front ++ back.filter (· ≠ ("." : Text)) = []
      · rw [hnil]
        exact ⟨_, .link hfits hget rfl, by simp [hget]⟩
      · obtain ⟨other, hother, hfound⟩ :=
          @ih (PathText.steps target ++ front) back hsome (List.append_assoc _ _ _)
        rw [List.append_assoc] at hother
        exact ⟨other, .jump hfits hget (fun h => absurd h hnil) hother, hfound⟩

/-- Where the last link is followed, single dots at the end mean nothing but that a directory is
asked for. -/
theorem undotted_followed (h : Walks tree true links here (front ++ back) place) :
    Walks tree true links here (front ++ back.filter (· ≠ ("." : Text))) place := by
  generalize hnames : front ++ back = names at h
  induction h generalizing front back with
  | done =>
      obtain ⟨rfl, rfl⟩ := List.append_eq_nil_iff.1 hnames
      exact .done
  | @dot links here rest place _ ih =>
      rcases List.append_eq_cons_iff.1 hnames with ⟨rfl, rfl⟩ | ⟨front, rfl, rfl⟩
      · exact @ih [] rest rfl
      · exact .dot (ih rfl)
  | up _ ih =>
      obtain ⟨front, back, rfl, heq⟩ := exists_eq_append_filter hnames (by decide)
      rw [heq]
      exact .up (ih rfl)
  | free hfits hget =>
      obtain ⟨front, back, hnil, heq⟩ := exists_eq_append_filter hnames hfits.1
      obtain ⟨rfl, rfl⟩ := List.append_eq_nil_iff.1 hnil
      rw [heq]
      exact .free hfits hget
  | enter hfits hget _ ih =>
      obtain ⟨front, back, rfl, heq⟩ := exists_eq_append_filter hnames hfits.1
      rw [heq]
      exact .enter hfits hget (ih rfl)
  | file hfits hget =>
      obtain ⟨front, back, hnil, heq⟩ := exists_eq_append_filter hnames hfits.1
      obtain ⟨rfl, rfl⟩ := List.append_eq_nil_iff.1 hnil
      rw [heq]
      exact .file hfits hget
  | link _ _ hfollow => cases hfollow
  | @jump links here name rest target place hfits hget _ _ ih =>
      obtain ⟨front, back, rfl, heq⟩ := exists_eq_append_filter hnames hfits.1
      have hway := @ih (PathText.steps target ++ front) back (List.append_assoc _ _ _)
      rw [List.append_assoc] at hway
      rw [heq]
      exact .jump hfits hget (fun _ => rfl) hway

end Dots

/-! ## Ways below a place without links -/

/-- The names on a way are dots, or they fit. -/
theorem fits {name : Text} (h : Walks tree followLast links here names place)
    (hname : name ∈ names) (hdot : name ≠ ("." : Text)) (hup : name ≠ (".." : Text)) :
    Fits name := by
  induction h with
  | done => cases hname
  | dot _ ih => exact ih ((List.mem_cons.1 hname).resolve_left hdot)
  | up _ ih => exact ih ((List.mem_cons.1 hname).resolve_left hup)
  | free hfits _ =>
      obtain rfl := List.mem_singleton.1 hname
      exact hfits
  | enter hfits _ _ ih =>
      rcases List.mem_cons.1 hname with rfl | hname
      · exact hfits
      · exact ih hname
  | file hfits _ =>
      obtain rfl := List.mem_singleton.1 hname
      exact hfits
  | link hfits _ _ =>
      obtain rfl := List.mem_singleton.1 hname
      exact hfits
  | jump hfits _ _ _ ih =>
      rcases List.mem_cons.1 hname with rfl | hname
      · exact hfits
      · exact ih (List.mem_append_right _ hname)

/-- Names lead down as they are where there are no links. -/
theorem eq_append (h : Walks tree followLast links here names place)
    (hnames : ∀ name ∈ names, name ≠ ("." : Text) ∧ name ≠ (".." : Text))
    (hlinks : ∀ below target, tree.get? (here ++ below) ≠ some (.link target)) :
    place = here ++ names := by
  induction h with
  | done => simp
  | dot => exact absurd rfl (hnames _ List.mem_cons_self).1
  | up => exact absurd rfl (hnames _ List.mem_cons_self).2
  | free => rfl
  | @enter links here name rest place _ _ _ ih =>
      have := ih (fun other hother => hnames other (List.mem_cons_of_mem _ hother))
        fun below target => by simpa using hlinks (name :: below) target
      simpa using this
  | file => rfl
  | link => rfl
  | jump _ hget => exact absurd hget (hlinks _ _)

/-- What lies below a directory, and is no link, is found under its names. -/
theorem down (hwell : tree.WellFormed) (hnames : ∀ name ∈ names, Fits name)
    (hitem : ∀ target, item ≠ .link target) (hget : tree.get? (here ++ names) = some item) :
    Walks tree followLast links here names (here ++ names) := by
  induction names generalizing here with
  | nil => simpa using Walks.done
  | cons name rest ih =>
      have hfits := hnames name List.mem_cons_self
      have hassoc : here ++ name :: rest = here ++ [name] ++ rest := by simp
      by_cases hrest : rest = []
      · subst hrest
        cases item with
        | directory => exact .enter hfits hget .done
        | file content => exact .file hfits hget
        | link target => exact absurd rfl (hitem target)
      · rw [hassoc] at hget ⊢
        exact .enter hfits (hwell.get?_above hrest hget)
          (ih (fun other hother => hnames other (List.mem_cons_of_mem _ hother)) hget)

end Walks

end Stencil.FileTree
