import Stencil.Proofs.FileTree.Locate

/-!
# Sources

The texts that a source and what is in it are found by, and the files that lie
behind the names of a source, links followed.
-/

namespace Stencil

open FileTree

/-! ## Texts of sources -/

namespace PathText

variable {tree : FileTree} {text name : Text} {names : List Text} {here place : Location}
  {followLast : Bool} {links : Nat}

theorem steps_append (hne : text.getLast? ≠ some FilePath.slash) (hname : IsName name) :
    steps (text ++ FilePath.slash :: name) = steps text ++ [name] := by
  obtain ⟨hnil, -, -, hslash, -⟩ := hname
  have hlast : (text ++ FilePath.slash :: name).getLast? ≠ some FilePath.slash := by
    rw [List.getLast?_append, List.getLast?_cons]
    intro heq
    obtain ⟨front, c, rfl⟩ := (List.eq_nil_or_concat' name).resolve_left hnil
    simp at heq
    exact hslash (by simp [heq])
  rw [steps, steps, Text.splitOn_append_separator, if_neg hlast, if_neg hne,
    Text.splitOn_of_not_mem hslash, List.filter_append]
  simp [hnil]

/-- A text whose way goes over names; it may start with a dot, or be the root. -/
def Spells (text : Text) (names : List Text) : Prop :=
  (text ≠ [] ∧ text.getLast? ≠ some FilePath.slash ∧
      (steps text = names ∨ steps text = ("." : Text) :: names)) ∨
    (names = [] ∧ steps text = [("." : Text)] ∧ isAbsolute text = true ∧
      text.getLast? = some FilePath.slash)

theorem Spells.walks_iff (h : Spells text names) :
    Walks tree followLast links here (steps text) place ↔
      Walks tree followLast links here names place := by
  rcases h with ⟨-, -, hsteps | hsteps⟩ | ⟨rfl, hsteps, -⟩ <;> simp [hsteps]

theorem Spells.isAbsolute_inside (h : Spells text names) (name : Text) :
    isAbsolute (Action.inside text name) = isAbsolute text := by
  have hne : text ≠ [] := by
    rcases h with ⟨hne, -⟩ | ⟨-, -, habsolute, -⟩
    · exact hne
    · rintro rfl
      cases habsolute
  obtain ⟨c, rest, rfl⟩ := List.exists_cons_of_ne_nil hne
  unfold Action.inside
  split <;> rfl

theorem Spells.inside (h : Spells text names) (hname : IsName name) :
    Spells (Action.inside text name) (names ++ [name]) := by
  have hlast : ∀ front : Text, (front ++ name).getLast? ≠ some FilePath.slash := by
    obtain ⟨hnil, -, -, hslash, -⟩ := hname
    obtain ⟨first, c, rfl⟩ := (List.eq_nil_or_concat' name).resolve_left hnil
    intro front heq
    rw [← List.append_assoc, List.getLast?_append] at heq
    exact hslash (by simp_all)
  rcases h with ⟨hne, hend, hsteps⟩ | ⟨rfl, hsteps, habsolute, hend⟩
  · have hslash : ¬ Text.endsWith "/" text = true := fun heq =>
      hend ((Text.endsWith_iff FilePath.slash text).1 heq)
    have hinside : Action.inside text name = text ++ FilePath.slash :: name := by
      rw [Action.inside, if_neg (not_or.2 ⟨by simpa using hne, hslash⟩)]
      simp [Text.ofString, FilePath.slash]
    have hsteps' := steps_append hend hname
    rw [hinside]
    refine .inl ⟨by simp, ?_, ?_⟩
    · simpa using hlast (text ++ [FilePath.slash])
    · rcases hsteps with hsteps | hsteps <;> simp [hsteps', hsteps]
  · have hslash : Text.endsWith "/" text = true := (Text.endsWith_iff FilePath.slash text).2 hend
    obtain ⟨front, rfl⟩ := List.getLast?_eq_some_iff.1 hend
    have hinside : Action.inside (front ++ [FilePath.slash]) name =
        front ++ FilePath.slash :: name := by
      rw [Action.inside, if_pos (.inr hslash)]
      simp
    rw [hinside]
    have hfront : (Text.splitOn FilePath.slash front).filter (!·.isEmpty) = [] := by
      have hroot : steps (front ++ [FilePath.slash]) = [("." : Text)] := hsteps
      rw [steps, if_pos (by simp), Text.splitOn_append_separator, List.filter_append] at hroot
      have hlength := congrArg List.length hroot
      simp only [List.length_append, List.length_singleton] at hlength
      exact List.length_eq_zero_iff.1 (by omega)
    have hlast' : (front ++ FilePath.slash :: name).getLast? ≠ some FilePath.slash := by
      simpa using hlast (front ++ [FilePath.slash])
    refine .inl ⟨by simp, hlast', .inl ?_⟩
    rw [steps, if_neg hlast', Text.splitOn_append_separator, List.filter_append, hfront,
      Text.splitOn_of_not_mem hname.2.2.2.1]
    simp [hname.1]

theorem spells_text {path : FilePath} (hproper : path.IsProper) : Spells path.text path.parts := by
  by_cases hparts : path.parts = []
  · obtain ⟨anchor, parts⟩ := path
    subst hparts
    cases anchor with
    | here => exact .inl ⟨by decide, by decide, .inr (by decide)⟩
    | root => exact .inr ⟨rfl, by decide, by decide, by decide⟩
    | doubleRoot => exact .inr ⟨rfl, by decide, by decide, by decide⟩
  · obtain ⟨c, hlast, hc⟩ := FilePath.getLast?_joinWith hproper hparts
    have hend : path.text.getLast? = some c := by
      rw [FilePath.text_eq hproper hparts, List.getLast?_append, hlast]
      rfl
    refine .inl ⟨fun hnil => by simp [hnil] at hend, ?_, .inl (hproper.steps_text hparts)⟩
    rw [hend]
    simpa using hc

end PathText

/-! ## Files of a source -/

namespace FileTree

open PathText

variable {tree later : FileTree} {here place : Location} {text name : Text}
  {names rest : List Text} {content : Content} {item : FileItem}

/-- A file lies behind names, on a way that starts like a text. -/
def HoldsFile (tree : FileTree) (here : Location) (text : Text) (names : List Text)
    (content : Content) : Prop :=
  ∃ origin place, tree.start here text = some origin ∧
    Walks tree true mostLinks origin names place ∧ tree.get? place = some (.file content)

theorem HoldsFile.kept (h : tree.HoldsFile here text names content) (hkept : tree.IsKeptBy later) :
    later.HoldsFile here text names content := by
  obtain ⟨origin, place, hstart, hway, hget⟩ := h
  exact ⟨origin, place, start_extend hkept.isExtendedBy hstart,
    hway.extend_of_get? hkept.isExtendedBy hget, hkept _ _ hget⟩

theorem HoldsFile.inside (h : tree.HoldsFile here text names content) {spelt : List Text}
    (hspells : Spells text spelt) (name : Text) :
    tree.HoldsFile here (Action.inside text name) names content := by
  obtain ⟨origin, place, hstart, hfile⟩ := h
  refine ⟨origin, place, ?_, hfile⟩
  rwa [start, hspells.isAbsolute_inside]

theorem look_of_holdsFile (hspells : Spells text names)
    (h : tree.HoldsFile here text names content) (hlook : tree.look here text true = .ok item) :
    item = .file content := by
  obtain ⟨origin, place, hstart, hway, hget⟩ := h
  obtain ⟨other, hlocate, hitem⟩ := look_eq_ok_iff.1 hlook
  obtain ⟨-, origin', hstart', hway'⟩ := locate_eq_ok_iff.1 hlocate
  rw [hstart] at hstart'
  cases hstart'
  rw [hspells.walks_iff] at hway'
  rw [hway.unique hway', hitem] at hget
  exact Option.some.inj hget

/-- A file further on lies in the directory that a text leads to, under a name of it. -/
theorem locate_of_holdsFile (hwell : tree.WellFormed) (hspells : Spells text names)
    (hname : IsName name) (h : tree.HoldsFile here text (names ++ name :: rest) content)
    (hlocate : tree.locate here text true = .ok place) :
    tree.get? place = some .directory ∧ name ∈ tree.names place := by
  obtain ⟨origin, other, hstart, hway, hget⟩ := h
  obtain ⟨-, origin', hstart', hway'⟩ := locate_eq_ok_iff.1 hlocate
  rw [hstart] at hstart'
  cases hstart'
  rw [hspells.walks_iff] at hway'
  obtain ⟨fewer, middle, -, hfirst, hmiddle, hlast⟩ :=
    hway.of_append hwell (start_isDirectory hstart) (by simp)
  obtain rfl := hfirst.unique hway'
  refine ⟨hmiddle, hwell.mem_names.2 ?_⟩
  cases hlast with
  | dot => exact absurd rfl hname.2.1
  | up => exact absurd rfl hname.2.2.1
  | free _ hnone =>
      rw [hnone] at hget
      cases hget
  | enter _ hdirectory _ => simp [hdirectory]
  | file _ hfile => simp [hfile]
  | link _ _ hfollow => cases hfollow
  | jump _ hlink _ _ => simp [hlink]

theorem holdsFile_of_look {path : FilePath} (hproper : path.IsProper)
    (hrest : Location.IsProper rest)
    (h : tree.look here (path.below rest).text true = .ok (.file content)) :
    tree.HoldsFile here path.text (path.parts ++ rest) content := by
  obtain ⟨place, hlocate, hget⟩ := look_eq_ok_iff.1 h
  obtain ⟨-, origin, hstart, hway⟩ := locate_eq_ok_iff.1 hlocate
  rw [(spells_text (hproper.below hrest)).walks_iff, FilePath.parts_below] at hway
  rw [FilePath.start_below hproper hrest] at hstart
  exact ⟨origin, place, hstart, hway, hget⟩

/-! ## Shortest forms -/

/-- Where something is at a text there is something at its shortest form. -/
theorem look_ofText {item : FileItem} (h : tree.look here text false = .ok item) :
    ∃ other, tree.look here (FilePath.ofText text).text false = .ok other := by
  have hproper := FilePath.isProper_ofText text
  obtain ⟨place, hlocate, hget⟩ := look_eq_ok_iff.1 h
  obtain ⟨husable, origin, hstart, hway⟩ := locate_eq_ok_iff.1 hlocate
  obtain ⟨other, hother, hfound⟩ := Walks.undotted
    (show Walks _ _ _ _ ([] ++ PathText.steps text) _ from hway) (by simp [hget])
  obtain ⟨found, hitem⟩ := Option.isSome_iff_exists.1 hfound
  rw [List.nil_append, ← FilePath.parts_ofText,
    ← (spells_text hproper).walks_iff] at hother
  rw [start, ← FilePath.isAbsolute_ofText, ← hproper.isAbsolute_text, ← start] at hstart
  exact ⟨found, look_eq_ok_iff.2 ⟨other, locate_eq_ok_iff.2
    ⟨FilePath.isUsable_text_ofText husable, origin, hstart, hother⟩, hitem⟩⟩

/-- What is found behind a text is found behind its shortest form. -/
theorem locate_ofText (h : tree.locate here text true = .ok place) :
    tree.locate here (FilePath.ofText text).text true = .ok place := by
  have hproper := FilePath.isProper_ofText text
  obtain ⟨husable, origin, hstart, hway⟩ := locate_eq_ok_iff.1 h
  have hother := Walks.undotted_followed
    (show Walks _ _ _ _ ([] ++ PathText.steps text) _ from hway)
  rw [List.nil_append, ← FilePath.parts_ofText, ← (spells_text hproper).walks_iff] at hother
  rw [start, ← FilePath.isAbsolute_ofText, ← hproper.isAbsolute_text, ← start] at hstart
  exact locate_eq_ok_iff.2 ⟨FilePath.isUsable_text_ofText husable, origin, hstart, hother⟩

end FileTree

end Stencil
