import Mathlib.Data.List.Basic
import Stencil.Text.Basic
import Stencil.Text.Utf8

/-!
# Splitting and joining texts

The pieces of a text between separators, the text that joins pieces again, and
how many bytes the pieces and the text take up.
-/

namespace Stencil.Text

variable {separator c : CodePoint} {part text piece : Text} {parts pieces : List Text}

/-! ## Pieces -/

theorem splitOn_cons_self (separator : CodePoint) (text : Text) :
    splitOn separator (separator :: text) = [] :: splitOn separator text := by
  rw [splitOn, if_pos rfl]

/-- What is no separator belongs to the first piece of what follows. -/
theorem splitOn_cons (hc : c ≠ separator) (h : splitOn separator text = piece :: pieces) :
    splitOn separator (c :: text) = (c :: piece) :: pieces := by
  rw [splitOn, if_neg hc, h]

theorem splitOn_ne_nil : splitOn separator text ≠ [] := by
  induction text with
  | nil => exact List.cons_ne_nil _ _
  | cons c text ih =>
      rcases eq_or_ne c separator with rfl | hc
      · rw [splitOn_cons_self]
        exact List.cons_ne_nil _ _
      · obtain ⟨piece, pieces, hpieces⟩ := List.exists_cons_of_ne_nil ih
        rw [splitOn_cons hc hpieces]
        exact List.cons_ne_nil _ _

theorem exists_splitOn_cons (hc : c ≠ separator) (text : Text) :
    ∃ piece pieces, splitOn separator text = piece :: pieces ∧
      splitOn separator (c :: text) = (c :: piece) :: pieces := by
  obtain ⟨piece, pieces, hpieces⟩ :=
    List.exists_cons_of_ne_nil (show splitOn separator text ≠ [] from splitOn_ne_nil)
  exact ⟨piece, pieces, hpieces, splitOn_cons hc hpieces⟩

theorem splitOn_of_not_mem (h : separator ∉ part) : splitOn separator part = [part] := by
  induction part with
  | nil => rfl
  | cons c part ih =>
      obtain ⟨hc, hpart⟩ := List.ne_and_not_mem_of_not_mem_cons h
      exact splitOn_cons hc.symm (ih hpart)

theorem splitOn_append_cons (h : separator ∉ part) (text : Text) :
    splitOn separator (part ++ separator :: text) = part :: splitOn separator text := by
  induction part with
  | nil => exact splitOn_cons_self separator text
  | cons c part ih =>
      obtain ⟨hc, hpart⟩ := List.ne_and_not_mem_of_not_mem_cons h
      exact splitOn_cons hc.symm (ih hpart)

theorem splitOn_append_separator (first second : Text) :
    splitOn separator (first ++ separator :: second) =
      splitOn separator first ++ splitOn separator second := by
  induction first with
  | nil => exact splitOn_cons_self separator second
  | cons c first ih =>
      rcases eq_or_ne c separator with rfl | hc
      · rw [List.cons_append, splitOn_cons_self, splitOn_cons_self, ih, List.cons_append]
      · obtain ⟨piece, pieces, hfirst, hcons⟩ := exists_splitOn_cons hc first
        rw [hfirst] at ih
        rw [hcons]
        exact splitOn_cons hc ih

/-- What is added to a text goes on from its last piece. -/
theorem splitOn_append (separator : CodePoint) (text suffix : Text) : ∃ pieces last,
    splitOn separator text = pieces ++ [last] ∧
      splitOn separator (text ++ suffix) = pieces ++ splitOn separator (last ++ suffix) := by
  induction text with
  | nil => exact ⟨[], [], rfl, rfl⟩
  | cons c text ih =>
      obtain ⟨pieces, last, htext, hall⟩ := ih
      rcases eq_or_ne c separator with rfl | hc
      · refine ⟨[] :: pieces, last, ?_, ?_⟩
        · rw [splitOn_cons_self, htext, List.cons_append]
        · rw [List.cons_append, splitOn_cons_self, hall, List.cons_append]
      · cases pieces with
        | nil =>
            obtain ⟨piece, pieces, hlast, hcons⟩ := exists_splitOn_cons hc (last ++ suffix)
            exact ⟨[], c :: last, splitOn_cons hc htext,
              (splitOn_cons hc (hall.trans hlast)).trans hcons.symm⟩
        | cons piece pieces =>
            exact ⟨(c :: piece) :: pieces, last, splitOn_cons hc htext, splitOn_cons hc hall⟩

/-- The first piece of a text that starts with a piece goes on from it. -/
theorem exists_splitOn_append (h : separator ∉ part) (suffix : Text) :
    ∃ more rest, splitOn separator (part ++ suffix) = (part ++ more) :: rest := by
  induction part with
  | nil =>
      obtain ⟨more, rest, heq⟩ := List.exists_cons_of_ne_nil
        (show splitOn separator suffix ≠ [] from splitOn_ne_nil)
      exact ⟨more, rest, heq⟩
  | cons c part ih =>
      obtain ⟨hc, hpart⟩ := List.ne_and_not_mem_of_not_mem_cons h
      obtain ⟨more, rest, heq⟩ := ih hpart
      exact ⟨more, rest, splitOn_cons hc.symm heq⟩

theorem length_splitOn_le : (splitOn separator text).length ≤ text.length + 1 := by
  induction text with
  | nil => exact Nat.le_refl 1
  | cons c text ih =>
      rcases eq_or_ne c separator with rfl | hc
      · rw [splitOn_cons_self]
        exact Nat.succ_le_succ ih
      · obtain ⟨piece, pieces, htail, hcons⟩ := exists_splitOn_cons hc text
        rw [htail] at ih
        rw [hcons]
        exact Nat.le_succ_of_le ih

/-- A piece holds code points of the text only, and no separator. -/
theorem mem_of_mem_splitOn (hpart : part ∈ splitOn separator text) (hc : c ∈ part) :
    c ∈ text ∧ c ≠ separator := by
  induction text generalizing part with
  | nil =>
      obtain rfl := List.mem_singleton.1 hpart
      cases hc
  | cons first text ih =>
      rcases eq_or_ne first separator with rfl | hfirst
      · rw [splitOn_cons_self] at hpart
        rcases List.mem_cons.1 hpart with rfl | hpart
        · cases hc
        · exact (ih hpart hc).imp_left (List.mem_cons_of_mem _)
      · obtain ⟨piece, pieces, htail, hcons⟩ := exists_splitOn_cons hfirst text
        rw [htail] at ih
        rw [hcons] at hpart
        rcases List.mem_cons.1 hpart with rfl | hpart
        · rcases List.mem_cons.1 hc with rfl | hc
          · exact ⟨List.mem_cons_self, hfirst⟩
          · exact (ih List.mem_cons_self hc).imp_left (List.mem_cons_of_mem _)
        · exact (ih (List.mem_cons_of_mem _ hpart) hc).imp_left (List.mem_cons_of_mem _)

theorem splitOn_filter {keep : CodePoint → Bool} (h : keep separator = true) :
    splitOn separator (text.filter keep) = (splitOn separator text).map (·.filter keep) := by
  induction text with
  | nil => rfl
  | cons c text ih =>
      rcases eq_or_ne c separator with rfl | hc
      · rw [List.filter_cons_of_pos h, splitOn_cons_self, splitOn_cons_self, ih]
        rfl
      · obtain ⟨piece, pieces, htail, hcons⟩ := exists_splitOn_cons hc text
        rw [htail, List.map_cons] at ih
        rw [hcons, List.map_cons]
        by_cases hkeep : keep c = true
        · rw [List.filter_cons_of_pos hkeep, List.filter_cons_of_pos hkeep]
          exact splitOn_cons hc ih
        · rw [List.filter_cons_of_neg hkeep, List.filter_cons_of_neg hkeep]
          exact ih

theorem splitOn_map {f : CodePoint → CodePoint} (h : ∀ c, f c = separator ↔ c = separator) :
    splitOn separator (text.map f) = (splitOn separator text).map (·.map f) := by
  induction text with
  | nil => rfl
  | cons c text ih =>
      rw [List.map_cons]
      by_cases hc : c = separator
      · rw [(h c).2 hc, hc, splitOn_cons_self, splitOn_cons_self, ih]
        rfl
      · obtain ⟨piece, pieces, htail, hcons⟩ := exists_splitOn_cons hc text
        rw [htail] at ih
        rw [hcons]
        exact splitOn_cons (mt (h c).1 hc) ih

theorem exists_mem_splitOn (hc : c ∈ text) (hne : c ≠ separator) :
    ∃ piece ∈ splitOn separator text, c ∈ piece := by
  induction text with
  | nil => cases hc
  | cons first text ih =>
      rcases eq_or_ne first separator with rfl | hfirst
      · obtain ⟨found, hfound, hmem⟩ := ih ((List.mem_cons.1 hc).resolve_left hne)
        rw [splitOn_cons_self]
        exact ⟨found, List.mem_cons_of_mem _ hfound, hmem⟩
      · obtain ⟨piece, pieces, htail, hcons⟩ := exists_splitOn_cons hfirst text
        rw [htail] at ih
        rw [hcons]
        rcases List.mem_cons.1 hc with rfl | hc
        · exact ⟨_, List.mem_cons_self, List.mem_cons_self⟩
        · obtain ⟨found, hfound, hmem⟩ := ih hc
          rcases List.mem_cons.1 hfound with rfl | hfound
          · exact ⟨_, List.mem_cons_self, List.mem_cons_of_mem _ hmem⟩
          · exact ⟨found, List.mem_cons_of_mem _ hfound, hmem⟩

/-! ## Joined pieces -/

@[simp] theorem joinWith_singleton (separator part : Text) : joinWith separator [part] = part := by
  simp [joinWith, List.intercalate]

@[simp] theorem joinWith_cons_cons (separator first second : Text) (parts : List Text) :
    joinWith separator (first :: second :: parts) =
      first ++ (separator ++ joinWith separator (second :: parts)) := by
  simp [joinWith, List.intercalate]

theorem joinWith_append (separator : Text) {first second : List Text} (hfirst : first ≠ [])
    (hsecond : second ≠ []) :
    joinWith separator (first ++ second) =
      joinWith separator first ++ (separator ++ joinWith separator second) := by
  induction first with
  | nil => exact absurd rfl hfirst
  | cons part first ih =>
      cases first with
      | nil =>
          obtain ⟨other, second, rfl⟩ := List.exists_cons_of_ne_nil hsecond
          simp
      | cons other first =>
          have := ih (by simp)
          simp only [List.cons_append, joinWith_cons_cons] at this ⊢
          rw [this]
          simp

theorem splitOn_joinWith (hparts : parts ≠ []) (h : ∀ part ∈ parts, separator ∉ part) :
    splitOn separator (joinWith [separator] parts) = parts := by
  induction parts with
  | nil => exact absurd rfl hparts
  | cons part parts ih =>
      have hpart := h part List.mem_cons_self
      cases parts with
      | nil => simpa using splitOn_of_not_mem hpart
      | cons other parts =>
          rw [joinWith_cons_cons]
          simp only [List.singleton_append]
          rw [splitOn_append_cons hpart,
            ih (by simp) fun part hpart => h part (List.mem_cons_of_mem _ hpart)]

theorem eq_or_mem_of_mem_joinWith (h : c ∈ joinWith [separator] parts) :
    c = separator ∨ ∃ part ∈ parts, c ∈ part := by
  induction parts with
  | nil => simp [joinWith] at h
  | cons part parts ih =>
      cases parts with
      | nil => exact .inr ⟨part, by simp, by simpa using h⟩
      | cons other parts =>
          rw [joinWith_cons_cons, List.mem_append, List.mem_append, List.mem_singleton] at h
          rcases h with h | h | h
          · exact .inr ⟨part, by simp, h⟩
          · exact .inl h
          · exact (ih h).imp id fun ⟨found, hfound, hc⟩ =>
              ⟨found, List.mem_cons_of_mem _ hfound, hc⟩

/-! ## Lengths -/

theorem byteLength_eq (text : Text) : text.byteLength = (text.flatMap CodePoint.utf8).length := by
  have hfold (text : Text) (count : Nat) :
      text.foldl (fun count c => count + c.utf8.length) count =
        count + (text.flatMap CodePoint.utf8).length := by
    induction text generalizing count with
    | nil => rfl
    | cons c text ih =>
        rw [List.foldl_cons, ih, List.flatMap_cons, List.length_append, Nat.add_assoc]
  rw [byteLength, hfold, Nat.zero_add]

@[simp] theorem byteLength_append (first second : Text) :
    (first ++ second).byteLength = first.byteLength + second.byteLength := by
  simp only [byteLength_eq, List.flatMap_append, List.length_append]

theorem length_le_byteLength (text : Text) : text.length ≤ text.byteLength := by
  rw [byteLength_eq]
  induction text with
  | nil => simp
  | cons c text ih =>
      have hpos : 1 ≤ c.utf8.length := by
        unfold CodePoint.utf8
        dsimp only
        split_ifs <;> simp
      rw [List.length_cons, List.flatMap_cons, List.length_append]
      omega

/-- What parts take up in a text that joins them, each with a separator of one byte. -/
def joinedLength : List Text → Nat
  | [] => 0
  | part :: parts => part.byteLength + 1 + joinedLength parts

theorem joinedLength_splitOn (hseparator : separator.utf8.length = 1) (text : Text) :
    joinedLength (splitOn separator text) = text.byteLength + 1 := by
  induction text with
  | nil => rfl
  | cons c text ih =>
      have hcons : byteLength (c :: text) = c.utf8.length + byteLength text := by
        simp [byteLength_eq]
      rcases eq_or_ne c separator with rfl | hc
      · rw [splitOn_cons_self, joinedLength, ih, hcons, hseparator]
        simp only [byteLength_eq, List.flatMap_nil, List.length_nil]
        omega
      · obtain ⟨piece, pieces, htail, hpieces⟩ := exists_splitOn_cons hc text
        have hpiece : byteLength (c :: piece) = c.utf8.length + byteLength piece := by
          simp [byteLength_eq]
        rw [htail] at ih
        rw [hpieces]
        simp only [joinedLength] at ih ⊢
        omega

theorem joinedLength_filter_le (test : Text → Bool) (parts : List Text) :
    joinedLength (parts.filter test) ≤ joinedLength parts := by
  induction parts with
  | nil => simp
  | cons part parts ih =>
      rw [List.filter_cons]
      split <;> simp only [joinedLength] at ih ⊢ <;> omega

theorem byteLength_joinWith (hseparator : separator.utf8.length = 1) (hparts : parts ≠ []) :
    (joinWith [separator] parts).byteLength + 1 = joinedLength parts := by
  induction parts with
  | nil => exact absurd rfl hparts
  | cons part parts ih =>
      cases parts with
      | nil => simp [joinedLength]
      | cons other parts =>
          have hone : byteLength [separator] = 1 := by simp [byteLength_eq, hseparator]
          have := ih (by simp)
          rw [joinWith_cons_cons, byteLength_append, byteLength_append, hone]
          simp only [joinedLength] at this ⊢
          omega

/-- A text gets no longer if some of its parts are left out. -/
theorem byteLength_joinWith_filter_le (hseparator : separator.utf8.length = 1)
    (test : Text → Bool) (text : Text) :
    (joinWith [separator] ((splitOn separator text).filter test)).byteLength ≤ text.byteLength := by
  by_cases hnil : (splitOn separator text).filter test = []
  · rw [hnil]
    simp [joinWith, byteLength_eq]
  have hkept := byteLength_joinWith hseparator hnil
  have hall := joinedLength_splitOn hseparator text
  have hle : joinedLength ((splitOn separator text).filter test) ≤
      joinedLength (splitOn separator text) :=
    joinedLength_filter_le test _
  omega

end Stencil.Text
