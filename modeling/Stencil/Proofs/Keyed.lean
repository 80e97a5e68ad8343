import Mathlib.Data.List.Induction
import Mathlib.Data.List.Nodup
import Stencil.Keyed

/-!
# Keyed lists and their keys

What is under a key after something was put there, and that no key comes twice.
Updating can be done in parts, and entries with new keys go to the end.
-/

namespace Stencil.Keyed

variable {κ α : Type} [DecidableEq κ]

theorem map_fst_put (key : κ) (value : α) (entries : List (κ × α)) :
    (put key value entries).map (·.1) =
      if key ∈ entries.map (·.1) then entries.map (·.1) else entries.map (·.1) ++ [key] := by
  induction entries with
  | nil => simp [put]
  | cons entry rest ih =>
      obtain ⟨known, old⟩ := entry
      by_cases hknown : known = key
      · simp [put, hknown]
      · have hother : key ≠ known := fun h => hknown h.symm
        simp only [put, hknown, if_false, List.map_cons, ih, List.mem_cons, hother, false_or]
        split <;> simp

theorem nodup_put {key : κ} {value : α} {entries : List (κ × α)}
    (h : (entries.map (·.1)).Nodup) : ((put key value entries).map (·.1)).Nodup := by
  rw [map_fst_put]
  split
  · exact h
  · rename_i hnew
    exact List.nodup_append.2 ⟨h, by simp, by simpa using fun a b hab heq => hnew (by
      subst heq
      exact List.mem_map.2 ⟨_, hab, rfl⟩)⟩

theorem mem_put {key : κ} {value : α} {entries : List (κ × α)}
    (hnodup : (entries.map (·.1)).Nodup) {entry : κ × α} (h : entry ∈ put key value entries) :
    entry = (key, value) ∨ entry ∈ entries ∧ entry.1 ≠ key := by
  induction entries with
  | nil => exact .inl (by simpa [put] using h)
  | cons first rest ih =>
      obtain ⟨known, old⟩ := first
      obtain ⟨hfresh, hrest⟩ := List.nodup_cons.1 hnodup
      by_cases hknown : known = key
      · subst hknown
        simp only [put, if_true, List.mem_cons] at h
        rcases h with rfl | h
        · exact .inl rfl
        · refine .inr ⟨List.mem_cons_of_mem _ h, fun heq => hfresh ?_⟩
          exact List.mem_map.2 ⟨entry, h, heq⟩
      · simp only [put, hknown, if_false, List.mem_cons] at h
        rcases h with rfl | h
        · exact .inr ⟨List.mem_cons_self, hknown⟩
        · exact (ih hrest h).imp id fun ⟨hmem, hne⟩ => ⟨List.mem_cons_of_mem _ hmem, hne⟩

/-! ## Updating -/

section Updating

variable {key other : κ} {value old : α} {entries earlier later : List (κ × α)}

@[simp] theorem update_nil : update earlier ([] : List (κ × α)) = earlier := rfl

@[simp] theorem update_cons (entry : κ × α) :
    update earlier (entry :: later) = update (put entry.1 entry.2 earlier) later := rfl

theorem update_append (more : List (κ × α)) :
    update earlier (later ++ more) = update (update earlier later) more :=
  List.foldl_append

theorem put_put_self : put key value (put key old entries) = put key value entries := by
  induction entries with
  | nil => simp [put]
  | cons entry rest ih =>
      obtain ⟨known, before⟩ := entry
      by_cases hknown : known = key
      · simp [put, hknown]
      · simp [put, hknown, ih]

theorem put_of_not_mem (h : key ∉ entries.map (·.1)) :
    put key value entries = entries ++ [(key, value)] := by
  induction entries with
  | nil => rfl
  | cons entry rest ih =>
      obtain ⟨known, before⟩ := entry
      obtain ⟨hknown, hrest⟩ := List.ne_and_not_mem_of_not_mem_cons h
      simp [put, Ne.symm hknown, ih hrest]

/-- A key that is known already can be put before or after another one. -/
theorem put_comm (h : key ∈ entries.map (·.1)) (hne : other ≠ key) :
    put key value (put other old entries) = put other old (put key value entries) := by
  induction entries with
  | nil => cases h
  | cons entry rest ih =>
      obtain ⟨known, before⟩ := entry
      by_cases hknown : known = key
      · subst hknown
        simp [put, Ne.symm hne]
      · have hrest : key ∈ rest.map (·.1) := (List.mem_cons.1 h).resolve_left (Ne.symm hknown)
        by_cases hother : known = other
        · subst hother
          simp [put, hknown]
        · simp [put, hknown, hother, ih hrest]

theorem mem_keys_put_self : key ∈ (put key value entries).map (·.1) := by
  rw [map_fst_put]
  split <;> simp_all

theorem put_update (hmem : key ∈ earlier.map (·.1)) (hnew : key ∉ later.map (·.1)) :
    put key value (update earlier later) = update (put key value earlier) later := by
  induction later generalizing earlier with
  | nil => rfl
  | cons entry rest ih =>
      obtain ⟨known, before⟩ := entry
      obtain ⟨hknown, hrest⟩ := List.ne_and_not_mem_of_not_mem_cons hnew
      have hmem' : key ∈ (put known before earlier).map (·.1) := by
        rw [map_fst_put]
        split
        · exact hmem
        · exact List.mem_append_left _ hmem
      rw [update_cons, ih hmem' hrest, update_cons]
      exact congrArg (update · rest) (put_comm hmem (Ne.symm hknown))

theorem update_put (h : (later.map (·.1)).Nodup) :
    update earlier (put key value later) = put key value (update earlier later) := by
  induction later generalizing earlier with
  | nil => rfl
  | cons entry rest ih =>
      obtain ⟨known, before⟩ := entry
      obtain ⟨hfresh, hrest⟩ := List.nodup_cons.1 h
      by_cases hknown : known = key
      · subst hknown
        simp only [put, if_true, update_cons]
        rw [put_update mem_keys_put_self hfresh, put_put_self]
      · simp only [put, hknown, if_false, update_cons]
        exact ih hrest

theorem eq_or_mem_of_mem_put {entry : κ × α} (h : entry ∈ put key value entries) :
    entry = (key, value) ∨ entry ∈ entries := by
  induction entries with
  | nil => exact .inl (List.mem_singleton.1 h)
  | cons first rest ih =>
      rw [put] at h
      split at h
      · rename_i hknown
        subst hknown
        exact (List.mem_cons.1 h).imp id (List.mem_cons_of_mem _)
      · rcases List.mem_cons.1 h with rfl | h
        · exact .inr List.mem_cons_self
        · exact (ih h).imp id (List.mem_cons_of_mem _)

theorem mem_update {entry : κ × α} (h : entry ∈ update earlier later) :
    entry ∈ earlier ∨ entry ∈ later := by
  induction later generalizing earlier with
  | nil => exact .inl h
  | cons first rest ih =>
      rcases ih h with hput | hrest
      · rcases eq_or_mem_of_mem_put hput with rfl | hmem
        · exact .inr List.mem_cons_self
        · exact .inl hmem
      · exact .inr (List.mem_cons_of_mem _ hrest)

theorem nodup_update (h : (earlier.map (·.1)).Nodup) :
    ((update earlier later).map (·.1)).Nodup := by
  induction later generalizing earlier with
  | nil => exact h
  | cons entry rest ih => exact ih (nodup_put h)

/-- Entries can be put together first. -/
theorem update_update (earlier later : List (κ × α)) :
    update earlier (update [] later) = update earlier later := by
  induction later using List.reverseRecOn with
  | nil => rfl
  | append_singleton later entry ih =>
      have hnodup : ((update ([] : List (κ × α)) later).map (·.1)).Nodup :=
        nodup_update List.nodup_nil
      rw [update_append, update_append, update_cons, update_nil, update_put hnodup, ih, update_cons,
        update_nil]

/-- Entries with keys that are all new are added at the end. -/
theorem update_eq_append (hnodup : (later.map (·.1)).Nodup)
    (hnew : ∀ entry ∈ later, entry.1 ∉ earlier.map (·.1)) :
    update earlier later = earlier ++ later := by
  induction later generalizing earlier with
  | nil => simp
  | cons entry rest ih =>
      obtain ⟨hentry, hothers⟩ := List.forall_mem_cons.1 hnew
      obtain ⟨hfresh, hrest⟩ := List.nodup_cons.1 hnodup
      rw [update_cons, put_of_not_mem hentry, ih hrest]
      · simp
      · intro other hother hmem
        rw [List.map_append, List.mem_append] at hmem
        rcases hmem with hmem | hmem
        · exact hothers other hother hmem
        · rw [List.map_singleton, List.mem_singleton] at hmem
          exact hfresh (List.mem_map.2 ⟨other, hother, hmem⟩)

end Updating

/-! ## Looking up -/

variable [BEq κ] [LawfulBEq κ]

theorem lookup_cons (known : κ) (old : α) (rest : List (κ × α)) (key : κ) :
    ((known, old) :: rest).lookup key = if key = known then some old else rest.lookup key := by
  by_cases h : key = known
  · simp [h]
  · simp [List.lookup_cons, h, beq_false_of_ne h]

theorem lookup_put (key : κ) (value : α) (entries : List (κ × α)) (other : κ) :
    (put key value entries).lookup other =
      if other = key then some value else entries.lookup other := by
  induction entries with
  | nil =>
      simp [put, lookup_cons]
  | cons entry rest ih =>
      obtain ⟨known, old⟩ := entry
      by_cases hknown : known = key
      · subst hknown
        by_cases h : other = known <;> simp [put, lookup_cons, h]
      · have hother : key ≠ known := fun h => hknown h.symm
        simp only [put, hknown, if_false, lookup_cons, ih]
        by_cases h : other = key <;> simp [h, hother]

theorem lookup_filter (keeps : κ → Bool) (key : κ) (entries : List (κ × α)) :
    (entries.filter fun entry => keeps entry.1).lookup key =
      if keeps key then entries.lookup key else none := by
  induction entries with
  | nil => simp
  | cons entry rest ih =>
      obtain ⟨known, old⟩ := entry
      by_cases hkey : key = known
      · subst hkey
        cases hkeeps : keeps key <;> simp [hkeeps, ih]
      · cases hkeeps : keeps known <;> simp [hkeeps, lookup_cons, hkey, ih]

theorem lookup_eq_some_iff {entries : List (κ × α)} (hnodup : (entries.map (·.1)).Nodup)
    {key : κ} {value : α} : entries.lookup key = some value ↔ (key, value) ∈ entries := by
  induction entries with
  | nil => simp
  | cons first rest ih =>
      obtain ⟨known, old⟩ := first
      obtain ⟨hfresh, hrest⟩ := List.nodup_cons.1 hnodup
      by_cases hknown : key = known
      · subst hknown
        simp only [lookup_cons, if_true, Option.some.injEq, List.mem_cons, Prod.mk.injEq,
          true_and]
        refine ⟨fun h => .inl h.symm, ?_⟩
        rintro (h | h)
        · exact h.symm
        · exact absurd (List.mem_map.2 ⟨_, h, rfl⟩) hfresh
      · simp [lookup_cons, hknown, ih hrest]

end Stencil.Keyed
