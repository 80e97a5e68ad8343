import Mathlib.Data.List.Forall2
import Stencil.Schema.Checked

/-!
# Checks that succeed

What a value that passes a check tells of its parts: a compound check succeeds
if its parts do, and what is read from a record was read from its fields.
-/

namespace Stencil

namespace Checked

variable {α β : Type} {value : Checked α} {a : α} {b : β}

theorem ok_inj {other : α} : ok a = ok other ↔ a = other := ⟨Except.ok.inj, congrArg ok⟩

theorem seq_eq_ok {f : Checked (α → β)} :
    (f <*> value) = ok b ↔ ∃ g a, f = ok g ∧ value = ok a ∧ g a = b := by
  constructor
  · intro h
    cases f with
    | error found => cases value <;> cases h
    | ok g =>
        cases value with
        | error found => cases h
        | ok a => exact ⟨g, a, rfl, rfl, ok_inj.1 h⟩
  · rintro ⟨g, a, rfl, rfl, rfl⟩
    rfl

theorem map_eq_ok {f : α → β} : (f <$> value) = ok b ↔ ∃ a, value = ok a ∧ f a = b := by
  constructor
  · intro h
    cases value with
    | error found => cases h
    | ok a => exact ⟨a, rfl, ok_inj.1 h⟩
  · rintro ⟨a, rfl, rfl⟩
    rfl

theorem mapped_eq_ok {f : α → β} : value.map f = ok b ↔ ∃ a, value = ok a ∧ f a = b := by
  cases value with
  | error found => exact iff_of_false (fun h => by cases h) fun ⟨_, h, _⟩ => by cases h
  | ok a => exact ⟨fun h => ⟨a, rfl, ok_inj.1 h⟩, fun ⟨_, h, hf⟩ => by cases h; exact congrArg ok hf⟩

theorem under_eq_ok {step : Text} : value.under step = ok a ↔ value = ok a := by
  cases value with
  | error found => exact iff_of_false (fun h => by cases h) fun h => by cases h
  | ok other => rfl

theorem filter_eq_ok {test : α → Option Mismatch} {input : Value} :
    value.filter test input = ok a ↔ value = ok a ∧ test a = none := by
  cases value with
  | error found => exact iff_of_false (fun h => by cases h) fun h => by cases h.1
  | ok other =>
      rw [filter]
      split
      · rename_i hnone
        constructor
        · intro h
          cases h
          exact ⟨rfl, hnone⟩
        · exact fun h => h.1
      · rename_i fault hfault
        refine iff_of_false (fun h => by cases h) fun h => ?_
        obtain ⟨hother, hnone⟩ := h
        cases hother
        rw [hnone] at hfault
        cases hfault

/-- A list of checks succeeds if each of them does. -/
theorem all_eq_ok {checks : List (Checked α)} {found : List α} :
    Checked.all checks = ok found ↔
      List.Forall₂ (fun check a => check = ok a) checks found := by
  induction checks generalizing found with
  | nil =>
      rw [List.forall₂_nil_left_iff, Checked.all, ok_inj]
      exact eq_comm
  | cons check checks ih =>
      have hseq : Checked.all (check :: checks) = ok found ↔
          ∃ g rest, check.map List.cons = ok g ∧ Checked.all checks = ok rest ∧ g rest = found :=
        seq_eq_ok
      rw [hseq, List.forall₂_cons_left_iff]
      constructor
      · rintro ⟨g, rest, hcheck, hrest, rfl⟩
        obtain ⟨a, ha, rfl⟩ := mapped_eq_ok.1 hcheck
        exact ⟨a, rest, ha, ih.1 hrest, rfl⟩
      · rintro ⟨a, rest, ha, hrest, rfl⟩
        exact ⟨List.cons a, rest, mapped_eq_ok.2 ⟨a, ha, rfl⟩, ih.2 hrest, rfl⟩

end Checked

namespace Schema

open Checked

variable {α : Type} {a : α} {least : Nat} {given found : Text}

theorem textOfLength_text (h : textOfLength least (.text given) = ok found) : found = given := by
  obtain ⟨htext, -⟩ := filter_eq_ok.1 h
  exact (ok_inj.1 htext).symm

/-- What was read from a field passed the check of that field. -/
theorem Fields.required_eq_ok {fields : Fields} {key : Text} {names : List Text}
    {value : Value} {check : Value → Checked α} (hfind : fields.find? names = some (key, value)) :
    fields.required names check = ok a ↔ check value = ok a := by
  rw [required, hfind]
  exact under_eq_ok

theorem Fields.required_text {fields : Fields} {key : Text} {names : List Text}
    (hfind : fields.find? names = some (key, .text given))
    (h : fields.required names (textOfLength least) = ok found) : found = given :=
  textOfLength_text ((required_eq_ok hfind).1 h)

end Schema

end Stencil
