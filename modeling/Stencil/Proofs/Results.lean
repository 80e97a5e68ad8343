import Mathlib.Data.List.Forall2

/-!
# Results

A computation gives a value, or a fault that ends it.  What several of them give
one after the other is told from what each of them gives, be it exactly, or by a
condition on values and one on faults.
-/

namespace Stencil

/-! ## Values -/

namespace Except

variable {α β ε : Type} {result : Except ε α} {b : β}

theorem bind_eq_ok {next : α → Except ε β} :
    result >>= next = .ok b ↔ ∃ a, result = .ok a ∧ next a = .ok b := by
  cases result with
  | error fault => exact iff_of_false (fun h => by cases h) fun ⟨_, h, _⟩ => by cases h
  | ok a => exact ⟨fun h => ⟨a, rfl, h⟩, fun ⟨_, ha, h⟩ => by cases ha; exact h⟩

theorem bind_eq_error {next : α → Except ε β} {fault : ε} :
    result >>= next = .error fault ↔
      result = .error fault ∨ ∃ a, result = .ok a ∧ next a = .error fault := by
  cases result with
  | error other =>
      constructor
      · intro h
        cases h
        exact .inl rfl
      · rintro (h | ⟨_, h, -⟩)
        · cases h
          rfl
        · cases h
  | ok a =>
      constructor
      · exact fun h => .inr ⟨a, rfl, h⟩
      · rintro (h | ⟨_, ha, h⟩)
        · cases h
        · cases ha
          exact h

theorem map_eq_ok {f : α → β} : result.map f = .ok b ↔ ∃ a, result = .ok a ∧ f a = b := by
  cases result <;> simp [Except.map]

theorem mapM_eq_ok {f : α → Except ε β} {items : List α} {found : List β} :
    items.mapM f = .ok found ↔ List.Forall₂ (fun item b => f item = .ok b) items found := by
  induction items generalizing found with
  | nil =>
      rw [List.forall₂_nil_left_iff, List.mapM_nil]
      exact ⟨fun h => (Except.ok.inj h).symm, fun h => congrArg Except.ok h.symm⟩
  | cons item items ih =>
      rw [List.forall₂_cons_left_iff, List.mapM_cons]
      simp only [bind_eq_ok, ih]
      constructor
      · rintro ⟨b, hb, rest, hrest, hfound⟩
        exact ⟨b, rest, hb, hrest, (Except.ok.inj hfound).symm⟩
      · rintro ⟨b, rest, hb, hrest, rfl⟩
        exact ⟨b, hb, rest, hrest, rfl⟩

end Except

/-! ## Conditions on values and on faults -/

section

variable {α β ε : Type} {post later : α → Prop} {other : β → Prop} {faults wider : ε → Prop}

/-- Whether a result has a property, and a fault another one. -/
def Yields (post : α → Prop) (faults : ε → Prop) : Except ε α → Prop
  | .ok a => post a
  | .error fault => faults fault

namespace Yields

variable {result : Except ε α} {next : α → Except ε β}

theorem mono (h : Yields post faults result) (hpost : ∀ a, post a → later a) :
    Yields later faults result := by
  cases result with
  | error fault => exact h
  | ok a => exact hpost a h

theorem weaken (h : Yields post faults result) (hfaults : ∀ fault, faults fault → wider fault) :
    Yields post wider result := by
  cases result with
  | error fault => exact hfaults fault h
  | ok a => exact h

protected theorem trivial (result : Except ε α) :
    Yields (fun _ => True) (fun _ => True) result := by
  cases result <;> trivial

theorem bind (h : Yields post faults result) (hnext : ∀ a, post a → Yields other faults (next a)) :
    Yields other faults (result >>= next) := by
  cases result with
  | error fault => exact h
  | ok a => exact hnext a h

theorem map {f : α → β} (h : Yields (fun a => other (f a)) faults result) :
    Yields other faults (result.map f) := by
  cases result with
  | error fault => exact h
  | ok a => exact h

theorem mapM {f : α → Except ε β} {items : List α}
    (h : ∀ item ∈ items, Yields other faults (f item)) :
    Yields (∀ b ∈ ·, other b) faults (items.mapM f) := by
  induction items with
  | nil => exact List.forall_mem_nil _
  | cons item items ih =>
      obtain ⟨hitem, hitems⟩ := List.forall_mem_cons.1 h
      rw [List.mapM_cons]
      refine hitem.bind fun b hb => (ih hitems).bind fun rest hrest => ?_
      exact List.forall_mem_cons.2 ⟨hb, hrest⟩

theorem of_ok {a : α} (h : Yields post faults result) (heq : result = .ok a) : post a := by
  rw [heq] at h
  exact h

theorem of_error {fault : ε} (h : Yields post faults result) (heq : result = .error fault) :
    faults fault := by
  rw [heq] at h
  exact h

end Yields

end

end Stencil
