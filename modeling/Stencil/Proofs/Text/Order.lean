import Mathlib.Data.List.Lex
import Stencil.Text.Basic

/-!
# The order of texts

Texts are ordered like the lists of the numbers of their code points, so sorted
texts without repetition increase strictly.
-/

namespace Stencil

namespace CodePoint

/-- No character has the number of a surrogate. -/
theorem toNat_scalar_ne_surrogate (char : Char) (offset : Fin 2048) :
    (scalar char).toNat ≠ (surrogate offset).toNat := by
  have hvalid : char.toNat < 0xD800 ∨ 0xDFFF < char.toNat ∧ char.toNat < 0x110000 := char.valid
  have := offset.isLt
  simp only [toNat]
  omega

theorem toNat_injective : Function.Injective CodePoint.toNat := by
  intro first second h
  cases first with
  | scalar char =>
      cases second with
      | scalar other => exact congrArg _ (Char.toNat_inj.1 h)
      | surrogate offset => exact absurd h (toNat_scalar_ne_surrogate char offset)
  | surrogate offset =>
      cases second with
      | scalar char => exact absurd h.symm (toNat_scalar_ne_surrogate char offset)
      | surrogate other =>
          simp only [toNat, Nat.add_left_cancel_iff] at h
          rw [Fin.ext h]

end CodePoint

namespace Text

variable {first second third : Text} {texts : List Text}

theorem precedes_iff :
    precedes first second = true ↔ first.map CodePoint.toNat < second.map CodePoint.toNat := by
  induction first generalizing second with
  | nil => cases second <;> simp [precedes]
  | cons a first ih =>
      cases second with
      | nil => simp [precedes]
      | cons b second =>
          simp only [precedes, List.map_cons, List.cons_lt_cons_iff]
          by_cases hab : a = b
          · subst hab
            simp [ih]
          · have hne : a.toNat ≠ b.toNat := fun h => hab (CodePoint.toNat_injective h)
            simp [hab, hne]

theorem notAfter_iff :
    notAfter first second = true ↔ first.map CodePoint.toNat ≤ second.map CodePoint.toNat := by
  rw [notAfter, Bool.not_eq_true', ← Bool.not_eq_true, precedes_iff, not_lt]

theorem precedes_of_notAfter (h : notAfter first second = true) (hne : first ≠ second) :
    precedes first second = true := by
  rw [notAfter_iff] at h
  rw [precedes_iff]
  exact lt_of_le_of_ne h fun heq =>
    hne (List.map_injective_iff.2 CodePoint.toNat_injective heq)

/-- Sorting texts that are all different puts them into strict order. -/
theorem pairwise_sort (h : texts.Nodup) :
    (sort texts).Pairwise fun first second => precedes first second = true := by
  have hsorted : (sort texts).Pairwise fun first second => notAfter first second = true := by
    refine List.pairwise_mergeSort ?_ ?_ texts
    · intro a b c hab hbc
      rw [notAfter_iff] at *
      exact hab.trans hbc
    · intro a b
      rw [Bool.or_eq_true, notAfter_iff, notAfter_iff]
      exact le_total _ _
  have hnodup : (sort texts).Nodup := (List.mergeSort_perm texts notAfter).nodup_iff.2 h
  exact (hsorted.and hnodup).imp fun ⟨hle, hne⟩ => precedes_of_notAfter hle hne

theorem sort_of_pairwise (h : texts.Pairwise fun first second => notAfter first second = true) :
    sort texts = texts :=
  List.mergeSort_of_pairwise h

end Text

end Stencil
