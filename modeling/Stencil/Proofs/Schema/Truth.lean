import Stencil.Schema.Numeral

/-!
# Values that are read as truth values

A truth value can be given as a number or in words.  Numbers count as true just
if they are read as true; a word counts as true whatever it says.
-/

namespace Stencil

namespace Binary64

variable {x : Binary64}

theorem isZero_iff_mantissa : x.isZero ↔ x.mantissa = 0 := by
  have hparts := Nat.div_add_mod x.magnitude (Nat.pow 2 52)
  rw [isZero, mantissa, exponentField, fraction, decide_eq_true_eq]
  by_cases hfield : x.magnitude / Nat.pow 2 52 = 0
  · rw [if_pos hfield]
    rw [hfield] at hparts
    constructor
    · intro hzero
      rw [hzero]
    · intro hzero
      rw [← hparts, hzero]
  · rw [if_neg hfield]
    refine iff_of_false (fun hzero => hfield (by rw [hzero])) fun hzero => ?_
    exact absurd (Nat.eq_zero_of_add_eq_zero_left hzero) (by decide)

theorem natAbs_truncate : x.truncate.natAbs = x.ratio.1 / x.ratio.2 := by
  rw [truncate]
  cases x.isNegative with
  | false => rfl
  | true => exact Int.natAbs_neg _

theorem ratio_fst_eq_zero_iff : x.ratio.1 = 0 ↔ x.mantissa = 0 := by
  rw [ratio]
  split
  · exact Nat.mul_eq_zero.trans (or_iff_left (Nat.ne_of_gt (Nat.two_pow_pos _)))
  · rfl

/-- A whole number is zero just if its integer part is. -/
theorem truncate_eq_zero_iff (h : x.isIntegral) : x.truncate = 0 ↔ x.isZero := by
  have hdvd : x.ratio.2 ∣ x.ratio.1 := by
    rw [isIntegral, Bool.and_eq_true, decide_eq_true_eq] at h
    exact Nat.dvd_of_mod_eq_zero h.2
  rw [← Int.natAbs_eq_zero, natAbs_truncate, isZero_iff_mantissa, ← ratio_fst_eq_zero_iff]
  constructor
  · intro hquotient
    rw [← Nat.div_mul_cancel hdvd, hquotient, Nat.zero_mul]
  · intro hzero
    rw [hzero, Nat.zero_div]

end Binary64

namespace Numeral

variable {value : Value} {text : Text} {n : Int} {read : Bool}

theorem truthOf?_nil : truthOf? [] = none := by decide

theorem ne_zero_of_truthOfInt (h : truthOfInt n = .ok read) : decide (n ≠ 0) = read := by
  rw [truthOfInt] at h
  split at h
  · cases h
    simpa using ‹n = 0›
  split at h
  · cases h
    simp [‹n = 1›]
  · split at h <;> cases h

/-- Texts and sequences of bytes. -/
def IsWord (value : Value) : Prop :=
  (∃ text, value = .text text) ∨ ∃ bytes, value = .scalar (.bytes bytes)

/-- Only the empty text and no bytes count as false. -/
theorem isTrue_of_spelling? (h : spelling? value = some (.ok text)) (htext : text ≠ []) :
    value.isTrue ∧ IsWord value := by
  match value with
  | .text given =>
      rw [spelling?] at h
      split at h
      · cases h
      · cases h
        exact ⟨by simpa [Value.isTrue, Scalar.isTrue] using htext, .inl ⟨_, rfl⟩⟩
  | .scalar (.bytes bytes) =>
      refine ⟨?_, .inr ⟨bytes, rfl⟩⟩
      cases bytes with
      | nil =>
          cases h
          exact absurd rfl htext
      | cons byte bytes => rfl

theorem not_isWord_of_spelling? (h : spelling? value = none) : ¬ IsWord value := by
  rintro (⟨text, rfl⟩ | ⟨bytes, rfl⟩) <;> cases h

/-- What is read as a truth value counts as that value, unless it is a word. -/
theorem isTrue_of_truth (h : truth value = .ok read) :
    value.isTrue ↔ read = true ∨ IsWord value := by
  unfold truth at h
  cases hspelling : spelling? value with
  | some spelling =>
      rw [hspelling] at h
      cases spelling with
      | error fault => cases h
      | ok text =>
          -- the empty word is not read at all
          have htext : text ≠ [] := by
            rintro rfl
            simp only [Except.map, truthOf?_nil] at h
            cases h
          obtain ⟨htrue, hword⟩ := isTrue_of_spelling? hspelling htext
          exact iff_of_true htrue (.inr hword)
  | none =>
      rw [hspelling] at h
      rw [or_iff_left (not_isWord_of_spelling? hspelling)]
      match value with
      | .bool b =>
          cases h
          rfl
      | .int n =>
          rw [← ne_zero_of_truthOfInt h]
          rfl
      | .float x =>
          simp only at h
          split at h
          · rename_i hwhole
            rw [Bool.and_eq_true] at hwhole
            rw [← ne_zero_of_truthOfInt h, decide_eq_true_eq, ne_eq,
              Binary64.truncate_eq_zero_iff hwhole.2]
            simp [Value.isTrue, Scalar.isTrue]
          · cases h

end Numeral

end Stencil
