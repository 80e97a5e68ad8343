import Mathlib.Algebra.Order.Floor.Semifield
import Mathlib.Data.Int.Log
import Mathlib.Data.Rat.Floor
import Mathlib.Algebra.Order.Field.Power
import Mathlib.Tactic.FieldSimp
import Mathlib.Tactic.LinearCombination
import Stencil.Number.Binary64

/-!
# Rounding to floating-point numbers

The nearest floating-point number to a ratio of integers depends on the ratio
only, and the exact value of a finite number is rounded to the number itself.
-/

namespace Stencil.Binary64

variable {num den : ℕ} {negative : Bool} {power : ℤ} {x : Binary64}

/-! ## Rounding to integers -/

/-- The nearest integer, a half to the even neighbour. -/
def roundEven (q : ℚ) : ℕ :=
  if 2 * (q - ⌊q⌋₊) < 1 then ⌊q⌋₊
  else if 1 < 2 * (q - ⌊q⌋₊) then ⌊q⌋₊ + 1
  else ⌊q⌋₊ + ⌊q⌋₊ % 2

@[simp] theorem roundEven_natCast (n : ℕ) : roundEven n = n := by
  simp [roundEven]

theorem divRoundEven_eq (hden : den ≠ 0) : divRoundEven num den = roundEven (num / den) := by
  have hpos : (0 : ℚ) < den := by exact_mod_cast Nat.pos_of_ne_zero hden
  have hfloor : ⌊(num / den : ℚ)⌋₊ = num / den := Nat.floor_div_eq_div num den
  have hrest : (num / den : ℚ) - (num / den : ℕ) = (num % den : ℕ) / den := by
    have hsplit : (num : ℚ) = den * (num / den : ℕ) + (num % den : ℕ) := by
      exact_mod_cast (Nat.div_add_mod num den).symm
    rw [eq_div_iff hpos.ne', sub_mul, div_mul_cancel₀ _ hpos.ne']
    linear_combination hsplit
  have hbelow : 2 * ((num % den : ℕ) / den : ℚ) < 1 ↔ 2 * (num % den) < den := by
    rw [← mul_div_assoc, div_lt_one hpos]
    exact_mod_cast Iff.rfl
  have habove : 1 < 2 * ((num % den : ℕ) / den : ℚ) ↔ den < 2 * (num % den) := by
    rw [← mul_div_assoc, one_lt_div hpos]
    exact_mod_cast Iff.rfl
  simp only [divRoundEven, roundEven, hfloor, hrest, hbelow, habove]

/-! ## Scales -/

theorem two_pow_ne_zero (n : ℕ) : Nat.pow 2 n ≠ 0 := (Nat.two_pow_pos n).ne'

theorem zpow_toNat (h : 0 ≤ power) : ((Nat.pow 2 power.toNat : ℕ) : ℚ) = 2 ^ power := by
  rw [Nat.pow_eq, Nat.cast_pow, ← zpow_natCast, Int.toNat_of_nonneg h]
  rfl

theorem scaledDown_eq (hden : den ≠ 0) (shift : ℤ) :
    scaledDown num den shift = roundEven (num / den * 2 ^ (-shift)) := by
  unfold scaledDown
  split
  · rename_i hshift
    rw [divRoundEven_eq (Nat.mul_ne_zero hden (two_pow_ne_zero _)), Nat.cast_mul,
      zpow_toNat hshift, zpow_neg, ← div_eq_mul_inv, div_div]
  · rename_i hshift
    rw [divRoundEven_eq hden, Nat.cast_mul, zpow_toNat (by omega)]
    congr 1
    ring

theorem reaches_iff (hden : den ≠ 0) :
    reaches num den power = true ↔ (2 : ℚ) ^ power ≤ num / den := by
  have hpos : (0 : ℚ) < den := by exact_mod_cast Nat.pos_of_ne_zero hden
  unfold reaches
  split
  · rename_i hpower
    rw [decide_eq_true_iff, le_div_iff₀ hpos, ← zpow_toNat hpower, mul_comm]
    exact_mod_cast Iff.rfl
  · rename_i hpower
    rw [decide_eq_true_iff, le_div_iff₀ hpos, ← neg_neg power, zpow_neg, neg_neg,
      inv_mul_le_iff₀ (by positivity), ← zpow_toNat (by omega), mul_comm]
    exact_mod_cast Iff.rfl

theorem log_eq_iff {base : ℕ} {q : ℚ} (hbase : 1 < base) (hq : 0 < q) :
    Int.log base q = power ↔ (base : ℚ) ^ power ≤ q ∧ q < (base : ℚ) ^ (power + 1) := by
  rw [Int.zpow_le_iff_le_log hbase hq, Int.lt_zpow_iff_log_lt hbase hq]
  omega

theorem two_zpow_log2_le {n : ℕ} (hn : n ≠ 0) : (2 : ℚ) ^ (Nat.log2 n : ℤ) ≤ n := by
  rw [zpow_natCast]
  exact_mod_cast Nat.log2_self_le hn

theorem lt_two_zpow_log2 (n : ℕ) : (n : ℚ) < 2 ^ (Nat.log2 n + 1 : ℤ) := by
  rw [← Nat.cast_succ, zpow_natCast]
  exact_mod_cast Nat.lt_log2_self

/-- The lengths of its parts tell the size of a ratio up to a factor of four. -/
theorem ratio_bounds (hnum : num ≠ 0) (hden : den ≠ 0) :
    (2 : ℚ) ^ (Nat.log2 num - Nat.log2 den - 1 : ℤ) ≤ num / den ∧
      (num / den : ℚ) < 2 ^ (Nat.log2 num - Nat.log2 den + 1 : ℤ) := by
  have hden' : (0 : ℚ) < den := by exact_mod_cast Nat.pos_of_ne_zero hden
  generalize hguess : (Nat.log2 num - Nat.log2 den : ℤ) = guess
  constructor
  · rw [le_div_iff₀ hden']
    calc (2 : ℚ) ^ (guess - 1) * den ≤ 2 ^ (guess - 1) * 2 ^ (Nat.log2 den + 1 : ℤ) := by
          gcongr
          exact (lt_two_zpow_log2 den).le
      _ = 2 ^ (Nat.log2 num : ℤ) := by
          rw [← zpow_add₀ two_ne_zero]
          congr 1
          omega
      _ ≤ num := two_zpow_log2_le hnum
  · rw [div_lt_iff₀ hden']
    calc (num : ℚ) < 2 ^ (Nat.log2 num + 1 : ℤ) := lt_two_zpow_log2 num
      _ = 2 ^ (guess + 1) * 2 ^ (Nat.log2 den : ℤ) := by
          rw [← zpow_add₀ two_ne_zero]
          congr 1
          omega
      _ ≤ 2 ^ (guess + 1) * den := by
          gcongr
          exact two_zpow_log2_le hden

/-- The power of two below a ratio is found by the lengths of its parts and one comparison. -/
theorem log_ratio (hnum : num ≠ 0) (hden : den ≠ 0) :
    (if reaches num den (Nat.log2 num - Nat.log2 den) then (Nat.log2 num - Nat.log2 den : ℤ)
      else Nat.log2 num - Nat.log2 den - 1) = Int.log 2 (num / den : ℚ) := by
  have hnum' : (0 : ℚ) < num := by exact_mod_cast Nat.pos_of_ne_zero hnum
  have hden' : (0 : ℚ) < den := by exact_mod_cast Nat.pos_of_ne_zero hden
  have hpos : (0 : ℚ) < num / den := div_pos hnum' hden'
  obtain ⟨hbelow, habove⟩ := ratio_bounds hnum hden
  symm
  split
  · rename_i hreaches
    exact (log_eq_iff one_lt_two hpos).2 ⟨(reaches_iff hden).1 hreaches, habove⟩
  · rename_i hreaches
    refine (log_eq_iff one_lt_two hpos).2 ⟨hbelow, ?_⟩
    rw [sub_add_cancel]
    exact not_le.1 ((reaches_iff hden).not.1 hreaches)

/-! ## Rounding to floating-point numbers -/

/-- The number with a rounded mantissa. -/
def ofScaled (negative : Bool) (scale : ℤ) (mantissa : ℕ) : Binary64 :=
  let field : ℕ := if mantissa < Nat.pow 2 52 then 0 else (scale + 1075).toNat
  let magnitude := if field = 0 then mantissa else field * Nat.pow 2 52 + (mantissa - Nat.pow 2 52)
  if 2047 * Nat.pow 2 52 ≤ magnitude then infinity negative else ofMagnitude negative magnitude

/-- The exponent of the last place that numbers of a size have. -/
def scaleOf (q : ℚ) : ℤ := max (Int.log 2 q - 52) (-1074)

/-- The nearest number to a ratio, a half to the even neighbour. -/
def ofRational (negative : Bool) (q : ℚ) : Binary64 :=
  if q = 0 then ofMagnitude negative 0
  else ofScaled negative (scaleOf q) (roundEven (q * 2 ^ (-scaleOf q)))

theorem ofRatio_eq (hden : den ≠ 0) (negative : Bool) :
    ofRatio negative num den = ofRational negative (num / den) := by
  have hden' : (den : ℚ) ≠ 0 := by exact_mod_cast hden
  by_cases hnum : num = 0
  · subst hnum
    simp [ofRatio, ofRational]
  · have hnum' : (num : ℚ) ≠ 0 := by exact_mod_cast hnum
    rw [ofRational, if_neg (div_ne_zero hnum' hden'), scaleOf, ← log_ratio hnum hden,
      ← scaledDown_eq hden, ofRatio, if_neg (by simp [hnum, hden])]
    rfl

/-! ## Exact values -/

/-- The absolute value of a finite number. -/
def value (x : Binary64) : ℚ := x.mantissa * 2 ^ x.exponent

theorem ofMagnitude_magnitude (x : Binary64) : ofMagnitude x.isNegative x.magnitude = x := by
  obtain ⟨bits⟩ := x
  have hlt := bits.toNat_lt
  have hbits : (if isNegative ⟨bits⟩ then Nat.pow 2 63 else 0) + magnitude ⟨bits⟩ = bits.toNat := by
    rw [isNegative, magnitude]
    by_cases hsign : Nat.pow 2 63 ≤ bits.toNat
    · rw [decide_eq_true hsign, if_pos rfl]
      simp only [Nat.pow_eq] at hsign ⊢
      omega
    · rw [decide_eq_false hsign, if_neg (by decide)]
      simp only [Nat.pow_eq] at hsign ⊢
      omega
  rw [ofMagnitude, hbits, UInt64.ofNat_toNat]

theorem isNaN_ofMagnitude {magnitude : ℕ} (h : magnitude ≤ 2047 * Nat.pow 2 52) :
    (ofMagnitude negative magnitude).isNaN = false := by
  have hmagnitude : (ofMagnitude negative magnitude).magnitude = magnitude := by
    rw [Binary64.magnitude, ofMagnitude, UInt64.toNat_ofNat']
    simp only [Nat.pow_eq] at h ⊢
    split <;> omega
  rw [isNaN, hmagnitude]
  exact decide_eq_false (Nat.not_lt.2 h)

theorem isNaN_infinity (negative : Bool) : (infinity negative).isNaN = false := by
  rw [infinity]
  exact isNaN_ofMagnitude le_rfl

/-- Rounding never gives up. -/
theorem isNaN_ofRational (negative : Bool) (q : ℚ) : (ofRational negative q).isNaN = false := by
  have hcapped (magnitude : ℕ) : (if 2047 * Nat.pow 2 52 ≤ magnitude then infinity negative
      else ofMagnitude negative magnitude).isNaN = false := by
    split
    · exact isNaN_infinity negative
    · rename_i hsmall
      exact isNaN_ofMagnitude (not_le.1 hsmall).le
  unfold ofRational
  split
  · exact isNaN_ofMagnitude zero_le
  · exact hcapped _

theorem mantissa_lt (x : Binary64) : x.mantissa < 2 ^ 53 := by
  have hfraction : x.fraction < 2 ^ 52 := Nat.mod_lt _ (by decide)
  unfold mantissa
  split
  · exact hfraction.trans (by decide)
  · exact Nat.add_lt_add_right hfraction _

theorem value_lt (x : Binary64) : x.value < 2 ^ (53 + x.exponent) := by
  rw [zpow_add₀ two_ne_zero, value]
  gcongr
  exact_mod_cast mantissa_lt x

theorem value_pos (h : x.mantissa ≠ 0) : 0 < x.value :=
  mul_pos (by exact_mod_cast Nat.pos_of_ne_zero h) (zpow_pos two_pos _)

/-- The last place of a number is the one that rounding to numbers of its size keeps. -/
theorem scaleOf_value (h : x.mantissa ≠ 0) : scaleOf x.value = x.exponent := by
  have hpos := value_pos h
  unfold scaleOf
  by_cases hfield : x.exponentField = 0
  · have hexponent : x.exponent = -1074 := if_pos hfield
    have hlog : Int.log 2 x.value < -1074 + 52 := by
      rw [← Int.lt_zpow_iff_log_lt one_lt_two hpos]
      have hfraction : x.mantissa < 2 ^ 52 := by
        rw [mantissa, if_pos hfield]
        exact Nat.mod_lt _ (by decide)
      rw [add_comm, Nat.cast_ofNat, zpow_add₀ two_ne_zero, value, hexponent]
      gcongr
      exact_mod_cast hfraction
    omega
  · have hlow : (2 : ℚ) ^ (52 + x.exponent) ≤ x.value := by
      have hmantissa : 2 ^ 52 ≤ x.mantissa := by
        rw [mantissa, if_neg hfield]
        exact Nat.le_add_left _ _
      rw [zpow_add₀ two_ne_zero, value]
      gcongr
      exact_mod_cast hmantissa
    have hlog : Int.log 2 x.value = 52 + x.exponent :=
      (log_eq_iff one_lt_two hpos).2
        ⟨hlow, (value_lt x).trans_le (le_of_eq (congrArg _ (by omega)))⟩
    have hexponent : x.exponent = x.exponentField - 1075 := if_neg hfield
    omega

theorem magnitude_eq (x : Binary64) :
    x.magnitude = x.exponentField * Nat.pow 2 52 + x.fraction := by
  rw [Nat.mul_comm]
  exact (Nat.div_add_mod _ _).symm

theorem ofScaled_exponent (h : x.isFinite = true) :
    ofScaled x.isNegative x.exponent x.mantissa = x := by
  have hfinite : x.exponentField < 2047 := of_decide_eq_true h
  have hfraction : x.fraction < Nat.pow 2 52 := Nat.mod_lt _ (by decide)
  have hmagnitude := magnitude_eq x
  have hfield : (if x.mantissa < Nat.pow 2 52 then 0 else (x.exponent + 1075).toNat) =
      x.exponentField := by
    by_cases hzero : x.exponentField = 0
    · rw [mantissa, if_pos hzero, if_pos hfraction, hzero]
    · rw [mantissa, exponent, if_neg hzero, if_neg hzero, if_neg (by omega)]
      omega
  have hparts : (if x.exponentField = 0 then x.mantissa
      else x.exponentField * Nat.pow 2 52 + (x.mantissa - Nat.pow 2 52)) = x.magnitude := by
    unfold mantissa
    split <;> rename_i hzero
    · rw [hmagnitude, hzero, Nat.zero_mul, Nat.zero_add]
    · rw [hmagnitude, Nat.add_sub_cancel]
  unfold ofScaled
  simp only [hfield, hparts]
  rw [if_neg (by simp only [Nat.pow_eq] at *; omega), ofMagnitude_magnitude]

theorem isFinite_iff : x.isFinite = true ↔ x.magnitude < 2047 * Nat.pow 2 52 := by
  rw [isFinite, decide_eq_true_iff, exponentField, Nat.div_lt_iff_lt_mul (by decide)]

theorem magnitude_eq_zero_iff (x : Binary64) : x.magnitude = 0 ↔ x.mantissa = 0 := by
  rw [magnitude_eq, mantissa]
  split
  · rename_i hfield
    rw [hfield, Nat.zero_mul, Nat.zero_add]
  · rename_i hfield
    simp only [Nat.pow_eq]
    omega

theorem ofMagnitude_zero (h : x.mantissa = 0) : ofMagnitude x.isNegative 0 = x := by
  rw [← (magnitude_eq_zero_iff x).2 h, ofMagnitude_magnitude]

theorem value_eq_zero (h : x.mantissa = 0) : x.value = 0 := by
  rw [value, h, Nat.cast_zero, zero_mul]

/-- A finite number is the nearest one to its own value. -/
theorem ofRational_value (h : x.isFinite = true) : ofRational x.isNegative x.value = x := by
  by_cases hzero : x.mantissa = 0
  · rw [ofRational, if_pos (value_eq_zero hzero), ofMagnitude_zero hzero]
  · rw [ofRational, if_neg (value_pos hzero).ne', scaleOf_value hzero, value, mul_assoc,
      ← zpow_add₀ two_ne_zero, add_neg_cancel, zpow_zero, mul_one, roundEven_natCast,
      ofScaled_exponent h]

end Stencil.Binary64
