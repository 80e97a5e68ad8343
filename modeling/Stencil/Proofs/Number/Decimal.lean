import Stencil.Number.Decimal
import Stencil.Proofs.Number.Rounding
import Stencil.Proofs.Text.Digits
import Stencil.Proofs.Text.Parts

/-!
# Decimal texts of floating-point numbers

A decimal is read as the number nearest to its value, in whatever way digits and
exponent share it.  The text of a finite number is a numeral whose value is
nearest to that number and to no other.
-/

namespace Stencil

open CodePoint (scalar)

namespace Decimal

variable {d : Decimal} {negative : Bool}

def value (d : Decimal) : ℚ := d.digits * 10 ^ d.exponent

theorem value_pos (h : d.digits ≠ 0) : 0 < d.value :=
  mul_pos (by exact_mod_cast Nat.pos_of_ne_zero h) (zpow_pos (by norm_num) _)

/-- The number of digits in front of the decimal point. -/
theorem log_value (h : d.digits ≠ 0) :
    Int.log 10 d.value + 1 = (Nat.toDigits 10 d.digits).length + d.exponent := by
  set count := (Nat.toDigits 10 d.digits).length with hcount
  have hpos : 0 < count := Nat.length_toDigits_pos
  have hupper : d.digits < 10 ^ count :=
    (Nat.length_toDigits_le_iff (by decide) hpos).1 le_rfl
  have hlower : 10 ^ (count - 1) ≤ d.digits := by
    by_contra hlt
    rw [not_le] at hlt
    by_cases hone : count = 1
    · rw [hone] at hlt
      omega
    · have := (Nat.length_toDigits_le_iff (by decide) (by omega)).2 hlt
      omega
  rw [← eq_sub_iff_add_eq, Binary64.log_eq_iff (by decide) (value_pos h), Nat.cast_ofNat]
  constructor
  · rw [show (count + d.exponent - 1 : ℤ) = (count - 1 : ℕ) + d.exponent by omega,
      zpow_add₀ (by norm_num), value, zpow_natCast]
    gcongr
    exact_mod_cast hlower
  · rw [sub_add_cancel, zpow_add₀ (by norm_num), value, zpow_natCast]
    gcongr
    exact_mod_cast hupper

/-- The nearest number to a value; values of a far size are not looked at closely. -/
def nearest (negative : Bool) (q : ℚ) : Binary64 :=
  if q = 0 ∨ Int.log 10 q + 1 < -400 then .ofMagnitude negative 0
  else if 400 < Int.log 10 q + 1 then .infinity negative
  else .ofRational negative q

theorem isNaN_nearest (negative : Bool) (q : ℚ) : (nearest negative q).isNaN = false := by
  unfold nearest
  split
  · exact Binary64.isNaN_ofMagnitude zero_le
  split
  · exact Binary64.isNaN_infinity negative
  · exact Binary64.isNaN_ofRational negative q

theorem toBinary64_eq (negative : Bool) (d : Decimal) :
    d.toBinary64 negative = nearest negative d.value := by
  by_cases hzero : d.digits = 0
  · simp [toBinary64, nearest, value, hzero]
  · have hne := (value_pos hzero).ne'
    simp only [toBinary64, nearest, hzero, hne, false_or, log_value hzero]
    split
    · rfl
    split
    · rfl
    split
    · rename_i hexponent
      rw [Binary64.ofRatio_eq one_ne_zero, value, Nat.cast_mul, Nat.pow_eq, Nat.cast_pow,
        ← zpow_natCast, Int.toNat_of_nonneg hexponent, Nat.cast_one, div_one]
      rfl
    · rename_i hexponent
      have hten : Nat.pow 10 (-d.exponent).toNat ≠ 0 := (Nat.pow_pos (by decide)).ne'
      rw [Binary64.ofRatio_eq hten, value, Nat.pow_eq, Nat.cast_pow,
        ← zpow_natCast, Int.toNat_of_nonneg (by omega), zpow_neg, div_inv_eq_mul]
      rfl

end Decimal

namespace Binary64

variable {x : Binary64}

/-! ## The digits of a number -/

theorem exponent_mem (h : x.isFinite = true) : -1074 ≤ x.exponent ∧ x.exponent ≤ 971 := by
  have hfinite : x.exponentField < 2047 := of_decide_eq_true h
  unfold exponent
  split <;> omega

theorem two_pow_le_ten_pow : (2 : ℚ) ^ (1200 : ℤ) ≤ 10 ^ (400 : ℤ) := by
  rw [show (1200 : ℤ) = 3 * 400 by norm_num, zpow_mul]
  exact zpow_le_zpow_left₀ (by norm_num) (by norm_num) (by norm_num)

/-- No finite number is of a far size. -/
theorem log_value_mem (h : x.isFinite = true) (hmantissa : x.mantissa ≠ 0) :
    -400 ≤ Int.log 10 x.value ∧ Int.log 10 x.value < 400 := by
  obtain ⟨hlow, hhigh⟩ := exponent_mem h
  have hpos := value_pos hmantissa
  have hten : (1 : ℚ) ≤ 2 := one_le_two
  constructor
  · rw [← Int.zpow_le_iff_le_log (by decide) hpos]
    calc ((10 : ℕ) : ℚ) ^ (-400 : ℤ) ≤ 2 ^ (-1200 : ℤ) := by
          rw [Nat.cast_ofNat, zpow_neg, zpow_neg]
          exact inv_anti₀ (by positivity) two_pow_le_ten_pow
      _ ≤ 2 ^ x.exponent := zpow_le_zpow_right₀ hten (by omega)
      _ ≤ x.value := le_mul_of_one_le_left (by positivity)
          (by exact_mod_cast Nat.one_le_iff_ne_zero.2 hmantissa)
  · rw [← Int.lt_zpow_iff_log_lt (by decide) hpos]
    calc x.value < 2 ^ (53 + x.exponent) := value_lt x
      _ ≤ 2 ^ (1200 : ℤ) := zpow_le_zpow_right₀ hten (by omega)
      _ ≤ ((10 : ℕ) : ℚ) ^ (400 : ℤ) := by
          rw [Nat.cast_ofNat]
          exact two_pow_le_ten_pow

theorem nearest_value (h : x.isFinite = true) : Decimal.nearest x.isNegative x.value = x := by
  by_cases hzero : x.mantissa = 0
  · rw [Decimal.nearest, if_pos (.inl (value_eq_zero hzero)), ofMagnitude_zero hzero]
  · obtain ⟨hlow, hhigh⟩ := log_value_mem h hzero
    have hne := (value_pos hzero).ne'
    rw [Decimal.nearest, if_neg (by simp only [hne, false_or]; omega), if_neg (by omega),
      ofRational_value h]

theorem exactDecimal_value (x : Binary64) : x.exactDecimal.value = x.value := by
  unfold exactDecimal Decimal.value value
  split
  · rename_i hexponent
    simp [← zpow_toNat hexponent]
  · rename_i hexponent
    have hfive : ((Nat.pow 5 (-x.exponent).toNat : ℕ) : ℚ) = 5 ^ (-x.exponent) := by
      rw [Nat.pow_eq, Nat.cast_pow, ← zpow_natCast, Int.toNat_of_nonneg (by omega)]
      rfl
    have hten : (10 : ℚ) ^ x.exponent = 2 ^ x.exponent * 5 ^ x.exponent := by
      rw [← mul_zpow]
      norm_num
    have hcancel : (5 : ℚ) ^ (-x.exponent) * 5 ^ x.exponent = 1 := by
      rw [← zpow_add₀ (by norm_num), neg_add_cancel, zpow_zero]
    dsimp only
    rw [Nat.cast_mul, hfive, hten]
    linear_combination (x.mantissa * 2 ^ x.exponent : ℚ) * hcancel

/-- The digits of a finite number are read as the number. -/
theorem toBinary64_shortest (h : x.isFinite = true) :
    x.shortest.toBinary64 x.isNegative = x := by
  unfold shortest
  split
  · rename_i hzero
    have hmantissa := (magnitude_eq_zero_iff x).1 (of_decide_eq_true hzero)
    rw [Decimal.toBinary64_eq, Decimal.nearest, if_pos (.inl (by simp [Decimal.value])),
      ofMagnitude_zero hmantissa]
  · split
    · rename_i hfound
      simpa using List.find?_some hfound
    · rw [Decimal.toBinary64_eq, exactDecimal_value, nearest_value h]

end Binary64

/-! ## Numerals -/

/-- The parts of a number in decimal notation. -/
structure Numeral where
  whole : Text
  fraction : Text
  power : Option Int

namespace Numeral

open Text (AreDigits digitsValue)

def text (n : Numeral) : Text :=
  n.whole ++ (if n.fraction = [] then [] else scalar '.' :: n.fraction) ++
    n.power.elim [] Binary64.exponentText

def value (n : Numeral) : ℚ :=
  digitsValue (n.whole ++ n.fraction) * 10 ^ (n.power.getD 0 - n.fraction.length)

/-- Some digits in front, with no zero at their head if they are several. -/
structure WellFormed (n : Numeral) : Prop where
  whole_ne_nil : n.whole ≠ []
  whole_digits : AreDigits n.whole
  whole_head : n.whole = [scalar '0'] ∨ n.whole.head? ≠ some (scalar '0')
  fraction_digits : AreDigits n.fraction

theorem ofParts_eq (n : Numeral) (negative : Bool) :
    Binary64.ofParts negative n.whole n.fraction (n.power.getD 0) =
      Decimal.nearest negative n.value :=
  Decimal.toBinary64_eq negative ⟨_, _⟩

/-- A numeral with a point or a power stands for `digits` with the point at a place in them. -/
structure Places (n : Numeral) (digits : Text) (point : Int) : Prop where
  wellFormed : n.WellFormed
  value_eq : n.value = digitsValue digits * 10 ^ (point - digits.length)
  marked : n.fraction ≠ [] ∨ n.power ≠ none

variable {digits : Text} {point : Int}

theorem places_behind (hdigits : AreDigits digits) (hne : digits ≠ []) (hpoint : point ≤ 0) :
    Places ⟨[scalar '0'], Binary64.zeros (-point) ++ digits, none⟩ digits point where
  wellFormed := ⟨List.cons_ne_nil _ _, Text.areDigits_zeros 1, .inl rfl,
    (Text.areDigits_zeros _).append hdigits⟩
  value_eq := by
    have hvalue : digitsValue ([scalar '0'] ++ (Binary64.zeros (-point) ++ digits)) =
        digitsValue digits := by
      rw [← List.append_assoc, Text.digitsValue_append,
        show [scalar '0'] ++ Binary64.zeros (-point) =
          List.replicate ((-point).toNat + 1) (scalar '0') from rfl,
        Text.digitsValue_zeros, Nat.zero_mul, Nat.zero_add]
    rw [value, hvalue]
    congr 2
    simp only [Binary64.zeros, Option.getD_none, List.length_append, List.length_replicate]
    omega
  marked := .inl (by simp [hne])

theorem places_front (hdigits : AreDigits digits) (hne : digits ≠ [])
    (hhead : digits.head? ≠ some (scalar '0')) (hpoint : digits.length ≤ point) :
    Places ⟨digits ++ Binary64.zeros (point - digits.length), [scalar '0'], none⟩ digits point where
  wellFormed := ⟨List.append_ne_nil_of_left_ne_nil hne _, hdigits.append (Text.areDigits_zeros _),
    .inr (by rwa [List.head?_append_of_ne_nil _ hne]), Text.areDigits_zeros 1⟩
  value_eq := by
    have hvalue : digitsValue (digits ++ Binary64.zeros (point - digits.length) ++ [scalar '0']) =
        digitsValue digits * 10 ^ ((point - digits.length).toNat + 1) := by
      rw [List.append_assoc, Text.digitsValue_append,
        show Binary64.zeros (point - digits.length) ++ [scalar '0'] =
          List.replicate ((point - digits.length).toNat + 1) (scalar '0') from
            List.replicate_succ'.symm,
        Text.digitsValue_zeros, Nat.add_zero, List.length_replicate]
    rw [value, hvalue, Nat.cast_mul, Nat.cast_pow, Nat.cast_ofNat, mul_assoc, ← zpow_natCast,
      ← zpow_add₀ (by norm_num)]
    congr 2
    simp only [Option.getD_none, List.length_singleton]
    omega
  marked := .inl (List.cons_ne_nil _ _)

theorem places_between (hdigits : AreDigits digits) (hhead : digits.head? ≠ some (scalar '0'))
    (hpos : 0 < point) (hpoint : point < digits.length) :
    Places ⟨digits.take point.toNat, digits.drop point.toNat, none⟩ digits point where
  wellFormed := by
    have hparts : AreDigits (digits.take point.toNat ++ digits.drop point.toNat) := by
      rwa [List.take_append_drop]
    refine ⟨?_, hparts.of_append.1, .inr ?_, hparts.of_append.2⟩
    · rw [ne_eq, List.take_eq_nil_iff]
      rintro (hzero | rfl)
      · omega
      · exact absurd hpoint (by simp; omega)
    · rwa [List.head?_take, if_neg (by omega)]
  value_eq := by
    rw [value, List.take_append_drop]
    congr 2
    simp only [Option.getD_none, List.length_drop]
    omega
  marked := .inl (by
    rw [ne_eq, List.drop_eq_nil_iff]
    omega)

theorem places_power {first : CodePoint} {rest : Text} (hdigits : AreDigits (first :: rest))
    (hhead : first ≠ scalar '0') :
    Places ⟨[first], rest, some (point - 1)⟩ (first :: rest) point where
  wellFormed :=
    have hparts : AreDigits [first] ∧ AreDigits rest := AreDigits.of_append hdigits
    ⟨List.cons_ne_nil _ _, hparts.1, .inr (by simpa using hhead), hparts.2⟩
  value_eq := by
    rw [value]
    congr 2
    simp only [Option.getD_some, List.length_cons]
    omega
  marked := .inr nofun

end Numeral

namespace Binary64

open Text (AreDigits digitsValue)

theorem significant_eq {d : Decimal} (h : d.digits ≠ 0) :
    ∃ digits point, significant d = (digits, point) ∧ digits ≠ [] ∧ AreDigits digits ∧
      digits.head? ≠ some (scalar '0') ∧
      d.value = digitsValue digits * 10 ^ (point - digits.length) := by
  obtain ⟨count, hsplit⟩ := Text.trimEnd_append (scalar '0') (Text.ofNat d.digits)
  set kept := Text.trimEnd (· = scalar '0') (Text.ofNat d.digits) with hkept
  have hhead := Text.head?_ofNat h
  have hdigits := Text.areDigits_ofNat d.digits
  have hvalue := Text.digitsValue_ofNat d.digits
  have hne : kept ≠ [] := by
    intro hnil
    rw [hnil, List.nil_append] at hsplit
    rw [hsplit, Text.digitsValue_zeros] at hvalue
    exact h hvalue.symm
  have hvalue : (d.digits : ℚ) = digitsValue kept * 10 ^ count := by
    rw [hsplit, Text.digitsValue_append, Text.digitsValue_zeros, List.length_replicate] at hvalue
    exact_mod_cast hvalue.symm
  refine ⟨kept, (Text.ofNat d.digits).length + d.exponent, ?_, hne, ?_, ?_, ?_⟩
  · rw [significant, ← hkept, if_neg (by simpa using hne)]
  · rw [hsplit] at hdigits
    exact hdigits.of_append.1
  · rwa [hsplit, List.head?_append_of_ne_nil _ hne] at hhead
  · rw [Decimal.value, hvalue, mul_assoc, ← zpow_natCast, ← zpow_add₀ (by norm_num)]
    congr 2
    rw [hsplit, List.length_append, List.length_replicate]
    omega

/-- Decimals are laid out as numerals of their value that show a point or a power. -/
theorem layout_eq (d : Decimal) :
    ∃ n : Numeral, n.text = layout d ∧ n.WellFormed ∧ n.value = d.value ∧
      (n.fraction ≠ [] ∨ n.power ≠ none) := by
  unfold layout
  by_cases hzero : d.digits = 0
  · refine ⟨⟨[scalar '0'], [scalar '0'], none⟩, ?_, ⟨List.cons_ne_nil _ _, Text.areDigits_zeros 1,
      .inl rfl, Text.areDigits_zeros 1⟩, ?_, .inl (List.cons_ne_nil _ _)⟩
    · simp only [hzero, if_true]
      rfl
    · rw [Numeral.value, show digitsValue ([scalar '0'] ++ [scalar '0']) = 0 from rfl,
        Decimal.value, hzero, Nat.cast_zero, zero_mul, zero_mul]
  · obtain ⟨digits, point, hsignificant, hne, hdigits, hhead, hvalue⟩ := significant_eq hzero
    suffices h : ∃ n : Numeral, n.text = _ ∧ n.Places digits point by
      obtain ⟨n, htext, hplaces⟩ := h
      exact ⟨n, htext, hplaces.wellFormed, hplaces.value_eq.trans hvalue.symm, hplaces.marked⟩
    simp only [hsignificant, if_neg hzero]
    split
    · split
      · rename_i hpoint
        refine ⟨_, ?_, Numeral.places_behind hdigits hne hpoint⟩
        rw [Numeral.text, if_neg (List.append_ne_nil_of_right_ne_nil _ hne), Option.elim_none,
          List.append_nil]
        rfl
      split
      · rename_i hpoint
        refine ⟨_, ?_, Numeral.places_front hdigits hne hhead hpoint⟩
        rw [Numeral.text, if_neg (List.cons_ne_nil _ _), Option.elim_none, List.append_nil]
        rfl
      · rename_i hpos hpoint
        refine ⟨_, ?_, Numeral.places_between hdigits hhead (by omega) (by omega)⟩
        rw [Numeral.text, if_neg (by rw [List.drop_eq_nil_iff]; omega), Option.elim_none,
          List.append_nil, List.append_assoc]
        rfl
    · obtain ⟨first, rest, rfl⟩ := List.exists_cons_of_ne_nil hne
      refine ⟨_, ?_, Numeral.places_power hdigits (by simpa using hhead)⟩
      cases rest <;> rfl

theorem isNaN_ofParts (negative : Bool) (whole fraction : Text) (power : Int) :
    (ofParts negative whole fraction power).isNaN = false := by
  rw [ofParts, Decimal.toBinary64_eq]
  exact Decimal.isNaN_nearest _ _

/-- The sign of a number, if it is written. -/
def signText (negative : Bool) : Text := if negative then [scalar '-'] else []

/-- The text of a finite number is a numeral that is read as the number. -/
theorem text_eq {x : Binary64} (h : x.isFinite = true) :
    ∃ n : Numeral, x.text = signText x.isNegative ++ n.text ∧ n.WellFormed ∧
      (n.fraction ≠ [] ∨ n.power ≠ none) ∧
      ofParts x.isNegative n.whole n.fraction (n.power.getD 0) = x := by
  obtain ⟨n, htext, hwell, hvalue, hmarked⟩ := layout_eq x.shortest
  refine ⟨n, ?_, hwell, hmarked, ?_⟩
  · have hlt := isFinite_iff.1 h
    have hnan : x.isNaN = false := decide_eq_false (by omega)
    have hinfinite : x.isInfinite = false := decide_eq_false (by omega)
    rw [text, hnan, hinfinite, htext, signText]
    cases x.isNegative <;> rfl
  · rw [Numeral.ofParts_eq, hvalue, ← Decimal.toBinary64_eq, toBinary64_shortest h]

end Binary64

end Stencil
