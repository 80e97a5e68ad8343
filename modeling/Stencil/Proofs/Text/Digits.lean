import Mathlib.Data.List.Induction
import Mathlib.Tactic.Ring
import Stencil.Text.Basic

/-!
# Digits

The decimal digits of a number are digits, with no zero in front but for zero
itself, and they are read as the number.
-/

namespace Stencil

namespace CodePoint

/-- The value of a digit, and zero for anything else. -/
def digit (c : CodePoint) : Nat := c.digitValue?.getD 0

theorem isDigit_scalar (char : Char) : isDigit (.scalar char) = char.isDigit := by
  simp only [isDigit, isBetween, toNat, Char.isDigit, Char.toNat, UInt32.le_iff_toNat_le, ge_iff_le]
  rfl

theorem isDigit_iff {c : CodePoint} : c.isDigit = true ↔ 48 ≤ c.toNat ∧ c.toNat ≤ 57 := by
  rw [isDigit, isBetween, Bool.and_eq_true, decide_eq_true_eq, decide_eq_true_eq]
  rfl

theorem ne_scalar_of_isDigit {c : CodePoint} {char : Char} (hc : c.isDigit = true)
    (hchar : char.isDigit = false) : c ≠ scalar char := by
  rintro rfl
  rw [isDigit_scalar, hchar] at hc
  cases hc

theorem digit_eq {c : CodePoint} (h : c.isDigit = true) : c.digit = c.toNat - '0'.toNat := by
  rw [digit, digitValue?, if_pos h]
  rfl

theorem digit_lt {c : CodePoint} (h : c.isDigit = true) : c.digit < 10 := by
  rw [digit_eq h]
  rw [isDigit_iff] at h
  simp only [Char.reduceToNat]
  omega

theorem digitValueIn?_ten {c : CodePoint} (h : c.isDigit = true) :
    c.digitValueIn? 10 = some c.digit := by
  have hlt := digit_lt h
  rw [digit_eq h] at hlt ⊢
  rw [digitValueIn?, letterDigitValue?, if_pos h]
  simp only [hlt, if_true]

end CodePoint

namespace Text

variable {text front back : Text} {n : Nat}

def AreDigits (text : Text) : Prop := ∀ c ∈ text, c.isDigit = true

/-- The number that digits stand for. -/
def digitsValue (text : Text) : Nat := text.foldl (fun n c => n * 10 + c.digit) 0

theorem foldl_digits (text : Text) (n : Nat) :
    text.foldl (fun n c => n * 10 + c.digit) n = n * 10 ^ text.length + digitsValue text := by
  induction text generalizing n with
  | nil => simp [digitsValue]
  | cons c text ih =>
      rw [digitsValue, List.foldl_cons, List.foldl_cons, ih, ih (0 * 10 + c.digit),
        List.length_cons]
      ring

theorem digitsValue_append (front back : Text) :
    digitsValue (front ++ back) = digitsValue front * 10 ^ back.length + digitsValue back := by
  rw [digitsValue, List.foldl_append, foldl_digits back]
  rfl

theorem digitsValue_zeros (count : Nat) :
    digitsValue (List.replicate count (.scalar '0')) = 0 := by
  induction count with
  | zero => rfl
  | succ count ih =>
      rw [List.replicate_succ', digitsValue_append, ih]
      rfl

theorem AreDigits.append (hfront : AreDigits front) (hback : AreDigits back) :
    AreDigits (front ++ back) :=
  List.forall_mem_append.2 ⟨hfront, hback⟩

theorem AreDigits.of_append (h : AreDigits (front ++ back)) : AreDigits front ∧ AreDigits back :=
  List.forall_mem_append.1 h

theorem areDigits_zeros (count : Nat) : AreDigits (List.replicate count (.scalar '0')) := by
  intro c hc
  rw [List.eq_of_mem_replicate hc]
  decide

/-! ## The digits of a number -/

theorem areDigits_ofNat (n : Nat) : AreDigits (ofNat n) := by
  intro c hc
  obtain ⟨char, hchar, rfl⟩ := List.mem_map.1 hc
  rw [CodePoint.isDigit_scalar]
  exact Nat.isDigit_of_mem_toDigits (by decide) (by decide) hchar

@[simp] theorem ofNat_ne_nil (n : Nat) : ofNat n ≠ [] := by
  simp [ofNat, Nat.toDigits_ne_nil]

theorem digitsValue_ofNat (n : Nat) : digitsValue (ofNat n) = n := by
  have hfold : ∀ (chars : List Char), (∀ char ∈ chars, char.isDigit = true) → ∀ start,
      (chars.map CodePoint.scalar).foldl (fun n c => n * 10 + c.digit) start =
        Nat.ofDigitChars 10 chars start := by
    intro chars hchars
    induction chars with
    | nil => exact fun start => by simp
    | cons char chars ih =>
        obtain ⟨hchar, hrest⟩ := List.forall_mem_cons.1 hchars
        intro start
        rw [List.map_cons, List.foldl_cons, ih hrest, Nat.ofDigitChars_cons,
          CodePoint.digit_eq (by rwa [CodePoint.isDigit_scalar]), Nat.mul_comm]
        rfl
  rw [digitsValue, ofNat, hfold _ fun char hchar =>
    Nat.isDigit_of_mem_toDigits (by decide) (by decide) hchar]
  exact Nat.ofDigitChars_ten_toDigits

theorem length_ofNat_le_iff {k : Nat} (hk : 0 < k) : (ofNat n).length ≤ k ↔ n < 10 ^ k := by
  rw [ofNat, List.length_map]
  exact Nat.length_toDigits_le_iff (by decide) hk

/-- No number but zero is written with a zero in front. -/
theorem head?_ofNat (hn : n ≠ 0) : (ofNat n).head? ≠ some (.scalar '0') := by
  induction n using Nat.strong_induction_on with
  | h n ih =>
      rw [ofNat, Nat.toDigits_eq_if (by decide)]
      split
      · simpa using hn
      · rename_i hlarge
        obtain ⟨c, rest, hcons⟩ := List.exists_cons_of_ne_nil (ofNat_ne_nil (n / 10))
        have hfirst := ih (n / 10) (by omega) (by omega)
        rw [List.map_append, ← ofNat, hcons]
        rwa [hcons] at hfirst

theorem ofNatIn_ten (width n : Nat) :
    ofNatIn 10 width n =
      List.replicate (width - (ofNat n).length) (.scalar '0') ++ ofNat n := rfl

theorem areDigits_ofNatIn (width n : Nat) : AreDigits (ofNatIn 10 width n) := by
  rw [ofNatIn_ten]
  exact (areDigits_zeros _).append (areDigits_ofNat n)

theorem digitsValue_ofNatIn (width n : Nat) : digitsValue (ofNatIn 10 width n) = n := by
  rw [ofNatIn_ten, digitsValue_append, digitsValue_zeros, Nat.zero_mul, Nat.zero_add,
    digitsValue_ofNat]

theorem ofNatIn_ne_nil (width n : Nat) : ofNatIn 10 width n ≠ [] := by
  rw [ofNatIn_ten]
  exact List.append_ne_nil_of_right_ne_nil _ (ofNat_ne_nil n)

/-! ## Reading digits -/

theorem toNat?_lt {n : Nat} (h : toNat? text = some n) : n < 10 ^ text.length := by
  have hfold : ∀ text : Text, ∀ start, text.foldlM
      (fun value c => (c.digitValueIn? 10).map (value * 10 + ·)) start = some n →
        n < (start + 1) * 10 ^ text.length := by
    intro text
    induction text with
    | nil =>
        rintro start ⟨⟩
        simp
    | cons c text ih =>
        intro start hstart
        obtain ⟨next, hnext, hrest⟩ := Option.bind_eq_some_iff.1 hstart
        obtain ⟨digit, hdigit, rfl⟩ := Option.map_eq_some_iff.1 hnext
        have hlt : digit < 10 := by
          unfold CodePoint.digitValueIn? at hdigit
          split at hdigit
          · split at hdigit
            · cases hdigit
              assumption
            · cases hdigit
          · cases hdigit
        calc n < (start * 10 + digit + 1) * 10 ^ text.length := ih _ hrest
          _ ≤ ((start + 1) * 10) * 10 ^ text.length := Nat.mul_le_mul_right _ (by omega)
          _ = (start + 1) * 10 ^ (c :: text).length := by
              rw [List.length_cons, pow_succ]
              ring
  cases text with
  | nil => cases h
  | cons c text => simpa using hfold (c :: text) 0 h

theorem toNat?_eq (h : AreDigits text) (hne : text ≠ []) :
    toNat? text = some (digitsValue text) := by
  have hfold : ∀ text : Text, AreDigits text → ∀ start,
      text.foldlM (fun value c => (c.digitValueIn? 10).map (value * 10 + ·)) start =
        some (text.foldl (fun n c => n * 10 + c.digit) start) := by
    intro text htext
    induction text with
    | nil => exact fun start => rfl
    | cons c text ih =>
        obtain ⟨hc, hrest⟩ := List.forall_mem_cons.1 htext
        intro start
        rw [List.foldlM_cons, CodePoint.digitValueIn?_ten hc]
        exact ih hrest _
  cases text with
  | nil => exact absurd rfl hne
  | cons c text => exact hfold _ h 0

end Text

end Stencil
