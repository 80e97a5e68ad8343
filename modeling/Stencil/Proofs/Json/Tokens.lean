import Stencil.Json.Reader
import Stencil.Json.Writer
import Stencil.Proofs.Number.Decimal
import Stencil.Proofs.Text.Utf8

/-!
# Texts and numbers in JSON

A text is read from behind its opening quote as it was written, whatever code
points it holds.  A number is read as far as its numeral goes, when nothing
stands behind that could go on with it.
-/

namespace Stencil.Json

open CodePoint (scalar)

variable {text rest : Text} {opening fuel : Nat}

/-! ## Texts -/

theorem hexValue?_ofNatIn : ∀ n < 0x20, hexValue? (Text.ofNatIn 16 4 n) = some n := by decide

theorem length_ofNatIn_hex : ∀ n < 0x20, (Text.ofNatIn 16 4 n).length = 4 := by decide

theorem unicodeEscape_ofNatIn {n : Nat} (hn : n < 0x20) (hrest : rest ≠ []) :
    unicodeEscape (Text.ofNatIn 16 4 n ++ rest) = .ok (.ofNat n, rest) := by
  have hlength := length_ofNatIn_hex n hn
  have htake : (Text.ofNatIn 16 4 n ++ rest).take 4 = Text.ofNatIn 16 4 n :=
    List.take_left' hlength
  have hdrop : (Text.ofNatIn 16 4 n ++ rest).drop 4 = rest := List.drop_left' hlength
  simp only [unicodeEscape, htake, hdrop, hexValue?_ofNatIn n hn]
  rw [if_neg (by simpa using hrest), if_neg (by omega)]

/-- A mark behind a backslash is read as the code point that it stands for. -/
theorem stringBody_mark (mark : Char) {c : CodePoint} {body left : Text}
    (hread : escaped? (scalar mark) = some c) (hmark : mark ≠ 'u')
    (h : stringBody opening fuel rest = .ok (body, left)) :
    stringBody opening (fuel + 1) (scalar '\\' :: scalar mark :: rest) =
      .ok (c :: body, left) := by
  rw [stringBody, hread]
  · simp only [h]
    rfl
  · simpa using hmark

theorem stringBody_unicodeEscape {c : CodePoint} {body left : Text} (hcontrol : c.toNat < 0x20)
    (hrest : rest ≠ []) (h : stringBody opening fuel rest = .ok (body, left)) :
    stringBody opening (fuel + 1)
      (scalar '\\' :: scalar 'u' :: (Text.ofNatIn 16 4 c.toNat ++ rest)) =
      .ok (c :: body, left) := by
  have hplain : c.isSurrogate = false := by
    cases c with
    | scalar char => rfl
    | surrogate offset => exact absurd hcontrol (by simp only [CodePoint.toNat]; omega)
  have hescape := unicodeEscape_ofNatIn hcontrol hrest
  rw [Text.ofNat_toNat hplain] at hescape
  rw [stringBody, hescape]
  show (stringBody opening fuel rest >>= _) = _
  rw [h]
  rfl

/-- What a code point is written as is read as the code point. -/
theorem stringBody_escapeOf {c : CodePoint} {body left : Text} (hrest : rest ≠ [])
    (h : stringBody opening fuel rest = .ok (body, left)) :
    stringBody opening (fuel + 1) (escapeOf c ++ rest) = .ok (c :: body, left) := by
  unfold escapeOf
  split
  · exact stringBody_mark '\x22' rfl (by decide) h
  · exact stringBody_mark '\\' rfl (by decide) h
  · exact stringBody_mark 'n' rfl (by decide) h
  · exact stringBody_mark 'r' rfl (by decide) h
  · exact stringBody_mark 't' rfl (by decide) h
  · exact stringBody_mark 'f' rfl (by decide) h
  · exact stringBody_mark 'b' rfl (by decide) h
  · rename_i hquote hbackslash _ _ _ _ _
    split
    · rename_i hcontrol
      exact stringBody_unicodeEscape hcontrol hrest h
    · rename_i hcontrol
      rw [List.singleton_append, stringBody, if_neg hcontrol]
      · simp only [h]
        rfl
      · exact hquote
      · exact fun heq => (hbackslash heq).elim
      · exact fun _ heq => (hbackslash heq).elim
      · exact fun _ _ heq => (hbackslash heq).elim

theorem escapeOf_ne_nil (c : CodePoint) : escapeOf c ≠ [] := by
  unfold escapeOf
  split <;> try decide
  split
  · exact List.append_ne_nil_of_left_ne_nil (by decide) _
  · exact List.cons_ne_nil _ _

theorem stringBody_escaped (text rest : Text) (h : text.length < fuel) :
    stringBody opening fuel (text.flatMap escapeOf ++ scalar '\x22' :: rest) =
      .ok (text, rest) := by
  induction text generalizing fuel with
  | nil =>
      obtain ⟨fuel, rfl⟩ := Nat.exists_eq_add_one_of_ne_zero (Nat.ne_of_gt h)
      rfl
  | cons c text ih =>
      obtain ⟨fuel, rfl⟩ := Nat.exists_eq_add_one_of_ne_zero (Nat.ne_of_gt (Nat.zero_lt_of_lt h))
      rw [List.flatMap_cons, List.append_assoc]
      exact stringBody_escapeOf (by simp) (ih (Nat.lt_of_succ_lt_succ h))

/-! ## Numbers -/

def cutMinus (text : Text) : Text × Text :=
  match text with
  | .scalar '-' :: body => ([scalar '-'], body)
  | _ => ([], text)

def cutWhole? (body : Text) : Option (Text × Text) :=
  match body with
  | .scalar '0' :: rest => some ([scalar '0'], rest)
  | c :: _ => if c.isDigit then some (body.span CodePoint.isDigit) else none
  | [] => none

def cutFraction (rest : Text) : Text × Text :=
  match rest with
  | .scalar '.' :: tail =>
      let digits := tail.takeWhile CodePoint.isDigit
      if digits.isEmpty then ([], rest) else (digits, tail.drop digits.length)
  | _ => ([], rest)

def cutPower (rest : Text) : Text × Text :=
  match rest with
  | c :: tail =>
      if c.lowerLatin = scalar 'e' then
        let (signText, digits) : Text × Text := match tail with
          | .scalar '-' :: digits => ([scalar '-'], digits)
          | .scalar '+' :: digits => ([scalar '+'], digits)
          | _ => ([], tail)
        let count := digits.takeWhile CodePoint.isDigit
        if count.isEmpty then ([], rest) else (signText ++ count, digits.drop count.length)
      else ([], rest)
  | [] => ([], rest)

/-- A number is cut into its parts one after the other. -/
theorem cutNumber?_eq (text : Text) :
    cutNumber? text =
      (let (sign, body) := cutMinus text
      match cutWhole? body with
      | none => none
      | some (whole, rest) =>
          let (fraction, rest) := cutFraction rest
          let (power, rest) := cutPower rest
          some (sign ++ whole, fraction, power, rest)) := by
  rfl

/-- No digit stands in front. -/
def NoDigit (rest : Text) : Prop := ∀ c ∈ rest.head?, c.isDigit = false

/-- What may stand behind a number: nothing that the number could go on with. -/
structure Apart (rest : Text) : Prop where
  digit : NoDigit rest
  point : rest.head? ≠ some (scalar '.')
  power : ∀ c ∈ rest.head?, c.lowerLatin ≠ scalar 'e'

variable {digits whole fraction after : Text} {power : Option Int}

theorem NoDigit.takeWhile_append (hdigits : Text.AreDigits digits) (h : NoDigit after) :
    (digits ++ after).takeWhile CodePoint.isDigit = digits := by
  rw [List.takeWhile_append_of_pos hdigits]
  cases after with
  | nil => exact List.append_nil digits
  | cons c after =>
      rw [List.takeWhile_cons_of_neg (by simp [h c rfl]), List.append_nil]

theorem NoDigit.dropWhile_append (hdigits : Text.AreDigits digits) (h : NoDigit after) :
    (digits ++ after).dropWhile CodePoint.isDigit = after := by
  rw [List.dropWhile_append_of_pos hdigits]
  cases after with
  | nil => rfl
  | cons c after => rw [List.dropWhile_cons_of_neg (by simp [h c rfl])]

theorem cutMinus_append (negative : Bool) (hne : whole ≠ []) (hdigits : Text.AreDigits whole) :
    cutMinus (Binary64.signText negative ++ (whole ++ after)) =
      (Binary64.signText negative, whole ++ after) := by
  obtain ⟨c, whole, rfl⟩ := List.exists_cons_of_ne_nil hne
  have hc : c ≠ scalar '-' := CodePoint.ne_scalar_of_isDigit (hdigits c List.mem_cons_self) rfl
  cases negative with
  | true => rfl
  | false =>
      show cutMinus (c :: (whole ++ after)) = ([], c :: (whole ++ after))
      unfold cutMinus
      split
      · rename_i heq
        exact absurd (List.cons.inj heq).1 hc
      · rfl

theorem cutWhole?_append (hne : whole ≠ []) (hdigits : Text.AreDigits whole)
    (hhead : whole = [scalar '0'] ∨ whole.head? ≠ some (scalar '0')) (hafter : NoDigit after) :
    cutWhole? (whole ++ after) = some (whole, after) := by
  rcases hhead with rfl | hhead
  · rfl
  · obtain ⟨c, whole, rfl⟩ := List.exists_cons_of_ne_nil hne
    rw [List.cons_append, cutWhole?, if_pos (hdigits c List.mem_cons_self), ← List.cons_append,
      List.span_eq_takeWhile_dropWhile, hafter.takeWhile_append hdigits,
      hafter.dropWhile_append hdigits]
    simpa using hhead

theorem cutFraction_append (hdigits : Text.AreDigits fraction) (hafter : NoDigit after)
    (hpoint : after.head? ≠ some (scalar '.')) :
    cutFraction ((if fraction = [] then [] else scalar '.' :: fraction) ++ after) =
      (fraction, after) := by
  split
  · rename_i hnil
    rw [hnil, List.nil_append]
    unfold cutFraction
    split
    · exact absurd rfl hpoint
    · rfl
  · rename_i hne
    rw [List.cons_append, cutFraction, hafter.takeWhile_append hdigits,
      if_neg (by simpa using hne), List.drop_left]

/-- The power behind its mark. -/
def powerText (power : Option Int) : Text := (power.elim [] Binary64.exponentText).drop 1

theorem cutPower_append (h : Apart rest) :
    cutPower (power.elim [] Binary64.exponentText ++ rest) = (powerText power, rest) := by
  cases power with
  | none =>
      rw [Option.elim_none, List.nil_append]
      unfold cutPower
      split
      · rw [if_neg (h.power _ rfl)]
        rfl
      · rfl
  | some power =>
      have hdigits := Text.areDigits_ofNatIn 2 power.natAbs
      have hempty : ¬ (Text.ofNatIn 10 2 power.natAbs).isEmpty = true := by
        simpa using Text.ofNatIn_ne_nil 2 power.natAbs
      by_cases hsign : power < 0
      all_goals
        simp only [powerText, Option.elim_some, Binary64.exponentText, hsign, if_true, if_false,
          List.cons_append, cutPower, h.digit.takeWhile_append hdigits, hempty, List.drop_left,
          List.drop_succ_cons, List.drop_zero, List.nil_append]
        rfl

theorem integer_powerText (power : Option Int) : integer (powerText power) = power.getD 0 := by
  cases power with
  | none => rfl
  | some power =>
      have hread := Text.toNat?_eq (Text.areDigits_ofNatIn 2 power.natAbs)
        (Text.ofNatIn_ne_nil 2 power.natAbs)
      rw [Text.digitsValue_ofNatIn] at hread
      by_cases hsign : power < 0
      all_goals
        simp only [powerText, Option.elim_some, Binary64.exponentText, hsign, if_true, if_false,
          List.drop_succ_cons, List.drop_zero, integer, Binary64.cutSign, hread, Option.getD_some,
          Bool.false_eq_true]
        omega

theorem apart_power (power : Option Int) (h : Apart rest) :
    NoDigit (power.elim [] Binary64.exponentText ++ rest) ∧
      (power.elim [] Binary64.exponentText ++ rest).head? ≠ some (scalar '.') := by
  cases power with
  | none => exact ⟨h.digit, h.point⟩
  | some power =>
      refine ⟨?_, fun h => nomatch h⟩
      rintro c ⟨⟩
      rfl

/-- A numeral is cut into what it was made of. -/
theorem cutNumber?_numeral (negative : Bool) {n : Numeral} (hwell : n.WellFormed) (h : Apart rest) :
    cutNumber? (Binary64.signText negative ++ n.text ++ rest) =
      some (Binary64.signText negative ++ n.whole, n.fraction, powerText n.power, rest) := by
  obtain ⟨hpower, hpoint⟩ := apart_power n.power h
  have hfraction : NoDigit ((if n.fraction = [] then [] else scalar '.' :: n.fraction) ++
      (n.power.elim [] Binary64.exponentText ++ rest)) := by
    split
    · exact hpower
    · rintro c ⟨⟩
      rfl
  rw [cutNumber?_eq, List.append_assoc, Numeral.text, List.append_assoc, List.append_assoc,
    cutMinus_append negative hwell.whole_ne_nil hwell.whole_digits]
  simp only [cutWhole?_append hwell.whole_ne_nil hwell.whole_digits hwell.whole_head hfraction,
    cutFraction_append hwell.fraction_digits hpower hpoint, cutPower_append h]

theorem cutSign_append (negative : Bool) (hne : whole ≠ []) (hdigits : Text.AreDigits whole) :
    Binary64.cutSign (Binary64.signText negative ++ whole) = (negative, whole) := by
  obtain ⟨c, whole, rfl⟩ := List.exists_cons_of_ne_nil hne
  have hc (char : Char) (hchar : char.isDigit = false) : c ≠ scalar char :=
    CodePoint.ne_scalar_of_isDigit (hdigits c List.mem_cons_self) hchar
  cases negative with
  | true => rfl
  | false =>
      show Binary64.cutSign (c :: whole) = (false, c :: whole)
      unfold Binary64.cutSign
      split
      · rename_i heq
        exact absurd (List.cons.inj heq).1 (hc '-' rfl)
      · rename_i heq
        exact absurd (List.cons.inj heq).1 (hc '+' rfl)
      · rfl

/-- A numeral with a point or a power is read as the number nearest to it. -/
theorem number_marked (negative : Bool) {n : Numeral} (hwell : n.WellFormed)
    (hmarked : n.fraction ≠ [] ∨ n.power ≠ none) (h : Apart rest) :
    number (Binary64.signText negative ++ n.text ++ rest) =
      .ok (.float (Binary64.ofParts negative n.whole n.fraction (n.power.getD 0)), rest) := by
  have hparts : ¬ (n.fraction.isEmpty && (powerText n.power).isEmpty) = true := by
    rw [Bool.and_eq_true, List.isEmpty_iff, List.isEmpty_iff]
    rintro ⟨hfraction, hpower⟩
    cases hvalue : n.power with
    | none => exact hmarked.elim (absurd hfraction) (absurd hvalue)
    | some power =>
        rw [hvalue] at hpower
        cases hpower
  simp only [number, cutNumber?_numeral negative hwell h,
    cutSign_append negative hwell.whole_ne_nil hwell.whole_digits, if_neg hparts, integer_powerText]

theorem ofInt_eq (n : Int) :
    Text.ofInt n = Binary64.signText (decide (n < 0)) ++ Text.ofNat n.natAbs := by
  cases n with
  | ofNat n =>
      rw [Int.ofNat_eq_natCast, decide_eq_false (Int.not_lt.2 (Int.natCast_nonneg n))]
      rfl
  | negSucc n =>
      rw [decide_eq_true (Int.negSucc_lt_zero n)]
      rfl

theorem wellFormed_ofNat (n : Nat) : Numeral.WellFormed ⟨Text.ofNat n, [], none⟩ where
  whole_ne_nil := Text.ofNat_ne_nil n
  whole_digits := Text.areDigits_ofNat n
  whole_head := by
    by_cases hn : n = 0
    · exact .inl (by rw [hn]; rfl)
    · exact .inr (Text.head?_ofNat hn)
  fraction_digits := List.forall_mem_nil _

/-- An integer of at most 4300 digits is read as it was written. -/
theorem number_ofInt {n : Int} (hn : (Text.ofNat n.natAbs).length ≤ 4300) (h : Apart rest) :
    number (Text.ofInt n ++ rest) = .ok (.int n, rest) := by
  have hwell := wellFormed_ofNat n.natAbs
  have hsign := cutSign_append (decide (n < 0)) hwell.whole_ne_nil hwell.whole_digits
  have hcut := cutNumber?_numeral (decide (n < 0)) hwell h
  have hread := Text.toNat?_eq hwell.whole_digits hwell.whole_ne_nil
  rw [Text.digitsValue_ofNat] at hread
  have hinteger :
      integer (Binary64.signText (decide (n < 0)) ++ Text.ofNat n.natAbs) = n := by
    simp only [integer, hsign, hread, Option.getD_some, decide_eq_true_eq]
    omega
  rw [Numeral.text, if_pos rfl, Option.elim_none, List.append_nil, List.append_nil] at hcut
  rw [ofInt_eq, number, hcut]
  simp only [hsign, hinteger, List.isEmpty_nil, Bool.and_self, if_true, if_neg (Nat.not_lt.2 hn),
    powerText, Option.elim_none, List.drop_nil]

end Stencil.Json
