import Stencil.Number.Binary64

/-!
# Decimal texts of floating-point numbers

`Binary64.shortest` finds the fewest decimal digits that read back as the same
number, and of those the nearest.  `Binary64.text` writes them: with a decimal
point between `0.0001` and `10 ^ 16`, with an exponent outside.
-/

namespace Stencil

/-- The number `digits · 10 ^ exponent`. -/
structure Decimal where
  digits : Nat
  exponent : Int
  deriving DecidableEq, Repr

namespace Decimal

/-- The nearest floating-point number.  Far exponents are decided without large powers. -/
def toBinary64 (negative : Bool) (d : Decimal) : Binary64 :=
  let size : Int := (Nat.toDigits 10 d.digits).length
  if d.digits = 0 ∨ size + d.exponent < -400 then .ofMagnitude negative 0
  else if 400 < size + d.exponent then .infinity negative
  else if 0 ≤ d.exponent then .ofRatio negative (d.digits * Nat.pow 10 d.exponent.toNat) 1
  else .ofRatio negative d.digits (Nat.pow 10 (-d.exponent).toNat)

end Decimal

namespace Binary64

/-- The value of a finite number with all its digits. -/
def exactDecimal (x : Binary64) : Decimal :=
  if 0 ≤ x.exponent then ⟨x.mantissa * Nat.pow 2 x.exponent.toNat, 0⟩
  else ⟨x.mantissa * Nat.pow 5 (-x.exponent).toNat, x.exponent⟩

/-- The number of digits in front of the decimal point of `num / den`, negative for leading zeros. -/
private def decimalSize (num den : Nat) : Int :=
  if den ≤ num then (Nat.toDigits 10 (num / den)).length
  else 1 - ((Nat.toDigits 10 ((den - 1) / num)).length : Int)

/-- The two multiples of `10 ^ exponent` around `num / den`, the nearer first. -/
private def neighbours (num den : Nat) (exponent : Int) : List Decimal :=
  let num' := if exponent < 0 then num * Nat.pow 10 (-exponent).toNat else num
  let den' := if exponent < 0 then den else den * Nat.pow 10 exponent.toNat
  let below := num' / den'
  let nearest := divRoundEven num' den'
  let other := if nearest = below then below + 1 else below
  [⟨nearest, exponent⟩, ⟨other, exponent⟩]

private def candidates (x : Binary64) : List Decimal :=
  let (num, den) := x.ratio
  let size := decimalSize num den
  (List.range 17).flatMap fun count => neighbours num den (size - (count + 1 : Nat))

/-- The digits of the absolute value of a finite number. -/
def shortest (x : Binary64) : Decimal :=
  if x.isZero then ⟨0, 0⟩
  else
    match x.candidates.find? fun d => d.toBinary64 x.isNegative = x with
    | some d => d
    | none => x.exactDecimal

/-! ## Layout -/

def zeros (count : Int) : Text := List.replicate count.toNat (CodePoint.scalar '0')

def exponentText (power : Int) : Text :=
  CodePoint.scalar 'e' :: (if power < 0 then CodePoint.scalar '-' else CodePoint.scalar '+') ::
    Text.ofNatIn 10 2 power.natAbs

/-- The digits with trailing zeros dropped, and the place of the decimal point in them. -/
def significant (d : Decimal) : Text × Int :=
  let digits := Text.ofNat d.digits
  let kept := Text.trimEnd (· = CodePoint.scalar '0') digits
  (if kept.isEmpty then "0" else kept, digits.length + d.exponent)

def layout (d : Decimal) : Text :=
  let (digits, point) := significant d
  let count : Int := digits.length
  if d.digits = 0 then "0.0"
  else if -4 < point && point ≤ 16 then
    if point ≤ 0 then ("0." : Text) ++ zeros (-point) ++ digits
    else if count ≤ point then digits ++ zeros (point - count) ++ (".0" : Text)
    else digits.take point.toNat ++ ("." : Text) ++ digits.drop point.toNat
  else
    match digits with
    | [] => []
    | first :: [] => first :: exponentText (point - 1)
    | first :: rest => first :: CodePoint.scalar '.' :: rest ++ exponentText (point - 1)

/-- The text of a number that reads back as the same number. -/
def text (x : Binary64) : Text :=
  if x.isNaN then "nan"
  else
    let body : Text := if x.isInfinite then "inf" else layout x.shortest
    if x.isNegative then CodePoint.scalar '-' :: body else body

/-! ## Reading -/

/-- A decimal with an optional fraction and exponent, in the digits of the parts. -/
def ofParts (negative : Bool) (whole fraction : Text) (power : Int) : Binary64 :=
  let digits := ((whole ++ fraction).foldl (fun n c => n * 10 + (c.digitValue?.getD 0)) 0)
  Decimal.toBinary64 negative ⟨digits, power - fraction.length⟩

/-- An optional sign in front of a text. -/
def cutSign : Text → Bool × Text
  | .scalar '-' :: text => (true, text)
  | .scalar '+' :: text => (false, text)
  | text => (false, text)

def exponentOf? : Text → Option Int
  | [] => some 0
  | c :: text =>
      if c.lowerLatin = .scalar 'e' then
        let (negative, digits) := cutSign text
        (Text.toNat? digits).map fun n => if negative then -(n : Int) else n
      else none

/-- Reads digits with an optional sign, point and exponent; at least one digit is needed. -/
def read? (text : Text) : Option Binary64 :=
  let (negative, text) := cutSign text
  let whole := text.takeWhile CodePoint.isDigit
  let rest := text.dropWhile CodePoint.isDigit
  let (fraction, rest) : Text × Text := match rest with
    | .scalar '.' :: tail => (tail.takeWhile CodePoint.isDigit, tail.dropWhile CodePoint.isDigit)
    | _ => ([], rest)
  if whole.isEmpty && fraction.isEmpty then none
  else (exponentOf? rest).map fun power => ofParts negative whole fraction power

/-- Reads a number or one of the words for infinity and for no number. -/
def readAny? (text : Text) : Option Binary64 :=
  match read? text with
  | some x => some x
  | none =>
      let (negative, body) := cutSign text
      let word := body.map CodePoint.lowerLatin
      if word = ("inf" : Text) ∨ word = ("infinity" : Text) then some (infinity negative)
      else if word = ("nan" : Text) then
        some (if negative then neg nan else nan)
      else none

end Binary64

end Stencil
