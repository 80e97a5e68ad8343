import Stencil.Text.Basic

/-!
# Binary floating-point numbers

A number is kept as its 64 bits: a sign, eleven bits of exponent and 52 bits of
fraction.  A finite number is `mantissa · 2 ^ exponent`; comparison, rounding
and remainder are computed on these integers.  The four basic operations and
powers are those of the machine.
-/

namespace Stencil

structure Binary64 where
  bits : UInt64
  deriving DecidableEq, Repr, Inhabited

namespace Binary64

def ofFloat (x : Float) : Binary64 := ⟨x.toBits⟩

def toFloat (x : Binary64) : Float := Float.ofBits x.bits

def isNegative (x : Binary64) : Bool := decide (Nat.pow 2 63 ≤ x.bits.toNat)

/-- The bits without the sign: they are ordered as the absolute values are. -/
def magnitude (x : Binary64) : Nat := x.bits.toNat % Nat.pow 2 63

def exponentField (x : Binary64) : Nat := x.magnitude / Nat.pow 2 52

def fraction (x : Binary64) : Nat := x.magnitude % Nat.pow 2 52

def isFinite (x : Binary64) : Bool := decide (x.exponentField < 2047)

def isInfinite (x : Binary64) : Bool := decide (x.magnitude = 2047 * Nat.pow 2 52)

def isNaN (x : Binary64) : Bool := decide (2047 * Nat.pow 2 52 < x.magnitude)

def isZero (x : Binary64) : Bool := decide (x.magnitude = 0)

def mantissa (x : Binary64) : Nat :=
  if x.exponentField = 0 then x.fraction else x.fraction + Nat.pow 2 52

def exponent (x : Binary64) : Int :=
  if x.exponentField = 0 then -1074 else (x.exponentField : Int) - 1075

def ofMagnitude (negative : Bool) (magnitude : Nat) : Binary64 :=
  ⟨UInt64.ofNat ((if negative then Nat.pow 2 63 else 0) + magnitude)⟩

def zero : Binary64 := ofMagnitude false 0

def infinity (negative : Bool) : Binary64 := ofMagnitude negative (2047 * Nat.pow 2 52)

def nan : Binary64 := ofMagnitude false (2047 * Nat.pow 2 52 + Nat.pow 2 51)

/-! ## Rounding a ratio of integers -/

/-- The quotient rounded to the nearest integer, a half to the even neighbour. -/
def divRoundEven (num den : Nat) : Nat :=
  let quotient := num / den
  let rest := num % den
  if 2 * rest < den then quotient
  else if den < 2 * rest then quotient + 1
  else quotient + quotient % 2

/-- `num / den · 2 ^ -shift` rounded to an integer. -/
def scaledDown (num den : Nat) (shift : Int) : Nat :=
  if 0 ≤ shift then divRoundEven num (den * Nat.pow 2 shift.toNat)
  else divRoundEven (num * Nat.pow 2 (-shift).toNat) den

/-- Whether `num / den` is at least `2 ^ power`. -/
def reaches (num den : Nat) (power : Int) : Bool :=
  if 0 ≤ power then decide (den * Nat.pow 2 power.toNat ≤ num)
  else decide (den ≤ num * Nat.pow 2 (-power).toNat)

/--
The number nearest to `num / den`; of two equally near ones that with an even
mantissa.  A mantissa that rounds up to `2 ^ 53` carries into the exponent.
-/
def ofRatio (negative : Bool) (num den : Nat) : Binary64 :=
  if num = 0 ∨ den = 0 then ofMagnitude negative 0
  else
    let guess : Int := (Nat.log2 num : Int) - (Nat.log2 den : Int)
    let top : Int := if reaches num den guess then guess else guess - 1
    let scale : Int := max (top - 52) (-1074)
    let mantissa := scaledDown num den scale
    let field : Nat := if mantissa < Nat.pow 2 52 then 0 else (scale + 1075).toNat
    let magnitude := if field = 0 then mantissa else field * Nat.pow 2 52 + (mantissa - Nat.pow 2 52)
    if 2047 * Nat.pow 2 52 ≤ magnitude then infinity negative else ofMagnitude negative magnitude

/-- The number nearest to an integer; integers past the largest number give none. -/
def ofInt? (n : Int) : Option Binary64 :=
  let x := ofRatio (decide (n < 0)) n.natAbs 1
  if x.isFinite then some x else none

/-- The exact absolute value of a finite number as a ratio. -/
def ratio (x : Binary64) : Nat × Nat :=
  if 0 ≤ x.exponent then (x.mantissa * Nat.pow 2 x.exponent.toNat, 1)
  else (x.mantissa, Nat.pow 2 (-x.exponent).toNat)

private def signed (negative : Bool) (n : Nat) : Int := if negative then -(n : Int) else n

/-! ## Comparison -/

/-- An integer that grows with the number; both zeros have the same. -/
def rank (x : Binary64) : Int := signed x.isNegative x.magnitude

def equals (x y : Binary64) : Bool := !x.isNaN && !y.isNaN && decide (x.rank = y.rank)

def less (x y : Binary64) : Bool := !x.isNaN && !y.isNaN && decide (x.rank < y.rank)

/-- How a number compares with an integer, exactly. -/
def compareInt (x : Binary64) (n : Int) : Option Ordering :=
  if x.isNaN then none
  else if x.isInfinite then some (if x.isNegative then .lt else .gt)
  else
    let (num, den) := x.ratio
    some (compare (signed x.isNegative num) (n * den))

/-! ## Arithmetic -/

def add (x y : Binary64) : Binary64 := ofFloat (x.toFloat + y.toFloat)

def sub (x y : Binary64) : Binary64 := ofFloat (x.toFloat - y.toFloat)

def mul (x y : Binary64) : Binary64 := ofFloat (x.toFloat * y.toFloat)

def div (x y : Binary64) : Binary64 := ofFloat (x.toFloat / y.toFloat)

def pow (x y : Binary64) : Binary64 := ofFloat (Float.pow x.toFloat y.toFloat)

def neg (x : Binary64) : Binary64 := ofMagnitude (!x.isNegative) x.magnitude

def abs (x : Binary64) : Binary64 := ofMagnitude false x.magnitude

/-- The integer part of a finite number. -/
def truncate (x : Binary64) : Int :=
  let (num, den) := x.ratio
  signed x.isNegative (num / den)

/-- The largest integer that is not above a finite number. -/
def floorInt (x : Binary64) : Int :=
  let (num, den) := x.ratio
  Int.fdiv (signed x.isNegative num) den

/-- The smallest integer that is not below a finite number. -/
def ceilInt (x : Binary64) : Int :=
  let (num, den) := x.ratio
  Int.neg (Int.fdiv (-signed x.isNegative num) den)

/-- The nearest integer to a finite number, a half to the even neighbour. -/
def roundInt (x : Binary64) : Int :=
  let (num, den) := x.ratio
  signed x.isNegative (divRoundEven num den)

def isIntegral (x : Binary64) : Bool :=
  let (num, den) := x.ratio
  x.isFinite && decide (num % den = 0)

/-- A finite number rounded to decimal places, a half of the exact value to the even neighbour. -/
def roundTo (x : Binary64) (places : Int) : Binary64 :=
  if !x.isFinite || 400 < places then x
  else if places < -400 then ofMagnitude x.isNegative 0
  else
    let (num, den) := x.ratio
    if 0 ≤ places then
      ofRatio x.isNegative (divRoundEven (num * Nat.pow 10 places.toNat) den) (Nat.pow 10 places.toNat)
    else
      let unit := Nat.pow 10 (-places).toNat
      ofRatio x.isNegative (divRoundEven num (den * unit) * unit) 1

/-- The exact remainder of the division toward zero, with the sign of `x`. -/
private def remainder (x y : Binary64) : Binary64 :=
  if x.isNaN || y.isNaN || x.isInfinite || y.isZero then nan
  else if y.isInfinite then x
  else
    let low := min x.exponent y.exponent
    let a := x.mantissa * Nat.pow 2 (x.exponent - low).toNat
    let b := y.mantissa * Nat.pow 2 (y.exponent - low).toNat
    let rest := a % b
    if 0 ≤ low then ofRatio x.isNegative (rest * Nat.pow 2 low.toNat) 1
    else ofRatio x.isNegative rest (Nat.pow 2 (-low).toNat)

/-- Remainder of the division toward negative infinity, with the sign of `y`. -/
def mod (x y : Binary64) : Binary64 :=
  let rest := remainder x y
  if rest.isNaN then rest
  else if rest.isZero then ofMagnitude y.isNegative 0
  else if rest.isNegative != y.isNegative then add rest y
  else rest

/-- Quotient of the division toward negative infinity, as a whole number. -/
def floorDiv (x y : Binary64) : Binary64 :=
  let rest := remainder x y
  if rest.isNaN then rest
  else
    let quotient := div (sub x rest) y
    let quotient :=
      if !rest.isZero && rest.isNegative != y.isNegative then sub quotient (ofRatio false 1 1)
      else quotient
    if quotient.isZero then ofMagnitude (div x y).isNegative 0
    else if !quotient.isFinite then quotient
    else
      let whole := quotient.floorInt
      let floor := ofRatio (decide (whole < 0)) whole.natAbs 1
      if less (ofRatio false 1 2) (sub quotient floor) then add floor (ofRatio false 1 1)
      else floor

end Binary64

end Stencil
