import Stencil.Number.Decimal
import Stencil.Text.Blank
import Stencil.Text.Utf8
import Stencil.Schema.Issue

/-!
# Numerals

Which values are taken for a truth value, an integer or a number.  Texts are
read leniently: blanks around a numeral, leading zeros, a fraction of zeros and
single underscores between digits are allowed.
-/

namespace Stencil.Numeral

/-- Blank, apart from the four separators among the control characters. -/
def isOuterBlank (c : CodePoint) : Bool :=
  c.isBlank && !(decide (0x1C ≤ c.toNat) && decide (c.toNat ≤ 0x1F))

/-- A text without its underscores, if each stands alone and inside. -/
def withoutUnderscores? (text : Text) : Option Text :=
  if Text.contains "_" text && !Text.startsWith "_" text && !Text.endsWith "_" text &&
      !Text.contains "__" text then
    some (text.filter (· ≠ .scalar '_'))
  else none

/-! ## Integers -/

/-- Digits without a leading zero, and an optional minus sign. -/
def isPlainInt (text : Text) : Bool :=
  let digits := (Text.dropLeading? "-" text).getD text
  !digits.isEmpty && digits.all CodePoint.isDigit &&
    (digits.head? ≠ some (.scalar '0') || decide (digits.length = 1))

/-- The zeros and underscores after a first zero, up to the last zero that is needed. -/
private def dropZerosFrom (last : CodePoint) : Text → Option Text
  | [] => some [last]
  | c :: text =>
      if c = .scalar '0' ∨ c = .scalar '_' then dropZerosFrom c text
      else if c = .scalar '.' then some (last :: c :: text)
      else if c.isDigit then some (c :: text)
      else none

def dropZeros? : Text → Option Text
  | [] => none
  | c :: text =>
      if c = .scalar '0' then dropZerosFrom c text
      else if c.isDigit || c = .scalar '-' then some (c :: text)
      else none

def dropZeroFraction (text : Text) : Text :=
  match Text.cut "." text with
  | some (whole, fraction) => if fraction.all (· = .scalar '0') then whole else text
  | none => text

/-- The plain form of an integer that is written leniently. -/
def plainInt? (text : Text) : Option Text := do
  let body := text.trim isOuterBlank
  let unsigned ← match Text.dropLeading? "+" body with
    | some rest => if Text.startsWith "-" rest then none else some rest
    | none => some body
  let short := dropZeroFraction (← dropZeros? unsigned)
  return (withoutUnderscores? short).getD short

/-- The most digits of an integer in a text. -/
def mostDigits : Nat := 4300

def intTextFault? (text : Text) : Option Mismatch :=
  let trimmed := text.trim isOuterBlank
  let body := if isPlainInt trimmed then some trimmed else (plainInt? text).filter isPlainInt
  match body with
  | some digits => if mostDigits < digits.length then some .intSize else none
  | none => some .intText

/-! ## Numbers -/

def floatTextFault? (text : Text) : Option Mismatch :=
  if (Binary64.readAny? (text.trim isOuterBlank)).isSome then none
  else if ((withoutUnderscores? text).bind Binary64.readAny?).isSome then none
  else some .floatText

/-! ## Truth values -/

def truthOf? (text : Text) : Option Bool :=
  let word := text.map CodePoint.lowerLatin
  if ["0", "off", "f", "false", "n", "no"].any fun known => word = Text.ofString known then
    some false
  else if ["1", "on", "t", "true", "y", "yes"].any fun known => word = Text.ofString known then
    some true
  else none

def inWord (n : Int) : Bool := decide (-Int.pow 2 63 ≤ n) && decide (n < Int.pow 2 63)

def truthOfInt (n : Int) : Except Mismatch Bool :=
  if n = 0 then .ok false
  else if n = 1 then .ok true
  else if inWord n then .error .boolText
  else .error .bool

/-! ## Values -/

/-- The text that a text or a sequence of bytes is read as. -/
def spelling? : Value → Option (Except Mismatch Text)
  | .text text => some (if text.any CodePoint.isSurrogate then .error .encoding else .ok text)
  | .scalar (.bytes bytes) => some ((Text.decode bytes).mapError fun _ => .encoding)
  | _ => none

def truth (value : Value) : Except Mismatch Bool :=
  match spelling? value, value with
  | some spelling, _ =>
      match spelling.map truthOf? with
      | .ok (some truth) => .ok truth
      | .ok none => .error .boolText
      | .error fault => .error (if value.text?.isSome then fault else .boolText)
  | none, .bool b => .ok b
  | none, .int n => truthOfInt n
  | none, .float x => if x.isFinite && x.isIntegral then truthOfInt x.truncate else .error .bool
  | none, _ => .error .bool

/-- What keeps a value from being an integer. -/
def intFault? (value : Value) : Option Mismatch :=
  match spelling? value, value with
  | some (.ok text), _ => intTextFault? text
  | some (.error fault), _ => some (if value.text?.isSome then fault else .intText)
  | none, .bool _ => none
  | none, .int _ => none
  | none, .float x =>
      if !x.isFinite then some .infinite
      else if !x.isIntegral then some .fraction
      else if inWord x.truncate then none
      else some .intSize
  | none, _ => some .int

/-- What keeps a value from being a number. -/
def floatFault? (value : Value) : Option Mismatch :=
  match spelling? value, value with
  | some (.ok text), _ => floatTextFault? text
  | some (.error fault), _ => some (if value.text?.isSome then fault else .floatText)
  | none, .bool _ => none
  | none, .int n => if (Binary64.ofInt? n).isSome then none else some .float
  | none, .float _ => none
  | none, _ => some .float

end Stencil.Numeral
