import Stencil.Number.Decimal
import Stencil.Text.Utf8
import Stencil.Value.Calendar

/-!
# Scalars

The values without parts.  Truth values count as the numbers zero and one, and
numbers are compared by their exact values, whatever their kind.
-/

namespace Stencil

inductive Scalar where
  | null
  | bool (value : Bool)
  | int (value : Int)
  | float (value : Binary64)
  | text (value : Text)
  | bytes (value : Bytes)
  | date (value : Date)
  | moment (value : Moment)
  deriving DecidableEq, Repr, Inhabited

/-! ## Numbers -/

/-- A number in either of its two forms. -/
inductive Number where
  | int (value : Int)
  | float (value : Binary64)
  deriving DecidableEq, Repr

namespace Number

/-- How two numbers compare; nothing compares with what is no number. -/
def compare : Number → Number → Option Ordering
  | .int m, .int n => some (Ord.compare m n)
  | .float x, .int n => x.compareInt n
  | .int m, .float y => (y.compareInt m).map Ordering.swap
  | .float x, .float y =>
      if x.isNaN || y.isNaN then none else some (Ord.compare x.rank y.rank)

def equals (a b : Number) : Bool := a.compare b = some .eq

end Number

/-! ## Bytes in quotes -/

namespace Bytes

private def quotedByte (quote byte : UInt8) : Text :=
  if byte = quote ∨ byte = 0x5C then [.scalar '\\', .ofNat byte.toNat]
  else if byte = 0x0A then "\\n"
  else if byte = 0x0D then "\\r"
  else if byte = 0x09 then "\\t"
  else if byte < 0x20 ∨ 0x7F ≤ byte then ("\\x" : Text) ++ Text.ofNatIn 16 2 byte.toNat
  else [.ofNat byte.toNat]

def quoted (bytes : Bytes) : Text :=
  let quote : UInt8 := if bytes.contains 0x27 && !bytes.contains 0x22 then 0x22 else 0x27
  .scalar 'b' :: .ofNat quote.toNat :: bytes.flatMap (quotedByte quote) ++ [.ofNat quote.toNat]

end Bytes

namespace Scalar

def number? : Scalar → Option Number
  | .bool value => some (.int (if value then 1 else 0))
  | .int value => some (.int value)
  | .float value => some (.float value)
  | _ => none

def equals (a b : Scalar) : Bool :=
  match a.number?, b.number? with
  | some m, some n => m.equals n
  | some _, none => false
  | none, some _ => false
  | none, none =>
      match a, b with
      | .moment m, .moment n => m.equals n
      | a, b => decide (a = b)

/-- Empty texts, zero and the absent value count as false. -/
def isTrue : Scalar → Bool
  | .null => false
  | .bool value => value
  | .int value => value ≠ 0
  | .float value => !value.isZero
  | .text value => !value.isEmpty
  | .bytes value => !value.isEmpty
  | .date _ => true
  | .moment _ => true

/-- The text that stands for the scalar inside a list or mapping. -/
def quoted : Scalar → Text
  | .null => "None"
  | .bool true => "True"
  | .bool false => "False"
  | .int value => Text.ofInt value
  | .float value => value.text
  | .text value => value.quoted
  | .bytes value => Bytes.quoted value
  | .date value => value.quoted
  | .moment value => value.quoted

/-- The text that stands for the scalar on its own. -/
def display : Scalar → Text
  | .text value => value
  | .date value => value.text
  | .moment value => value.text
  | other => other.quoted

/-- The name of the kind of value, as messages use it. -/
def typeName : Scalar → Text
  | .null => "NoneType"
  | .bool _ => "bool"
  | .int _ => "int"
  | .float _ => "float"
  | .text _ => "str"
  | .bytes _ => "bytes"
  | .date _ => "datetime.date"
  | .moment _ => "datetime.datetime"

end Scalar

end Stencil
