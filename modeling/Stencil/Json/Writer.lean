import Stencil.Value.Basic

/-!
# Writing JSON

`Json.write` lays a value out over lines with two blanks of indent.  Only
quotes, backslashes and control characters are escaped.  Values that JSON does
not know are written as their text.
-/

namespace Stencil.Json

def escapeOf (c : CodePoint) : Text :=
  match c with
  | .scalar '\x22' => "\\\""
  | .scalar '\\' => "\\\\"
  | .scalar '\n' => "\\n"
  | .scalar '\r' => "\\r"
  | .scalar '\t' => "\\t"
  | .scalar '\x0c' => "\\f"
  | .scalar '\x08' => "\\b"
  | c => if c.toNat < 0x20 then ("\\u" : Text) ++ Text.ofNatIn 16 4 c.toNat else [c]

def writeText (text : Text) : Text :=
  .scalar '\x22' :: text.flatMap escapeOf ++ [.scalar '\x22']

def floatText (x : Binary64) : Text :=
  if x.isNaN then "NaN"
  else if x.isInfinite then (if x.isNegative then "-Infinity" else "Infinity")
  else x.text

/-- The word or number of a scalar, for the scalars that JSON knows. -/
def bare? : Scalar → Option Text
  | .null => some "null"
  | .bool true => some "true"
  | .bool false => some "false"
  | .int n => some (Text.ofInt n)
  | .float x => some (floatText x)
  | _ => none

def writeScalar (s : Scalar) : Text := (bare? s).getD (writeText s.display)

def writeKey (s : Scalar) : Text := writeText ((bare? s).getD s.display)

def newline (depth : Nat) : Text :=
  .scalar '\n' :: List.replicate (2 * depth) (.scalar ' ')

/-- Parts on lines of their own between brackets; `depth` is that of the closing bracket. -/
def block (opening closing : Char) (depth : Nat) (parts : List Text) : Text :=
  if parts.isEmpty then [.scalar opening, .scalar closing]
  else
    .scalar opening :: newline (depth + 1) ++
      Text.joinWith (.scalar ',' :: newline (depth + 1)) parts ++ newline depth ++
      [.scalar closing]

mutual

def writeAt (depth : Nat) : Value → Text
  | .scalar s => writeScalar s
  | .list items => block '[' ']' depth (writeItems (depth + 1) items)
  | .tuple items => block '[' ']' depth (writeItems (depth + 1) items)
  | .set items => writeText (Value.set items).quoted
  | .map entries => block '\x7b' '\x7d' depth (writeEntries (depth + 1) entries)

def writeItems (depth : Nat) : List Value → List Text
  | [] => []
  | item :: items => writeAt depth item :: writeItems depth items

def writeEntries (depth : Nat) : List (Scalar × Value) → List Text
  | [] => []
  | (key, item) :: entries =>
      (writeKey key ++ (": " : Text) ++ writeAt depth item) :: writeEntries depth entries

end

def write (v : Value) : Text := writeAt 0 v

end Stencil.Json
