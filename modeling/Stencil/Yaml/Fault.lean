import Stencil.Text.Quoted
import Stencil.Value.Calendar

/-!
# Faults of YAML documents

The first five kinds are about the document: its characters, its tokens, their
order, anchors and the number of documents, tags and keys.  The others arise
where a scalar has to become a value that it does not spell.
-/

namespace Stencil.Yaml

inductive Fault where
  | character
  | token
  | form
  | composition
  | construction
  | integer (base : Nat) (spelling : Text)
  | hugeInteger (digits : Nat)
  | number (spelling : Text)
  | calendar (error : CalendarError)
  | noDate
  | truth (word : Text)
  | emptyNumber
  | codePoint (code : Nat)
  deriving DecidableEq, Repr

namespace Fault

/-- Whether the document itself is at fault. -/
def isOfDocument : Fault → Bool
  | .character | .token | .form | .composition | .construction => true
  | _ => false

/-- Whether a scalar spells no value of its kind. -/
def isOfValue : Fault → Bool
  | .integer _ _ | .hugeInteger _ | .number _ | .calendar _ => true
  | .codePoint code => decide (code < Nat.pow 2 31)
  | _ => false

def message : Fault → Text
  | .integer base spelling =>
      ("invalid literal for int() with base " : Text) ++ Text.ofNat base ++ (": " : Text) ++
        spelling.quoted
  | .hugeInteger digits =>
      ("Exceeds the limit (4300 digits) for integer string conversion: value has " : Text) ++
        Text.ofNat digits ++
        (" digits; use sys.set_int_max_str_digits() to increase the limit" : Text)
  | .number spelling => ("could not convert string to float: " : Text) ++ spelling.quoted
  | .calendar error => error.message
  | .noDate => "'NoneType' object has no attribute 'groupdict'"
  | .truth word => word.quoted
  | .emptyNumber => "string index out of range"
  | .codePoint code =>
      if code < Nat.pow 2 31 then "chr() arg not in range(0x110000)"
      else "Python int too large to convert to C int"
  | _ => "<yaml error>"

end Fault

end Stencil.Yaml
