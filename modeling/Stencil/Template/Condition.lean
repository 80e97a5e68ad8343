import Stencil.Template.Signature

/-!
# Tests

What `is` can ask of an object.  A test is a signature and a rule on the bound
arguments, the object under test first.
-/

namespace Stencil.Template

structure Condition where
  signature : Signature
  holds : List (Option Object) → Rendering Bool

namespace Condition

private def nth (arguments : List (Option Object)) (k : Nat) : Object :=
  ((arguments[k]?).join).getD .null

private def unaryNamed (label : String) (rule : Object → Rendering Bool) : Condition :=
  ⟨⟨label, 0, required ["value"]⟩, fun arguments => rule (nth arguments 0)⟩

private def binaryNamed (label second : String) (rule : Object → Object → Rendering Bool) :
    Condition :=
  ⟨⟨label, 0, required ["value", second]⟩,
    fun arguments => rule (nth arguments 0) (nth arguments 1)⟩

private def plain (label : String) (rule : Object → Bool) : Condition :=
  unaryNamed label fun object => .ok (rule object)

private def remainderIs (divisor : Object) (remainder : Int) (object : Object) : Rendering Bool :=
  (·.equals (.int remainder)) <$> Object.binary .mod object divisor

private def isBool : Object → Bool
  | .bool _ => true
  | _ => false

private def isInteger : Object → Bool
  | .int _ => true
  | _ => false

private def isFloat : Object → Bool
  | .float _ => true
  | _ => false

private def isMapping : Object → Bool
  | .map _ => true
  | _ => false

private def isSafe : Object → Bool
  | .safe _ => true
  | _ => false

private def isCallable : Object → Bool
  | .method _ _ => true
  | .function _ => true
  | .undefined _ => true
  | .loop _ _ _ => true
  | _ => false

private def isSequence : Object → Bool
  | .set _ => false
  | .view _ _ => false
  | .stream _ _ _ => false
  | .loop _ _ _ => false
  | object =>
      match object.length with
      | .ok _ => true
      | .error _ => false

private def isIterable (object : Object) : Bool :=
  match object with
  | .stream _ _ _ => true
  | .loop _ _ _ => true
  | object =>
      match object.members with
      | .ok _ => true
      | .error _ => false

/-- Objects of one kind that are equal count as the same. -/
private def isSame (a b : Object) : Bool := decide (a.typeName = b.typeName) && a.equals b

private def comparing (label : String) (op : Comparison) : Condition :=
  binaryNamed label "b" (Object.comparison op)

/-- The tests that need no other names. -/
def table : List (String × Condition) :=
  [("odd", unaryNamed "test_odd" (remainderIs (.int 2) 1)),
    ("even", unaryNamed "test_even" (remainderIs (.int 2) 0)),
    ("divisibleby", binaryNamed "test_divisibleby" "num" fun a b => remainderIs b 0 a),
    ("defined", plain "test_defined" (!·.isUndefined)),
    ("undefined", plain "test_undefined" Object.isUndefined),
    ("none", plain "test_none" (·.equals .null)),
    ("boolean", plain "test_boolean" isBool),
    ("true", plain "test_true" fun a => isSame a (.bool true)),
    ("false", plain "test_false" fun a => isSame a (.bool false)),
    ("integer", plain "test_integer" isInteger),
    ("float", plain "test_float" isFloat),
    ("number", plain "test_number" fun a => a.number?.isSome),
    ("string", plain "test_string" fun a => a.text?.isSome),
    ("lower", plain "test_lower" fun a => TextMethod.isLowerText a.display),
    ("upper", plain "test_upper" fun a => TextMethod.isUpperText a.display),
    ("mapping", plain "test_mapping" isMapping),
    ("sequence", plain "test_sequence" isSequence),
    ("iterable", plain "test_iterable" isIterable),
    ("callable", plain "callable" isCallable),
    ("escaped", plain "test_escaped" isSafe),
    ("sameas", binaryNamed "test_sameas" "other" fun a b => .ok (isSame a b)),
    ("in", binaryNamed "test_in" "seq" Object.isIn),
    ("==", comparing "eq" .eq), ("eq", comparing "eq" .eq), ("equalto", comparing "eq" .eq),
    ("!=", comparing "ne" .ne), ("ne", comparing "ne" .ne),
    (">", comparing "gt" .gt), ("gt", comparing "gt" .gt), ("greaterthan", comparing "gt" .gt),
    (">=", comparing "ge" .ge), ("ge", comparing "ge" .ge),
    ("<", comparing "lt" .lt), ("lt", comparing "lt" .lt), ("lessthan", comparing "lt" .lt),
    ("<=", comparing "le" .le), ("le", comparing "le" .le)]

end Condition

end Stencil.Template
