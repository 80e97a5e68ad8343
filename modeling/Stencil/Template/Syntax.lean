import Stencil.Value.Scalar

/-!
# Syntax of templates

Expressions and statements as they are written.  A chain of filters that works
on the text of a block has `Expr.blockText` at its root.
-/

namespace Stencil.Template

inductive BinaryOp where
  | add
  | sub
  | mul
  | div
  | floorDiv
  | mod
  | pow
  deriving DecidableEq, Repr

inductive Comparison where
  | eq
  | ne
  | lt
  | le
  | gt
  | ge
  | isIn
  | notIn
  deriving DecidableEq, Repr

mutual

inductive Expr where
  | constant (value : Scalar)
  | name (name : Text)
  | blockText
  | list (items : List Expr)
  | tuple (items : List Expr)
  | map (entries : List (Expr × Expr))
  | member (base : Expr) (name : Text)
  | item (base index : Expr)
  | slice (start stop step : Option Expr)
  | call (callee : Expr) (arguments : List Argument)
  | filter (base : Expr) (name : Text) (arguments : List Argument)
  | test (base : Expr) (name : Text) (arguments : List Argument)
  | negative (operand : Expr)
  | positive (operand : Expr)
  | not (operand : Expr)
  | and (left right : Expr)
  | or (left right : Expr)
  | binary (op : BinaryOp) (left right : Expr)
  | concat (parts : List Expr)
  | compare (first : Expr) (others : List (Comparison × Expr))
  | conditional (test yes : Expr) (no : Option Expr) (line : Nat)

inductive Argument where
  | positional (value : Expr)
  | named (name : Text) (value : Expr)
  | spread (values : Expr)
  | spreadNamed (values : Expr)

end

/-- What an assignment names: a variable, several at once, or a member of an object. -/
inductive Target where
  | name (name : Text)
  | tuple (targets : List Target)
  | member (object member : Text)
  deriving Repr

inductive Statement where
  | data (text : Text)
  | print (value : Expr)
  | assign (target : Target) (value : Expr)
  | assignBlock (target : Target) (filters : Expr) (body : List Statement)
  | forEach (target : Target) (source : Expr) (test : Option Expr) (body otherwise : List Statement)
  | choice (branches : List (Expr × List Statement)) (otherwise : List Statement)
  | scope (bindings : List (Target × Expr)) (body : List Statement)
  | filterBlock (filters : Expr) (body : List Statement)
  | block (name : Text) (body : List Statement)
  | load (template : Expr)
  | loadAny (template : Expr)

namespace Expr

/-- How messages call the kind of an expression. -/
def kind : Expr → Text
  | .constant _ => "const"
  | .name _ => "name"
  | .blockText => "const"
  | .list _ => "list"
  | .tuple _ => "tuple"
  | .map _ => "dict"
  | .member _ _ => "getattr"
  | .item _ _ => "getitem"
  | .slice _ _ _ => "slice"
  | .call _ _ => "call"
  | .filter _ _ _ => "filter"
  | .test _ _ _ => "test"
  | .negative _ => "neg"
  | .positive _ => "pos"
  | .not _ => "not"
  | .and _ _ => "and"
  | .or _ _ => "or"
  | .binary .add _ _ => "add"
  | .binary .sub _ _ => "sub"
  | .binary .mul _ _ => "mul"
  | .binary .div _ _ => "div"
  | .binary .floorDiv _ _ => "floordiv"
  | .binary .mod _ _ => "mod"
  | .binary .pow _ _ => "pow"
  | .concat _ => "concat"
  | .compare _ _ => "compare"
  | .conditional _ _ _ _ => "condexpr"

end Expr

namespace Target

mutual

/-- The target that an expression spells, if it spells one. -/
def ofExpr? : Expr → Option Target
  | .name word => some (.name word)
  | .tuple items => (ofExprs? items).map .tuple
  | _ => none

def ofExprs? : List Expr → Option (List Target)
  | [] => some []
  | item :: items =>
      match ofExpr? item, ofExprs? items with
      | some target, some targets => some (target :: targets)
      | _, _ => none

end

mutual

/-- The variables that the target assigns. -/
def names : Target → List Text
  | .name word => [word]
  | .tuple targets => namesOfAll targets
  | .member _ _ => []

def namesOfAll : List Target → List Text
  | [] => []
  | target :: targets => target.names ++ namesOfAll targets

end

end Target

end Stencil.Template
