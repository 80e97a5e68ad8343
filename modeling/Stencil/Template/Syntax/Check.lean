import Stencil.Template.Syntax
import Stencil.Template.Token

/-!
# Names that have to be known

Every filter and every test must be known before a template is rendered, except
inside a choice: there an unknown name matters only once it is reached.  A body
with variables of its own, such as that of a loop, is checked strictly again.
No loop may assign the variable that describes it.
-/

namespace Stencil.Template

/-- The names of the filters and tests that there are. -/
structure Vocabulary where
  hasFilter : Text → Bool
  hasTest : Text → Bool

namespace Vocabulary

private def require (isKnown : Bool) (fault : SyntaxFault) (strict : Bool) :
    Except SyntaxFault Unit :=
  if strict && !isKnown then .error fault else .ok ()

/-- Whether a constant alone decides an alternative or conjunction. -/
private def isConstant (truth : Bool) : Expr → Bool
  | .constant value => value.isTrue = truth
  | _ => false

mutual

def checkExpr (v : Vocabulary) (strict : Bool) : Expr → Except SyntaxFault Unit
  | .constant _ => .ok ()
  | .name _ => .ok ()
  | .blockText => .ok ()
  | .list items => v.checkExprs strict items
  | .tuple items => v.checkExprs strict items
  | .map entries => v.checkPairs strict entries
  | .member base _ => v.checkExpr strict base
  | .item base index => do
      v.checkExpr strict base
      v.checkExpr strict index
  | .slice start stop step => do
      v.checkOption strict start
      v.checkOption strict stop
      v.checkOption strict step
  | .call callee arguments => do
      v.checkExpr strict callee
      v.checkArguments strict arguments
  | .filter base name arguments => do
      require (v.hasFilter name) (.filterName name) strict
      v.checkExpr strict base
      v.checkArguments strict arguments
  | .test base name arguments => do
      require (v.hasTest name) (.testName name) strict
      v.checkExpr strict base
      v.checkArguments strict arguments
  | .negative operand => v.checkExpr strict operand
  | .positive operand => v.checkExpr strict operand
  | .not operand => v.checkExpr strict operand
  | .and left right =>
      if isConstant false left then .ok ()
      else do
        v.checkExpr strict left
        v.checkExpr strict right
  | .or left right =>
      if isConstant true left then .ok ()
      else do
        v.checkExpr strict left
        v.checkExpr strict right
  | .binary _ left right => do
      v.checkExpr strict left
      v.checkExpr strict right
  | .concat parts => v.checkExprs strict parts
  | .compare first others => do
      v.checkExpr strict first
      v.checkComparisons strict others
  | .conditional _ _ _ _ => .ok ()

def checkExprs (v : Vocabulary) (strict : Bool) : List Expr → Except SyntaxFault Unit
  | [] => .ok ()
  | item :: items => do
      v.checkExpr strict item
      v.checkExprs strict items

def checkPairs (v : Vocabulary) (strict : Bool) : List (Expr × Expr) → Except SyntaxFault Unit
  | [] => .ok ()
  | (key, value) :: entries => do
      v.checkExpr strict key
      v.checkExpr strict value
      v.checkPairs strict entries

def checkComparisons (v : Vocabulary) (strict : Bool) :
    List (Comparison × Expr) → Except SyntaxFault Unit
  | [] => .ok ()
  | (_, operand) :: others => do
      v.checkExpr strict operand
      v.checkComparisons strict others

def checkOption (v : Vocabulary) (strict : Bool) : Option Expr → Except SyntaxFault Unit
  | none => .ok ()
  | some value => v.checkExpr strict value

def checkArgument (v : Vocabulary) (strict : Bool) : Argument → Except SyntaxFault Unit
  | .positional value => v.checkExpr strict value
  | .named _ value => v.checkExpr strict value
  | .spread values => v.checkExpr strict values
  | .spreadNamed values => v.checkExpr strict values

def checkArguments (v : Vocabulary) (strict : Bool) : List Argument → Except SyntaxFault Unit
  | [] => .ok ()
  | argument :: arguments => do
      v.checkArgument strict argument
      v.checkArguments strict arguments

end

/-! ## Assigned variables -/

mutual

/-- The variables that a statement assigns, in the bodies below it too. -/
def assigned : Statement → List Text
  | .data _ => []
  | .print _ => []
  | .assign target _ => target.names
  | .assignBlock target _ body => target.names ++ assignedAll body
  | .forEach target _ _ body otherwise =>
      target.names ++ assignedAll body ++ assignedAll otherwise
  | .choice branches otherwise => assignedBranches branches ++ assignedAll otherwise
  | .scope _ body => assignedAll body
  | .filterBlock _ body => assignedAll body
  | .block _ body => assignedAll body
  | .load _ => []
  | .loadAny _ => []

def assignedAll : List Statement → List Text
  | [] => []
  | statement :: statements => assigned statement ++ assignedAll statements

def assignedBranches : List (Expr × List Statement) → List Text
  | [] => []
  | (_, body) :: branches => assignedAll body ++ assignedBranches branches

end

/-! ## Statements -/

mutual

def checkStatement (v : Vocabulary) (strict : Bool) : Statement → Except SyntaxFault Unit
  | .data _ => .ok ()
  | .print value => v.checkExpr strict value
  | .assign _ value => v.checkExpr strict value
  | .assignBlock _ filters body => do
      v.checkStatements true body
      v.checkExpr true filters
  | .forEach target source test body otherwise => do
      v.checkOption true test
      if (target.names ++ assignedAll body ++ assignedAll otherwise).contains ("loop" : Text) then
        .error .loopTarget
      v.checkExpr strict source
      v.checkStatements true body
      v.checkStatements true otherwise
  | .choice branches otherwise => do
      v.checkBranches branches
      v.checkStatements false otherwise
  | .scope bindings body => do
      v.checkExprs strict (bindings.map (·.2))
      v.checkStatements true body
  | .filterBlock filters body => do
      v.checkStatements true body
      v.checkExpr true filters
  | .block _ _ => .ok ()
  | .load template => v.checkExpr strict template
  | .loadAny template => v.checkExpr strict template

def checkStatements (v : Vocabulary) (strict : Bool) :
    List Statement → Except SyntaxFault Unit
  | [] => .ok ()
  | statement :: statements => do
      v.checkStatement strict statement
      v.checkStatements strict statements

def checkBranches (v : Vocabulary) :
    List (Expr × List Statement) → Except SyntaxFault Unit
  | [] => .ok ()
  | (test, body) :: branches => do
      v.checkExpr false test
      v.checkStatements false body
      v.checkBranches branches

end

/-! ## Blocks -/

mutual

/-- The named blocks of a statement with their bodies, outer ones first. -/
def blocks : Statement → List (Text × List Statement)
  | .block name body => (name, body) :: blocksOfAll body
  | .assignBlock _ _ body => blocksOfAll body
  | .forEach _ _ _ body otherwise => blocksOfAll body ++ blocksOfAll otherwise
  | .choice branches otherwise => blocksOfBranches branches ++ blocksOfAll otherwise
  | .scope _ body => blocksOfAll body
  | .filterBlock _ body => blocksOfAll body
  | _ => []

def blocksOfAll : List Statement → List (Text × List Statement)
  | [] => []
  | statement :: statements => blocks statement ++ blocksOfAll statements

def blocksOfBranches : List (Expr × List Statement) → List (Text × List Statement)
  | [] => []
  | (_, body) :: branches => blocksOfAll body ++ blocksOfBranches branches

end

private def repeated? : List Text → Option Text
  | [] => none
  | name :: names =>
      match repeated? names with
      | some other => some other
      | none => if names.contains name then some name else none

/-- Checks a whole template: its statements first, then the bodies of its blocks. -/
def check (v : Vocabulary) (statements : List Statement) : Except SyntaxFault Unit := do
  let found := blocksOfAll statements
  match repeated? (found.map (·.1)) with
  | some name => .error (.blockTwice name)
  | none => .ok ()
  v.checkStatements true statements
  found.forM fun (_, body) => v.checkStatements true body

end Vocabulary

end Stencil.Template
