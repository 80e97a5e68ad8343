import Stencil.Template.Filter
import Stencil.Template.Syntax.Check
import Stencil.Template.Syntax.Parse
import Stencil.Template.Token.Scan
import Stencil.Value.Basic

/-!
# Rendering templates

`Template.render` fills a template with variables.  Variables live in scopes:
the body of a loop has a new one in every pass, a choice has none of its own.
`Template.renderOrKeep` never fails: a template that cannot be rendered is its
own result, together with the fault.
-/

namespace Stencil

namespace Template

/-! ## State -/

/-- Scopes from the innermost outward, loops so far, and what `loop.changed` saw last. -/
structure Env where
  scopes : List (List (Text × Object))
  loops : Nat
  seen : List (Nat × List Object)
  blockText : Text

abbrev Eval := StateT Env Rendering

namespace Eval

def lift {α : Type} (result : Rendering α) : Eval α := fun env => result.map fun a => (a, env)

def fail {α : Type} (fault : RenderFault) : Eval α := lift (.error fault)

def find? (scopes : List (List (Text × Object))) (name : Text) : Option Object :=
  scopes.findSome? (·.lookup name)

def lookUp (name : Text) : Eval Object := do
  return (find? (← get).scopes name).getD (.undefined (.variable name))

private def put (scope : List (Text × Object)) (name : Text) (object : Object) :
    List (Text × Object) :=
  (name, object) :: scope.filter fun entry => decide (entry.1 ≠ name)

/-- Assigns in the innermost scope. -/
def assign (name : Text) (object : Object) : Eval Unit :=
  modify fun env =>
    match env.scopes with
    | [] => { env with scopes := [[(name, object)]] }
    | scope :: scopes => { env with scopes := put scope name object :: scopes }

/-- Changes a variable where it lives. -/
def reassign (name : Text) (object : Object) : Eval Unit :=
  modify fun env => { env with scopes := go env.scopes }
where
  go : List (List (Text × Object)) → List (List (Text × Object))
    | [] => []
    | scope :: scopes =>
        if (scope.lookup name).isSome then put scope name object :: scopes else scope :: go scopes

/-- Runs with a scope of its own. -/
def inScope {α : Type} (action : Eval α) : Eval α := do
  modify fun env => { env with scopes := [] :: env.scopes }
  let result ← action
  modify fun env => { env with scopes := env.scopes.tail }
  return result

/-- Runs with the outermost scopes alone, those of the template and its variables. -/
def inTemplateScope {α : Type} (action : Eval α) : Eval α := do
  let scopes := (← get).scopes
  modify fun env => { env with scopes := [] :: scopes.drop (scopes.length - 2) }
  let result ← action
  modify fun env => { env with scopes := scopes }
  return result

/-! ## Targets -/

private def unpack (count : Nat) (object : Object) : Rendering (List Object) :=
  match object.members with
  | .ok items =>
      if items.length < count then .error (.unpackFew count items.length)
      else if count < items.length then .error (.unpackMany count)
      else .ok items
  | .error (.notIterable type) => .error (.unpackSingle type)
  | .error fault => .error fault

mutual

def assignTarget : Target → Object → Eval Unit
  | .name name, object => assign name object
  | .member _ _, _ => fail .noNamespace
  | .tuple targets, object => do
      let items ← lift (unpack targets.length object)
      assignTargets targets items

def assignTargets : List Target → List Object → Eval Unit
  | target :: targets, item :: items => do
      assignTarget target item
      assignTargets targets items
  | _, _ => return ()

end

/-! ## Expressions -/

/-- Whether new arguments differ from those that the loop saw last. -/
private def changed (serial : Nat) (arguments : List Object) : Eval Object := do
  let env ← get
  match env.seen.lookup serial with
  | some last =>
      if Object.equalAll last arguments then return .bool false
      else
        set { env with seen := (serial, arguments) :: env.seen }
        return .bool true
  | none =>
      set { env with seen := (serial, arguments) :: env.seen }
      return .bool true

private def callObject (callee : Object) (arguments : CallArguments) : Eval Object :=
  match callee with
  | .method (.loop serial index items) name =>
      if name = ("changed" : Text) then changed serial arguments.positional
      else lift (Object.call (.method (.loop serial index items) name) arguments)
  | callee => lift (callee.call arguments)

private def spread (arguments : CallArguments) (object : Object) : Rendering CallArguments :=
  match object.members with
  | .ok items => .ok { arguments with positional := arguments.positional ++ items }
  | .error _ =>
      .error (.invalid (("Value after * must be an iterable, not " : Text) ++ object.typeName))

private def spreadNamed (arguments : CallArguments) (object : Object) : Rendering CallArguments :=
  match object with
  | .map entries =>
      .ok { arguments with
        named := arguments.named ++ entries.map fun (key, value) => (key.display, value) }
  | object =>
      .error (.invalid (("argument after ** must be a mapping, not " : Text) ++ object.typeName))

private def mapOf (pairs : List (Object × Object)) : Rendering Object := do
  let entries ← pairs.foldlM (fun entries (key, value) =>
    if key.isHashable then .ok (Object.insert entries key value)
    else .error (.unhashable key.typeName)) []
  return .map entries

/-- Applies a filter that need not exist. -/
private def applyFilter (name : Text) (arguments : CallArguments) : Rendering Object :=
  (Filter.perform? name arguments).getD (.error (.unknownFilter name))

private def applyTest (name : Text) (arguments : CallArguments) : Rendering Object :=
  match Condition.perform? name arguments with
  | some result => Object.bool <$> result
  | none => .error (.unknownTest name)

/-- A call of a method that changes a variable stores what the variable becomes. -/
private def storeChange (callee : Expr) (receiver : Object) (arguments : CallArguments) :
    Eval Unit :=
  match callee, receiver with
  | .member (.name variableName) _, .method object method =>
      match object.changed? method arguments with
      | some changed => reassign variableName changed
      | none => return ()
  | _, _ => return ()

mutual

def eval : Expr → Eval Object
  | .constant value => return .scalar value
  | .name name => lookUp name
  | .blockText => return .text (← get).blockText
  | .list items => return .list (← evalAll items)
  | .tuple items => return .tuple (← evalAll items)
  | .map entries => do lift (mapOf (← evalPairs entries))
  | .member base name => do lift ((← eval base).memberNamed name)
  | .item base (.slice start stop step) => do
      let object ← eval base
      let start ← evalOption start
      let stop ← evalOption stop
      let step ← evalOption step
      lift (object.slice start stop step)
  | .item base index => do
      let object ← eval base
      let key ← eval index
      lift (object.memberAt key)
  | .slice _ _ _ => return .null
  | .call callee arguments => do
      let function ← eval callee
      let values ← evalArguments arguments ⟨[], []⟩
      let result ← callObject function values
      storeChange callee function values
      return result
  | .filter base name arguments => do
      let object ← eval base
      lift (applyFilter name (← evalArguments arguments ⟨[object], []⟩))
  | .test base name arguments => do
      let object ← eval base
      lift (applyTest name (← evalArguments arguments ⟨[object], []⟩))
  | .negative operand => do lift (← eval operand).negative
  | .positive operand => do lift (← eval operand).positive
  | .not operand => return .bool !(← eval operand).isTrue
  | .and left right => do
      let object ← eval left
      if object.isTrue then eval right else return object
  | .or left right => do
      let object ← eval left
      if object.isTrue then return object else eval right
  | .binary op left right => do
      let a ← eval left
      let b ← eval right
      lift (Object.binary op a b)
  | .concat parts => return .text ((← evalAll parts).flatMap Object.display)
  | .compare first others => do
      let object ← eval first
      evalComparisons object others
  | .conditional test yes (some no) _ => do
      if (← eval test).isTrue then eval yes else eval no
  | .conditional test yes none line => do
      if (← eval test).isTrue then eval yes
      else
        return .undefined (.remark (("the inline if-expression on line " : Text) ++
          Text.ofNat line ++ (" evaluated to false and no else section was defined." : Text)))

def evalAll : List Expr → Eval (List Object)
  | [] => return []
  | item :: items => do
      let object ← eval item
      return object :: (← evalAll items)

def evalPairs : List (Expr × Expr) → Eval (List (Object × Object))
  | [] => return []
  | (key, value) :: entries => do
      let keyObject ← eval key
      let object ← eval value
      return (keyObject, object) :: (← evalPairs entries)

def evalOption : Option Expr → Eval (Option Object)
  | none => return none
  | some value => return some (← eval value)

/-- A chain of comparisons holds when all of them do; it stops at the first that fails. -/
def evalComparisons : Object → List (Comparison × Expr) → Eval Object
  | _, [] => return .bool true
  | object, (op, operand) :: others => do
      let other ← eval operand
      if ← lift (Object.comparison op object other) then evalComparisons other others
      else return .bool false

def evalArguments : List Argument → CallArguments → Eval CallArguments
  | [], before => return before
  | argument :: arguments, before => do
      let after ← evalArgument argument before
      evalArguments arguments after

def evalArgument : Argument → CallArguments → Eval CallArguments
  | .positional value, before => do
      let object ← eval value
      return { before with positional := before.positional ++ [object] }
  | .named name value, before => do
      let object ← eval value
      return { before with named := before.named ++ [(name, object)] }
  | .spread values, before => do lift (spread before (← eval values))
  | .spreadNamed values, before => do lift (spreadNamed before (← eval values))

end

/-! ## Statements -/

/-- What the text of a block becomes by a chain of filters. -/
private def filterText (filters : Expr) (text : Text) : Eval Object := do
  let outer := (← get).blockText
  modify fun env => { env with blockText := text }
  let result ← eval filters
  modify fun env => { env with blockText := outer }
  return result

private def printable (object : Object) : Rendering Text :=
  match object.text? with
  | some text => .ok text
  | none =>
      .error (.invalid (("sequence item 0: expected str instance, " : Text) ++ object.typeName ++
        (" found" : Text)))

/-- The fault of a template that names another one. -/
private def loadFault (object : Object) : RenderFault :=
  match object with
  | .undefined origin => .absent origin
  | object =>
      if object.text?.isSome then .noLoader
      else if !object.isTrue then
        .invalid "Tried to select from an empty list of templates."
      else
        match object.members with
        | .ok _ => .noLoader
        | .error fault => fault

private def assignAll (bindings : List (Target × Expr)) (objects : List Object) : Eval Unit :=
  assignTargets (bindings.map (·.1)) objects

/-- The members of a loop that pass its test. -/
private def passing (target : Target) (test : Option Expr) (items : List Object) :
    Eval (List Object) :=
  match test with
  | none => return items
  | some test =>
      items.filterM fun item => inScope do
        assignTarget target item
        return (← eval test).isTrue

mutual

def run : Statement → Eval Text
  | .data text => return text
  | .print value => return (← eval value).display
  | .assign (.member _ _) _ => fail .noNamespace
  | .assign target value => do
      let object ← eval value
      assignTarget target object
      return []
  | .assignBlock target filters body => do
      let object ← inScope do
        let text ← runAll body
        filterText filters text
      assignTarget target object
      return []
  | .forEach target source test body otherwise => do
      let items ← lift (← eval source).members
      let items ← passing target test items
      if items.isEmpty then inScope (runAll otherwise)
      else
        let serial := (← get).loops
        modify fun env => { env with loops := serial + 1 }
        let texts ← items.zipIdx.mapM fun (item, index) => inScope do
          assignTarget target item
          assign "loop" (.loop serial index items)
          runAll body
        return texts.flatten
  | .choice branches otherwise => do
      match ← runBranches branches with
      | some text => return text
      | none => runAll otherwise
  | .scope bindings body => do
      let objects ← evalAll (bindings.map (·.2))
      inScope do
        assignAll bindings objects
        runAll body
  | .filterBlock filters body => inScope do
      let text ← runAll body
      lift (printable (← filterText filters text))
  | .block _ body => inTemplateScope (runAll body)
  | .load template => do
      let _ ← eval template
      fail .noLoader
  | .loadAny template => do fail (loadFault (← eval template))

def runAll : List Statement → Eval Text
  | [] => return []
  | statement :: statements => do
      let text ← run statement
      return text ++ (← runAll statements)

/-- The text of the first branch whose test holds. -/
def runBranches : List (Expr × List Statement) → Eval (Option Text)
  | [] => return none
  | (test, body) :: branches => do
      if (← eval test).isTrue then return some (← runAll body) else runBranches branches

end

end Eval

/-! ## Templates -/

inductive TemplateFault where
  | syntactic (fault : SyntaxFault)
  | evaluation (fault : RenderFault)
  deriving DecidableEq, Repr

namespace TemplateFault

def message : TemplateFault → Text
  | .syntactic fault => fault.message
  | .evaluation fault => fault.message

end TemplateFault

def vocabulary : Vocabulary := ⟨Filter.isKnown, Condition.isKnown⟩

/-- The checked statements of a template. -/
def compile (template : Text) : Except SyntaxFault (List Statement) := do
  let statements ← Statement.parse (Token.scan template)
  vocabulary.check statements
  return statements

def initialEnv (vars : Variables) : Env :=
  let known := vars.map fun (name, value) => (name, Object.ofValue value)
  ⟨[[], known ++ Object.globals], 0, [], []⟩

/-- A template filled with variables. -/
def render (template : Text) (vars : Variables) : Except TemplateFault Text :=
  match compile template with
  | .error fault => .error (.syntactic fault)
  | .ok statements =>
      match StateT.run (Eval.runAll statements) (initialEnv vars) with
      | .ok (text, _) => .ok text
      | .error fault => .error (.evaluation fault)

/-- A rendered text, or an unchanged one and the fault that kept it from being rendered. -/
structure Rendered where
  content : Text
  fault : Option TemplateFault

namespace Rendered

/-- The warning that a fault gives rise to. -/
def warning? (r : Rendered) : Option Text :=
  r.fault.map fun fault => ("Template rendering error: " : Text) ++ fault.message

end Rendered

def renderOrKeep (template : Text) (vars : Variables) : Rendered :=
  match render template vars with
  | .ok text => ⟨text, none⟩
  | .error fault => ⟨template, some fault⟩

/-- Whether the text holds the marks of a tag in order: a cheap sign of a template. -/
def hasPlaceholder (text : Text) : Bool :=
  between "\x7b\x7b" "\x7d\x7d" || between "\x7b%" "%\x7d"
where
  between (opening closing : Text) : Bool :=
    match Text.cut opening text with
    | some (_, rest) => Text.contains closing rest
    | none => false

end Template

end Stencil
