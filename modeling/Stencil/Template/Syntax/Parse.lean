import Stencil.Template.Syntax
import Stencil.Template.Token

/-!
# Reading the syntax of templates

`Statement.parse` reads the statements of a list of tokens.  Every function
takes a bound on the depth of the calls below it; `parse` gives one that the
number of tokens cannot exceed.  A fault among the tokens counts as soon as it
becomes the current token.
-/

namespace Stencil.Template

/-- What is left to read, the tags that are open, and the tags searched for, innermost first. -/
structure ParseState where
  lexemes : List Lexeme
  openTags : List Text
  searched : List (List Text)

abbrev Parser := StateT ParseState (Except SyntaxFault)

namespace Parser

/-! ## The current token -/

def current : Parser (Option Token) := do
  return (← get).lexemes.head?.map Lexeme.token

def line : Parser Nat := do
  return ((← get).lexemes.head?.map Lexeme.line).getD 1

def fail {α : Type} (cause : SyntaxFault) : Parser α := throw cause

/-- Stops at a fault that has become the current token. -/
def settle : Parser Unit := do
  match (← get).lexemes with
  | ⟨.fault cause, _⟩ :: _ => fail cause
  | _ => return ()

def advance : Parser Unit := do
  modify fun state => { state with lexemes := state.lexemes.tail }
  settle

/-- The token behind the current one. -/
def next : Parser (Option Token) := do
  match (← get).lexemes.tail with
  | ⟨.fault cause, _⟩ :: _ => fail cause
  | lexeme :: _ => return some lexeme.token
  | [] => return none

def describe (token : Option Token) : Text := (token.map Token.describe).getD "end of template"

def isAt (token : Token) : Parser Bool := do
  return decide ((← current) = some token)

def isOperator (symbol : String) : Parser Bool := isAt (.operator symbol)

def isWord (word : String) : Parser Bool := isAt (.name word)

def skip (token : Token) : Parser Bool := do
  if ← isAt token then
    advance
    return true
  else return false

def skipOperator (symbol : String) : Parser Bool := skip (.operator symbol)

def skipWord (word : String) : Parser Bool := skip (.name word)

def expected {α : Type} (what : Text) : Parser α := do
  match ← current with
  | none => fail (.end what)
  | some token => fail (.token what token.describe)

def expect (token : Token) : Parser Unit := do
  if ← isAt token then advance else expected token.describe

def expectOperator (symbol : String) : Parser Unit := expect (.operator symbol)

def expectWord (word : String) : Parser Unit := expect (.name word)

def expectName : Parser Text := do
  match ← current with
  | some (.name text) =>
      advance
      return text
  | _ => expected "name"

/-! ## Expressions -/

private def comparisonSymbols : List (String × Comparison) :=
  [("==", .eq), ("!=", .ne), ("<", .lt), ("<=", .le), (">", .gt), (">=", .ge)]

private def symbolOf? (token : Option Token) : Option String :=
  match token with
  | some (.operator symbol) => some symbol
  | _ => none

private def constantWord? (text : Text) : Option Scalar :=
  if text = ("true" : Text) ∨ text = ("True" : Text) then some (.bool true)
  else if text = ("false" : Text) ∨ text = ("False" : Text) then some (.bool false)
  else if text = ("none" : Text) ∨ text = ("None" : Text) then some .null
  else none

/-- Where a tuple without brackets ends: at the end of a tag, a closing bracket or a word. -/
def isTupleEnd (words : List String) : Parser Bool := do
  match ← current with
  | some .printEnd => return true
  | some .blockEnd => return true
  | some (.operator ")") => return true
  | some (.name text) => return words.any fun (word : String) => decide (text = Text.ofString word)
  | _ => return false

/-- Which expressions the parts of a tuple may be. -/
inductive PartForm where
  | primary
  | plain
  | full
  deriving DecidableEq

/-- Adjacent strings count as one. -/
def strings : Nat → Parser Text
  | 0 => return []
  | fuel + 1 => do
      match ← current with
      | some (.string text) =>
          advance
          return text ++ (← strings fuel)
      | _ => return []

def argumentsAllow (arguments : List Argument) (forbidden : Argument → Bool) :
    Parser Unit :=
  if arguments.any forbidden then fail .callForm else return ()

private def isSpread : Argument → Bool
  | .spread _ => true
  | .spreadNamed _ => true
  | _ => false

private def isSpreadNamed : Argument → Bool
  | .spreadNamed _ => true
  | _ => false

private def isPositional : Argument → Bool
  | .positional _ => true
  | _ => false

mutual

def expression : Nat → Parser Expr
  | 0 => fail .tooDeep
  | fuel + 1 => do
      let line ← line
      let first ← disjunction fuel
      conditionals fuel first line

def conditionals : Nat → Expr → Nat → Parser Expr
  | 0, _, _ => fail .tooDeep
  | fuel + 1, yes, line => do
      if ← skipWord "if" then
        let test ← disjunction fuel
        let no ← (do if ← skipWord "else" then return some (← expression fuel) else return none)
        let here ← Parser.line
        conditionals fuel (.conditional test yes no line) here
      else return yes

def disjunction : Nat → Parser Expr
  | 0 => fail .tooDeep
  | fuel + 1 => do
      let left ← conjunction fuel
      disjunctionFrom fuel left

def disjunctionFrom : Nat → Expr → Parser Expr
  | 0, _ => fail .tooDeep
  | fuel + 1, left => do
      if ← skipWord "or" then
        let right ← conjunction fuel
        disjunctionFrom fuel (.or left right)
      else return left

def conjunction : Nat → Parser Expr
  | 0 => fail .tooDeep
  | fuel + 1 => do
      let left ← negation fuel
      conjunctionFrom fuel left

def conjunctionFrom : Nat → Expr → Parser Expr
  | 0, _ => fail .tooDeep
  | fuel + 1, left => do
      if ← skipWord "and" then
        let right ← negation fuel
        conjunctionFrom fuel (.and left right)
      else return left

def negation : Nat → Parser Expr
  | 0 => fail .tooDeep
  | fuel + 1 => do
      if ← skipWord "not" then return .not (← negation fuel)
      else comparison fuel

def comparison : Nat → Parser Expr
  | 0 => fail .tooDeep
  | fuel + 1 => do
      let first ← sum fuel
      let others ← comparisons fuel
      return if others.isEmpty then first else .compare first others

def comparisons : Nat → Parser (List (Comparison × Expr))
  | 0 => fail .tooDeep
  | fuel + 1 => do
      let token ← current
      match (symbolOf? token).bind fun symbol => List.lookup symbol comparisonSymbols with
      | some comparison =>
          advance
          let operand ← sum fuel
          return (comparison, operand) :: (← comparisons fuel)
      | none =>
          if ← skipWord "in" then
            let operand ← sum fuel
            return (.isIn, operand) :: (← comparisons fuel)
          else if ← isWord "not" then
            if (← next) = some (.name "in") then
              advance
              advance
              let operand ← sum fuel
              return (.notIn, operand) :: (← comparisons fuel)
            else return []
          else return []

def sum : Nat → Parser Expr
  | 0 => fail .tooDeep
  | fuel + 1 => do
      let left ← concatenation fuel
      sumFrom fuel left

def sumFrom : Nat → Expr → Parser Expr
  | 0, _ => fail .tooDeep
  | fuel + 1, left => do
      if ← skipOperator "+" then
        let right ← concatenation fuel
        sumFrom fuel (.binary .add left right)
      else if ← skipOperator "-" then
        let right ← concatenation fuel
        sumFrom fuel (.binary .sub left right)
      else return left

def concatenation : Nat → Parser Expr
  | 0 => fail .tooDeep
  | fuel + 1 => do
      let first ← product fuel
      let others ← concatenated fuel
      return if others.isEmpty then first else .concat (first :: others)

def concatenated : Nat → Parser (List Expr)
  | 0 => fail .tooDeep
  | fuel + 1 => do
      if ← skipOperator "~" then
        let part ← product fuel
        return part :: (← concatenated fuel)
      else return []

def product : Nat → Parser Expr
  | 0 => fail .tooDeep
  | fuel + 1 => do
      let left ← power fuel
      productFrom fuel left

def productFrom : Nat → Expr → Parser Expr
  | 0, _ => fail .tooDeep
  | fuel + 1, left => do
      let op : Option BinaryOp := match symbolOf? (← current) with
        | some "*" => some .mul
        | some "/" => some .div
        | some "//" => some .floorDiv
        | some "%" => some .mod
        | _ => none
      match op with
      | some op =>
          advance
          let right ← power fuel
          productFrom fuel (.binary op left right)
      | none => return left

def power : Nat → Parser Expr
  | 0 => fail .tooDeep
  | fuel + 1 => do
      let left ← unary fuel true
      powerFrom fuel left

def powerFrom : Nat → Expr → Parser Expr
  | 0, _ => fail .tooDeep
  | fuel + 1, left => do
      if ← skipOperator "**" then
        let right ← unary fuel true
        powerFrom fuel (.binary .pow left right)
      else return left

def unary : Nat → Bool → Parser Expr
  | 0, _ => fail .tooDeep
  | fuel + 1, withFilters => do
      let operand ←
        (do
          if ← skipOperator "-" then return .negative (← unary fuel false)
          else if ← skipOperator "+" then return .positive (← unary fuel false)
          else primary fuel)
      let value ← postfixes fuel operand
      if withFilters then filtered fuel value else return value

def primary : Nat → Parser Expr
  | 0 => fail .tooDeep
  | fuel + 1 => do
      match ← current with
      | some (.name text) =>
          advance
          match constantWord? text with
          | some value => return .constant value
          | none => return .name text
      | some (.string _) => return .constant (.text (← strings fuel))
      | some (.integer value) =>
          advance
          return .constant (.int value)
      | some (.float value) =>
          advance
          return .constant (.float value)
      | some (.operator "(") =>
          advance
          let value ← tuple fuel .full [] true
          expectOperator ")"
          return value
      | some (.operator "[") =>
          advance
          let items ← listItems fuel true
          expectOperator "]"
          return .list items
      | some (.operator "\x7b") =>
          advance
          let entries ← mapEntries fuel true
          expectOperator "\x7d"
          return .map entries
      | token => fail (.unexpected (describe token))

/-- One expression, or several with commas; only brackets may hold none at all. -/
def tuple : Nat → PartForm → List String → Bool → Parser Expr
  | 0, _, _, _ => fail .tooDeep
  | fuel + 1, form, words, inBrackets => do
      let (parts, isTuple) ← tupleParts fuel form words true
      match parts, isTuple with
      | [part], false => return part
      | [], false =>
          if inBrackets then return .tuple []
          else fail (.noExpression (describe (← current)))
      | parts, _ => return .tuple parts

/-- The parts of a tuple and whether a comma was seen. -/
def tupleParts : Nat → PartForm → List String → Bool → Parser (List Expr × Bool)
  | 0, _, _, _ => fail .tooDeep
  | fuel + 1, form, words, isFirst => do
      unless isFirst do expectOperator ","
      if ← isTupleEnd words then return ([], false)
      let part ← match form with
        | .primary => primary fuel
        | .plain => disjunction fuel
        | .full => expression fuel
      if ← isOperator "," then
        let (parts, _) ← tupleParts fuel form words false
        return (part :: parts, true)
      else return ([part], false)

def listItems : Nat → Bool → Parser (List Expr)
  | 0, _ => fail .tooDeep
  | fuel + 1, isFirst => do
      if ← isOperator "]" then return []
      unless isFirst do expectOperator ","
      if ← isOperator "]" then return []
      let item ← expression fuel
      return item :: (← listItems fuel false)

def mapEntries : Nat → Bool → Parser (List (Expr × Expr))
  | 0, _ => fail .tooDeep
  | fuel + 1, isFirst => do
      if ← isOperator "\x7d" then return []
      unless isFirst do expectOperator ","
      if ← isOperator "\x7d" then return []
      let key ← expression fuel
      expectOperator ":"
      let value ← expression fuel
      return (key, value) :: (← mapEntries fuel false)

/-- Members, items and calls behind a value. -/
def postfixes : Nat → Expr → Parser Expr
  | 0, _ => fail .tooDeep
  | fuel + 1, base => do
      if ← skipOperator "." then
        let token ← current
        advance
        match token with
        | some (.name name) => postfixes fuel (.member base name)
        | some (.integer index) => postfixes fuel (.item base (.constant (.int index)))
        | _ => fail .noMember
      else if ← skipOperator "[" then
        let indices ← subscripts fuel true
        expectOperator "]"
        match indices with
        | [index] => postfixes fuel (.item base index)
        | indices => postfixes fuel (.item base (.tuple indices))
      else if ← isOperator "(" then
        let arguments ← callArguments fuel
        postfixes fuel (.call base arguments)
      else return base

/-- Filters, tests and calls behind a value. -/
def filtered : Nat → Expr → Parser Expr
  | 0, _ => fail .tooDeep
  | fuel + 1, base => do
      if ← isOperator "|" then
        let value ← filters fuel base
        filtered fuel value
      else if ← skipWord "is" then
        let value ← testOf fuel base
        filtered fuel value
      else if ← isOperator "(" then
        let arguments ← callArguments fuel
        filtered fuel (.call base arguments)
      else return base

def subscripts : Nat → Bool → Parser (List Expr)
  | 0, _ => fail .tooDeep
  | fuel + 1, isFirst => do
      if ← isOperator "]" then return []
      unless isFirst do expectOperator ","
      let index ← subscript fuel
      return index :: (← subscripts fuel false)

/-- An index, or the bounds of a slice. -/
def subscript : Nat → Parser Expr
  | 0 => fail .tooDeep
  | fuel + 1 => do
      if ← skipOperator ":" then sliceFrom fuel none
      else
        let start ← expression fuel
        if ← skipOperator ":" then sliceFrom fuel (some start) else return start

def sliceFrom : Nat → Option Expr → Parser Expr
  | 0, _ => fail .tooDeep
  | fuel + 1, start => do
      let stop ← bound fuel
      let step ← (do if ← skipOperator ":" then bound fuel else return none)
      return .slice start stop step

/-- A bound of a slice, absent in front of a colon, a comma or the closing bracket. -/
def bound : Nat → Parser (Option Expr)
  | 0 => fail .tooDeep
  | fuel + 1 => do
      match symbolOf? (← current) with
      | some ":" => return none
      | some "]" => return none
      | some "," => return none
      | _ => return some (← expression fuel)

def callArguments : Nat → Parser (List Argument)
  | 0 => fail .tooDeep
  | fuel + 1 => do
      expectOperator "("
      let arguments ← argumentsFrom fuel []
      expectOperator ")"
      return arguments

def argumentsFrom : Nat → List Argument → Parser (List Argument)
  | 0, _ => fail .tooDeep
  | fuel + 1, before => do
      if ← isOperator ")" then return before
      unless before.isEmpty do expectOperator ","
      if ← isOperator ")" then return before
      let argument ← argument fuel before
      argumentsFrom fuel (before ++ [argument])

/-- One argument behind others: spread values come after the plain ones. -/
def argument : Nat → List Argument → Parser Argument
  | 0, _ => fail .tooDeep
  | fuel + 1, before => do
      if ← isOperator "*" then
        argumentsAllow before isSpread
        advance
        return .spread (← expression fuel)
      else if ← isOperator "**" then
        argumentsAllow before isSpreadNamed
        advance
        return .spreadNamed (← expression fuel)
      else
        let name? : Option Text := match ← current with
          | some (.name name) => some name
          | _ => none
        match name? with
        | some name =>
            if (← next) = some (.operator "=") then
              argumentsAllow before isSpreadNamed
              advance
              advance
              return .named name (← expression fuel)
            else
              argumentsAllow before (!isPositional ·)
              return .positional (← expression fuel)
        | none =>
            argumentsAllow before (!isPositional ·)
            return .positional (← expression fuel)

/-- A name with dots. -/
def dottedName : Nat → Parser Text
  | 0 => fail .tooDeep
  | fuel + 1 => do
      let first ← expectName
      if ← skipOperator "." then
        return first ++ ("." : Text) ++ (← dottedName fuel)
      else return first

def filterCall : Nat → Expr → Parser Expr
  | 0, _ => fail .tooDeep
  | fuel + 1, base => do
      let name ← dottedName fuel
      if ← isOperator "(" then return .filter base name (← callArguments fuel)
      else return .filter base name []

/-- The filters behind bars. -/
def filters : Nat → Expr → Parser Expr
  | 0, _ => fail .tooDeep
  | fuel + 1, base => do
      if ← skipOperator "|" then
        let value ← filterCall fuel base
        filters fuel value
      else return base

def testOf : Nat → Expr → Parser Expr
  | 0, _ => fail .tooDeep
  | fuel + 1, base => do
      let negated ← skipWord "not"
      let name ← dottedName fuel
      let arguments ← testArguments fuel
      let test := Expr.test base name arguments
      return if negated then .not test else test

/-- Arguments in brackets, or one argument without them. -/
def testArguments : Nat → Parser (List Argument)
  | 0 => fail .tooDeep
  | fuel + 1 => do
      match ← current with
      | some (.operator "(") => callArguments fuel
      | some (.name word) =>
          if word = ("else" : Text) ∨ word = ("or" : Text) ∨ word = ("and" : Text) then return []
          else if word = ("is" : Text) then fail .chainedTests
          else bareArgument fuel
      | some (.string _) => bareArgument fuel
      | some (.integer _) => bareArgument fuel
      | some (.float _) => bareArgument fuel
      | some (.operator "[") => bareArgument fuel
      | some (.operator "\x7b") => bareArgument fuel
      | _ => return []

def bareArgument : Nat → Parser (List Argument)
  | 0 => fail .tooDeep
  | fuel + 1 => do
      let value ← primary fuel
      return [.positional (← postfixes fuel value)]

end

/-! ## Targets -/

private def reserved : List Text := ["true", "false", "none", "True", "False", "None"]

def targetOf (value : Expr) : Parser Target :=
  match Target.ofExpr? value with
  | some target => return target
  | none => fail (.target value.kind)

def targets (fuel : Nat) (words : List String) : Parser Target := do
  targetOf (← tuple fuel .primary words false)

/-- A target that may also be a member of an object. -/
def memberOrTargets (fuel : Nat) : Parser Target := do
  if (← next) = some (.operator ".") then
    let object ← expectName
    advance
    let member ← expectName
    return .member object member
  else targets fuel []

def nameTarget : Parser Text := do
  let name ← expectName
  if reserved.contains name then fail (.target "name") else return name

/-! ## Statements -/

/-- Fails at a tag that is unknown here. -/
def unknownTag {α : Type} (name : Text) : Parser α := do
  let state ← get
  fail (.tag ⟨some name, state.searched.head?.getD [], state.searched.flatten.contains name,
    state.openTags.head?⟩)

def missingTag {α : Type} (searched : List Text) : Parser α := do
  fail (.tag ⟨none, searched, false, (← get).openTags.head?⟩)

/-- Skips the phrases that choose the variables of a loaded template. -/
def contextPhrase : Parser Bool := do
  if (← isWord "with") || (← isWord "without") then
    if (← next) = some (.name "context") then
      advance
      advance
      return true
    else return false
  else return false

/-- The names that a template imports from another. -/
def importedNames : Nat → Bool → Parser Unit
  | 0, _ => fail .tooDeep
  | fuel + 1, isFirst => do
      unless isFirst do expectOperator ","
      match ← current with
      | some (.name _) =>
          if ← contextPhrase then return ()
          let name ← nameTarget
          if Text.startsWith "_" name then fail .privateImport
          if ← skipWord "as" then
            let _ ← nameTarget
          if ← contextPhrase then return ()
          if ← isOperator "," then importedNames fuel false else return ()
      | _ => expected "name"

private def isBlankData : Statement → Bool
  | .data text => text.all (·.isIn " \t\n\r\x0b\x0c")
  | _ => false

/-- The expressions of a print statement. -/
def printed : Nat → Bool → Parser (List Statement)
  | 0, _ => fail .tooDeep
  | fuel + 1, isFirst => do
      if ← isAt .blockEnd then return []
      unless isFirst do expectOperator ","
      let value ← expression fuel
      return .print value :: (← printed fuel false)

def bindings : Nat → Bool → Parser (List (Target × Expr))
  | 0, _ => fail .tooDeep
  | fuel + 1, isFirst => do
      if ← isAt .blockEnd then return []
      unless isFirst do expectOperator ","
      let target ← targets fuel []
      expectOperator "="
      let value ← expression fuel
      return (target, value) :: (← bindings fuel false)

mutual

/-- Statements up to one of the searched tags, whose name becomes the current token. -/
def statements : Nat → List Text → Parser (List Statement)
  | 0, _ => fail .tooDeep
  | fuel + 1, searched => do
      match ← current with
      | none => return []
      | some (.data text) =>
          advance
          return .data text :: (← statements fuel searched)
      | some .printBegin =>
          advance
          let value ← tuple fuel .full [] false
          expect .printEnd
          return .print value :: (← statements fuel searched)
      | some .blockBegin =>
          advance
          let isSearched ← (do
            match ← current with
            | some (.name name) => return searched.contains name
            | _ => return false)
          if isSearched then return []
          else
            let found ← statement fuel
            expect .blockEnd
            return found ++ (← statements fuel searched)
      | some token => fail (.unexpected token.describe)

/-- A body from the end of its tag to one of the searched tags. -/
def body : Nat → List Text → Parser (List Statement)
  | 0, _ => fail .tooDeep
  | fuel + 1, searched => do
      let _ ← skipOperator ":"
      expect .blockEnd
      modify fun state => { state with searched := searched :: state.searched }
      let found ← statements fuel searched
      modify fun state => { state with searched := state.searched.tail }
      if (← current).isNone then missingTag searched else return found

/-- A body and its closing tag. -/
def closedBody : Nat → Text → Parser (List Statement)
  | 0, _ => fail .tooDeep
  | fuel + 1, closing => do
      let found ← body fuel [closing]
      advance
      return found

def statement : Nat → Parser (List Statement)
  | 0 => fail .tooDeep
  | fuel + 1 => do
      match ← current with
      | some (.name name) =>
          modify fun state => { state with openTags := name :: state.openTags }
          let found ← statementNamed fuel name
          modify fun state => { state with openTags := state.openTags.tail }
          return found
      | _ => fail .noTagName

def statementNamed : Nat → Text → Parser (List Statement)
  | 0, _ => fail .tooDeep
  | fuel + 1, name => do
      if name = ("for" : Text) then
        advance
        return [← forEach fuel]
      else if name = ("if" : Text) then
        advance
        let (branches, otherwise) ← branches fuel
        return [.choice branches otherwise]
      else if name = ("set" : Text) then
        advance
        return [← assignment fuel]
      else if name = ("with" : Text) then
        advance
        let bound ← bindings fuel true
        return [.scope bound (← closedBody fuel "endwith")]
      else if name = ("filter" : Text) then
        advance
        let first ← filterCall fuel .blockText
        let chain ← filters fuel first
        return [.filterBlock chain (← closedBody fuel "endfilter")]
      else if name = ("print" : Text) then
        advance
        printed fuel true
      else if name = ("block" : Text) then
        advance
        return [← namedBlock fuel]
      else if name = ("extends" : Text) then
        advance
        return [.load (← expression fuel)]
      else if name = ("include" : Text) then
        advance
        let template ← expression fuel
        if ← isWord "ignore" then
          if (← next) = some (.name "missing") then
            advance
            advance
        let _ ← contextPhrase
        return [.loadAny template]
      else if name = ("import" : Text) then
        advance
        let template ← expression fuel
        expectWord "as"
        let _ ← nameTarget
        let _ ← contextPhrase
        return [.load template]
      else if name = ("from" : Text) then
        advance
        let template ← expression fuel
        expectWord "import"
        importedNames fuel true
        return [.load template]
      else
        modify fun state => { state with openTags := state.openTags.tail }
        unknownTag name

def forEach : Nat → Parser Statement
  | 0 => fail .tooDeep
  | fuel + 1 => do
      let target ← targets fuel ["in"]
      expectWord "in"
      let source ← tuple fuel .plain ["recursive"] false
      let test ← (do if ← skipWord "if" then return some (← expression fuel) else return none)
      let _ ← skipWord "recursive"
      let found ← body fuel ["endfor", "else"]
      let isLast ← isWord "endfor"
      advance
      let otherwise ← (do if isLast then return [] else closedBody fuel "endfor")
      return .forEach target source test found otherwise

/-- The branches of a choice and what happens when no test holds. -/
def branches : Nat → Parser (List (Expr × List Statement) × List Statement)
  | 0 => fail .tooDeep
  | fuel + 1 => do
      let test ← tuple fuel .plain [] false
      let found ← body fuel ["elif", "else", "endif"]
      if ← skipWord "elif" then
        let (others, otherwise) ← branches fuel
        return ((test, found) :: others, otherwise)
      else if ← skipWord "else" then
        let otherwise ← closedBody fuel "endif"
        return ([(test, found)], otherwise)
      else
        advance
        return ([(test, found)], [])

def assignment : Nat → Parser Statement
  | 0 => fail .tooDeep
  | fuel + 1 => do
      let target ← memberOrTargets fuel
      if ← skipOperator "=" then return .assign target (← tuple fuel .full [] false)
      else
        let chain ← filters fuel .blockText
        return .assignBlock target chain (← closedBody fuel "endset")

def namedBlock : Nat → Parser Statement
  | 0 => fail .tooDeep
  | fuel + 1 => do
      let name ← expectName
      let _ ← skipWord "scoped"
      let required ← skipWord "required"
      if ← isOperator "-" then fail .hyphenInBlockName
      let found ← closedBody fuel "endblock"
      if required && !found.all isBlankData then fail .requiredBlock
      let _ ← skip (.name name)
      return .block name found

end

end Parser

/-- The statements that a list of tokens spells. -/
def Statement.parse (lexemes : List Lexeme) : Except SyntaxFault (List Statement) :=
  let reading : Parser (List Statement) := do
    Parser.settle
    Parser.statements (32 * lexemes.length + 64) []
  (reading.run ⟨lexemes, [], []⟩).map (·.1)

end Stencil.Template
