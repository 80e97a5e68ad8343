import Mathlib
import Stencil.Template.Syntax.Parse

/-!
# Reading goes forward

Whatever is read of a template, what is left is an end of what was there.  So a
tag whose end does not come is never read to an end.
-/

namespace Stencil.Template

open Std.Do

set_option mvcgen.warning false

/-- What is left to read is an end of some lexemes. -/
def ParseState.Within (all : List Lexeme) (state : ParseState) : Prop := state.lexemes <:+ all

namespace Parser

/-- The states in which an end of some lexemes is left. -/
abbrev within (all : List Lexeme) : Assertion (.arg ParseState (.except SyntaxFault .pure)) :=
  fun state => ⌜state.Within all⌝

/-- A fault, or a state in which an end of some lexemes is left. -/
abbrev leaves (α : Type) (all : List Lexeme) :
    PostCond α (.arg ParseState (.except SyntaxFault .pure)) :=
  ⇓? _ state => ⌜state.Within all⌝

variable {α : Type} {all : List Lexeme}

/-! ## Single tokens -/

@[spec] theorem fail_leaves (cause : SyntaxFault) :
    ⦃within all⦄ (fail cause : Parser α) ⦃leaves α all⦄ :=
  fun _ _ => trivial

@[spec] theorem current_leaves : ⦃within all⦄ current ⦃leaves _ all⦄ := by
  mvcgen [current]

@[spec] theorem line_leaves : ⦃within all⦄ line ⦃leaves _ all⦄ := by
  mvcgen [line]

@[spec] theorem settle_leaves : ⦃within all⦄ settle ⦃leaves _ all⦄ := by
  mvcgen [settle]

@[spec] theorem advance_leaves : ⦃within all⦄ advance ⦃leaves _ all⦄ := by
  mvcgen [advance]
  rename_i state hstate _
  exact (List.tail_suffix state.lexemes).trans hstate

@[spec] theorem next_leaves : ⦃within all⦄ next ⦃leaves _ all⦄ := by
  mvcgen [next]

@[spec] theorem isAt_leaves (token : Token) : ⦃within all⦄ isAt token ⦃leaves _ all⦄ := by
  mvcgen [isAt]

@[spec] theorem skip_leaves (token : Token) : ⦃within all⦄ skip token ⦃leaves _ all⦄ := by
  mvcgen [skip]

@[spec] theorem expected_leaves (what : Text) :
    ⦃within all⦄ (expected what : Parser α) ⦃leaves α all⦄ := by
  mvcgen [expected]

@[spec] theorem expect_leaves (token : Token) : ⦃within all⦄ expect token ⦃leaves _ all⦄ := by
  mvcgen [expect]

@[spec] theorem expectName_leaves : ⦃within all⦄ expectName ⦃leaves _ all⦄ := by
  mvcgen [expectName]

@[spec] theorem isOperator_leaves (symbol : String) :
    ⦃within all⦄ isOperator symbol ⦃leaves _ all⦄ :=
  isAt_leaves _

@[spec] theorem isWord_leaves (word : String) : ⦃within all⦄ isWord word ⦃leaves _ all⦄ :=
  isAt_leaves _

@[spec] theorem skipOperator_leaves (symbol : String) :
    ⦃within all⦄ skipOperator symbol ⦃leaves _ all⦄ :=
  skip_leaves _

@[spec] theorem skipWord_leaves (word : String) : ⦃within all⦄ skipWord word ⦃leaves _ all⦄ :=
  skip_leaves _

@[spec] theorem expectOperator_leaves (symbol : String) :
    ⦃within all⦄ expectOperator symbol ⦃leaves _ all⦄ :=
  expect_leaves _

@[spec] theorem expectWord_leaves (word : String) :
    ⦃within all⦄ expectWord word ⦃leaves _ all⦄ :=
  expect_leaves _

@[spec] theorem isTupleEnd_leaves (words : List String) :
    ⦃within all⦄ isTupleEnd words ⦃leaves _ all⦄ := by
  mvcgen [isTupleEnd]

@[spec] theorem strings_leaves (fuel : Nat) : ⦃within all⦄ strings fuel ⦃leaves _ all⦄ := by
  induction fuel with
  | zero => mvcgen [strings]
  | succ fuel ih => mvcgen [strings, ih]

@[spec] theorem argumentsAllow_leaves (arguments : List Argument) (forbidden : Argument → Bool) :
    ⦃within all⦄ argumentsAllow arguments forbidden ⦃leaves _ all⦄ := by
  mvcgen [argumentsAllow]

/-! ## Expressions -/

/-- Every expression is read forward, and so is each of its parts. -/
structure ReadsForward (all : List Lexeme) (fuel : Nat) : Prop where
  expression : ⦃within all⦄ expression fuel ⦃leaves _ all⦄
  conditionals : ∀ yes line, ⦃within all⦄ conditionals fuel yes line ⦃leaves _ all⦄
  disjunction : ⦃within all⦄ disjunction fuel ⦃leaves _ all⦄
  disjunctionFrom : ∀ left, ⦃within all⦄ disjunctionFrom fuel left ⦃leaves _ all⦄
  conjunction : ⦃within all⦄ conjunction fuel ⦃leaves _ all⦄
  conjunctionFrom : ∀ left, ⦃within all⦄ conjunctionFrom fuel left ⦃leaves _ all⦄
  negation : ⦃within all⦄ negation fuel ⦃leaves _ all⦄
  comparison : ⦃within all⦄ comparison fuel ⦃leaves _ all⦄
  comparisons : ⦃within all⦄ comparisons fuel ⦃leaves _ all⦄
  sum : ⦃within all⦄ sum fuel ⦃leaves _ all⦄
  sumFrom : ∀ left, ⦃within all⦄ sumFrom fuel left ⦃leaves _ all⦄
  concatenation : ⦃within all⦄ concatenation fuel ⦃leaves _ all⦄
  concatenated : ⦃within all⦄ concatenated fuel ⦃leaves _ all⦄
  product : ⦃within all⦄ product fuel ⦃leaves _ all⦄
  productFrom : ∀ left, ⦃within all⦄ productFrom fuel left ⦃leaves _ all⦄
  power : ⦃within all⦄ power fuel ⦃leaves _ all⦄
  powerFrom : ∀ left, ⦃within all⦄ powerFrom fuel left ⦃leaves _ all⦄
  unary : ∀ withFilters, ⦃within all⦄ unary fuel withFilters ⦃leaves _ all⦄
  primary : ⦃within all⦄ primary fuel ⦃leaves _ all⦄
  tuple : ∀ form words inBrackets, ⦃within all⦄ tuple fuel form words inBrackets ⦃leaves _ all⦄
  tupleParts : ∀ form words isFirst, ⦃within all⦄ tupleParts fuel form words isFirst ⦃leaves _ all⦄
  listItems : ∀ isFirst, ⦃within all⦄ listItems fuel isFirst ⦃leaves _ all⦄
  mapEntries : ∀ isFirst, ⦃within all⦄ mapEntries fuel isFirst ⦃leaves _ all⦄
  postfixes : ∀ base, ⦃within all⦄ postfixes fuel base ⦃leaves _ all⦄
  filtered : ∀ base, ⦃within all⦄ filtered fuel base ⦃leaves _ all⦄
  subscripts : ∀ isFirst, ⦃within all⦄ subscripts fuel isFirst ⦃leaves _ all⦄
  subscript : ⦃within all⦄ subscript fuel ⦃leaves _ all⦄
  sliceFrom : ∀ start, ⦃within all⦄ sliceFrom fuel start ⦃leaves _ all⦄
  bound : ⦃within all⦄ bound fuel ⦃leaves _ all⦄
  callArguments : ⦃within all⦄ callArguments fuel ⦃leaves _ all⦄
  argumentsFrom : ∀ before, ⦃within all⦄ argumentsFrom fuel before ⦃leaves _ all⦄
  argument : ∀ before, ⦃within all⦄ argument fuel before ⦃leaves _ all⦄
  dottedName : ⦃within all⦄ dottedName fuel ⦃leaves _ all⦄
  filterCall : ∀ base, ⦃within all⦄ filterCall fuel base ⦃leaves _ all⦄
  filters : ∀ base, ⦃within all⦄ filters fuel base ⦃leaves _ all⦄
  testOf : ∀ base, ⦃within all⦄ testOf fuel base ⦃leaves _ all⦄
  testArguments : ⦃within all⦄ testArguments fuel ⦃leaves _ all⦄
  bareArgument : ⦃within all⦄ bareArgument fuel ⦃leaves _ all⦄

theorem readsForward_zero : ReadsForward all 0 := by
  constructor <;> intros <;> exact fail_leaves .tooDeep

theorem readsForward_succ {fuel : Nat} (h : ReadsForward all fuel) :
    ReadsForward all (fuel + 1) := by
  cases h
  constructor
  case expression => mvcgen [expression, *]
  case conditionals => intros; mvcgen [conditionals, *]
  case disjunction => mvcgen [disjunction, *]
  case disjunctionFrom => intros; mvcgen [disjunctionFrom, *]
  case conjunction => mvcgen [conjunction, *]
  case conjunctionFrom => intros; mvcgen [conjunctionFrom, *]
  case negation => mvcgen [negation, *]
  case comparison => mvcgen [comparison, *]
  case comparisons => mvcgen [comparisons, *]
  case sum => mvcgen [sum, *]
  case sumFrom => intros; mvcgen [sumFrom, *]
  case concatenation => mvcgen [concatenation, *]
  case concatenated => mvcgen [concatenated, *]
  case product => mvcgen [product, *]
  case productFrom => intros; mvcgen [productFrom, *]
  case power => mvcgen [power, *]
  case powerFrom => intros; mvcgen [powerFrom, *]
  case unary => intros; mvcgen [unary, *]
  case primary => mvcgen [primary, *]
  case tuple => intros; mvcgen [tuple, *]
  case tupleParts =>
    intro form words isFirst
    cases form <;> mvcgen [tupleParts, *]
  case listItems => intros; mvcgen [listItems, *]
  case mapEntries => intros; mvcgen [mapEntries, *]
  case postfixes => intros; mvcgen [postfixes, *]
  case filtered => intros; mvcgen [filtered, *]
  case subscripts => intros; mvcgen [subscripts, *]
  case subscript => mvcgen [subscript, *]
  case sliceFrom => intros; mvcgen [sliceFrom, *]
  case bound => mvcgen [bound, *]
  case callArguments => mvcgen [callArguments, *]
  case argumentsFrom => intros; mvcgen [argumentsFrom, *]
  case argument => intros; mvcgen [argument, *]
  case dottedName => mvcgen [dottedName, *]
  case filterCall => intros; mvcgen [filterCall, *]
  case filters => intros; mvcgen [filters, *]
  case testOf => intros; mvcgen [testOf, *]
  case testArguments => mvcgen [testArguments, *]
  case bareArgument => mvcgen [bareArgument, *]

theorem readsForward (fuel : Nat) : ReadsForward all fuel := by
  induction fuel with
  | zero => exact readsForward_zero
  | succ fuel ih => exact readsForward_succ ih

@[spec] theorem expression_leaves (fuel : Nat) : ⦃within all⦄ expression fuel ⦃leaves _ all⦄ :=
  (readsForward fuel).expression

@[spec] theorem tuple_leaves (fuel : Nat) (form : PartForm) (words : List String)
    (inBrackets : Bool) : ⦃within all⦄ tuple fuel form words inBrackets ⦃leaves _ all⦄ :=
  (readsForward fuel).tuple form words inBrackets

@[spec] theorem filterCall_leaves (fuel : Nat) (base : Expr) :
    ⦃within all⦄ filterCall fuel base ⦃leaves _ all⦄ :=
  (readsForward fuel).filterCall base

@[spec] theorem filters_leaves (fuel : Nat) (base : Expr) :
    ⦃within all⦄ filters fuel base ⦃leaves _ all⦄ :=
  (readsForward fuel).filters base

/-! ## Statements -/

@[spec] theorem targetOf_leaves (value : Expr) : ⦃within all⦄ targetOf value ⦃leaves _ all⦄ := by
  mvcgen [targetOf]

@[spec] theorem targets_leaves (fuel : Nat) (words : List String) :
    ⦃within all⦄ targets fuel words ⦃leaves _ all⦄ := by
  mvcgen [targets]

@[spec] theorem memberOrTargets_leaves (fuel : Nat) :
    ⦃within all⦄ memberOrTargets fuel ⦃leaves _ all⦄ := by
  mvcgen [memberOrTargets]

@[spec] theorem nameTarget_leaves : ⦃within all⦄ nameTarget ⦃leaves _ all⦄ := by
  mvcgen [nameTarget]

@[spec] theorem unknownTag_leaves (name : Text) :
    ⦃within all⦄ (unknownTag name : Parser α) ⦃leaves α all⦄ := by
  mvcgen [unknownTag]

@[spec] theorem missingTag_leaves (searched : List Text) :
    ⦃within all⦄ (missingTag searched : Parser α) ⦃leaves α all⦄ := by
  mvcgen [missingTag]

@[spec] theorem contextPhrase_leaves : ⦃within all⦄ contextPhrase ⦃leaves _ all⦄ := by
  mvcgen [contextPhrase]

@[spec] theorem importedNames_leaves (fuel : Nat) (isFirst : Bool) :
    ⦃within all⦄ importedNames fuel isFirst ⦃leaves _ all⦄ := by
  induction fuel generalizing isFirst with
  | zero => exact fail_leaves .tooDeep
  | succ fuel ih => mvcgen [importedNames, ih]

@[spec] theorem printed_leaves (fuel : Nat) (isFirst : Bool) :
    ⦃within all⦄ printed fuel isFirst ⦃leaves _ all⦄ := by
  induction fuel generalizing isFirst with
  | zero => exact fail_leaves .tooDeep
  | succ fuel ih => mvcgen [printed, ih]

@[spec] theorem bindings_leaves (fuel : Nat) (isFirst : Bool) :
    ⦃within all⦄ bindings fuel isFirst ⦃leaves _ all⦄ := by
  induction fuel generalizing isFirst with
  | zero => exact fail_leaves .tooDeep
  | succ fuel ih => mvcgen [bindings, ih]

/-- Every statement is read forward, and so is each of its parts. -/
structure ReadsStatementsForward (all : List Lexeme) (fuel : Nat) : Prop where
  statements : ∀ searched, ⦃within all⦄ statements fuel searched ⦃leaves _ all⦄
  body : ∀ searched, ⦃within all⦄ body fuel searched ⦃leaves _ all⦄
  closedBody : ∀ closing, ⦃within all⦄ closedBody fuel closing ⦃leaves _ all⦄
  statement : ⦃within all⦄ statement fuel ⦃leaves _ all⦄
  statementNamed : ∀ name, ⦃within all⦄ statementNamed fuel name ⦃leaves _ all⦄
  forEach : ⦃within all⦄ forEach fuel ⦃leaves _ all⦄
  branches : ⦃within all⦄ branches fuel ⦃leaves _ all⦄
  assignment : ⦃within all⦄ assignment fuel ⦃leaves _ all⦄
  namedBlock : ⦃within all⦄ namedBlock fuel ⦃leaves _ all⦄

theorem readsStatementsForward_zero : ReadsStatementsForward all 0 := by
  constructor <;> intros <;> exact fail_leaves .tooDeep

theorem readsStatementsForward_succ {fuel : Nat} (h : ReadsStatementsForward all fuel) :
    ReadsStatementsForward all (fuel + 1) := by
  cases h
  constructor
  case statements => intros; mvcgen [statements, *]
  case body => intros; mvcgen [body, *]
  case closedBody => intros; mvcgen [closedBody, *]
  case statement => mvcgen [statement, *]
  case statementNamed =>
    intros
    mvcgen -trivial [statementNamed, *]
    all_goals assumption
  case forEach => mvcgen [forEach, *]
  case branches => mvcgen [branches, *]
  case assignment => mvcgen [assignment, *]
  case namedBlock => mvcgen [namedBlock, *]

theorem readsStatementsForward (fuel : Nat) : ReadsStatementsForward all fuel := by
  induction fuel with
  | zero => exact readsStatementsForward_zero
  | succ fuel ih => exact readsStatementsForward_succ ih

/-! ## What is left -/

variable {state later : ParseState}

theorem suffix_of_leaves {parser : Parser α} {a : α}
    (h : ⦃within state.lexemes⦄ parser ⦃leaves α state.lexemes⦄)
    (hrun : parser state = .ok (a, later)) : later.lexemes <:+ state.lexemes := by
  have hlater : (wp⟦(parser state : Except SyntaxFault (α × ParseState))⟧
      (⇓? result => ⌜result.2.lexemes <:+ state.lexemes⌝)).down := h state List.suffix_rfl
  rw [hrun] at hlater
  exact hlater

theorem tuple_suffix {fuel : Nat} {form : PartForm} {words : List String} {inBrackets : Bool}
    {value : Expr} (h : tuple fuel form words inBrackets state = .ok (value, later)) :
    later.lexemes <:+ state.lexemes :=
  suffix_of_leaves (tuple_leaves fuel form words inBrackets) h

theorem statement_suffix {fuel : Nat} {found : List Statement}
    (h : statement fuel state = .ok (found, later)) : later.lexemes <:+ state.lexemes :=
  suffix_of_leaves (readsStatementsForward fuel).statement h

end Parser

end Stencil.Template
