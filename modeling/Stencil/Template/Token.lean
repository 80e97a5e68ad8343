import Stencil.Number.Decimal
import Stencil.Text.Quoted

/-!
# Tokens of templates

A template is plain text with tags: `{{ … }}` prints an expression, `{% … %}`
holds a statement, `{# … #}` a comment.  Here are the tokens into which a
template is cut, their names in messages, and the faults that make a text no
template.
-/

namespace Stencil.Template

/-! ## Faults of form -/

/-- A template that ends, or goes on with a tag, where other tags are needed. -/
structure MissingTag where
  found : Option Text
  searched : List Text
  closesOuter : Bool
  innermost : Option Text
  deriving DecidableEq, Repr

inductive SyntaxFault where
  | strayCodePoint (c : CodePoint) (position : Nat)
  | strayBracket (found : String)
  | otherBracket (found expected : String)
  | openComment
  | openRaw
  | identifier
  | escape (reason : Text)
  | end (expected : Text)
  | token (expected found : Text)
  | unexpected (found : Text)
  | noExpression (found : Text)
  | noTagName
  | noMember
  | chainedTests
  | callForm
  | target (kind : Text)
  | noCall
  | hyphenInBlockName
  | requiredBlock
  | parameterOrder
  | privateImport
  | tag (missing : MissingTag)
  | filterName (name : Text)
  | testName (name : Text)
  | loopTarget
  | blockTwice (name : Text)
  | tooDeep
  deriving DecidableEq, Repr

namespace MissingTag

private def looking (m : MissingTag) : Text := Text.joinWith " or " (m.searched.map Text.quoted)

def message (m : MissingTag) : Text :=
  let opening : Text := match m.found with
    | none => "Unexpected end of template."
    | some name => ("Encountered unknown tag " : Text) ++ name.quoted ++ ("." : Text)
  let search : List Text :=
    if m.searched.isEmpty then []
    else if m.closesOuter then
      [("You probably made a nesting mistake. Jinja is expecting this tag, but currently looking for " :
        Text) ++ m.looking ++ ("." : Text)]
    else [("Jinja was looking for the following tags: " : Text) ++ m.looking ++ ("." : Text)]
  let inner : List Text := match m.innermost with
    | none => []
    | some name =>
        [("The innermost block that needs to be closed is " : Text) ++ name.quoted ++ ("." : Text)]
  Text.joinWith " " (opening :: search ++ inner)

end MissingTag

namespace SyntaxFault

def message : SyntaxFault → Text
  | .strayCodePoint c position =>
      ("unexpected char " : Text) ++ Text.quoted [c] ++ (" at " : Text) ++ Text.ofNat position
  | .strayBracket found => ("unexpected '" : Text) ++ (found : Text) ++ ("'" : Text)
  | .otherBracket found expected =>
      ("unexpected '" : Text) ++ (found : Text) ++ ("', expected '" : Text) ++ (expected : Text) ++
        ("'" : Text)
  | .openComment => "Missing end of comment tag"
  | .openRaw => "Missing end of raw directive"
  | .identifier => "Invalid character in identifier"
  | .escape reason => reason
  | .end expected =>
      ("unexpected end of template, expected " : Text) ++ expected.quoted ++ ("." : Text)
  | .token expected found =>
      ("expected token " : Text) ++ expected.quoted ++ (", got " : Text) ++ found.quoted
  | .unexpected found => ("unexpected " : Text) ++ found.quoted
  | .noExpression found => ("Expected an expression, got " : Text) ++ found.quoted
  | .noTagName => "tag name expected"
  | .noMember => "expected name or number"
  | .chainedTests => "You cannot chain multiple tests with is"
  | .callForm => "invalid syntax for function call expression"
  | .target kind => ("can't assign to " : Text) ++ kind.quoted
  | .noCall => "expected call"
  | .hyphenInBlockName =>
      "Block names in Jinja have to be valid Python identifiers and may not contain hyphens, use an underscore instead."
  | .requiredBlock => "Required blocks can only contain comments or whitespace"
  | .parameterOrder => "non-default argument follows default argument"
  | .privateImport => "names starting with an underline can not be imported"
  | .tag missing => missing.message
  | .filterName name => ("No filter named " : Text) ++ name.quoted ++ ("." : Text)
  | .testName name => ("No test named " : Text) ++ name.quoted ++ ("." : Text)
  | .loopTarget => "Can't assign to special loop variable in for-loop target"
  | .blockTwice name => ("block " : Text) ++ name.quoted ++ (" defined twice" : Text)
  | .tooDeep => "too many nested blocks"

end SyntaxFault

/-! ## Tokens -/

inductive Token where
  | data (text : Text)
  | printBegin
  | printEnd
  | blockBegin
  | blockEnd
  | name (text : Text)
  | string (text : Text)
  | integer (value : Nat)
  | float (value : Binary64)
  | operator (symbol : String)
  | fault (cause : SyntaxFault)
  deriving DecidableEq, Repr

/-- A token and the line on which it starts. -/
structure Lexeme where
  token : Token
  line : Nat
  deriving DecidableEq, Repr

namespace Token

/-- How messages call the token. -/
def describe : Token → Text
  | .data _ => "template data / text"
  | .printBegin => "begin of print statement"
  | .printEnd => "end of print statement"
  | .blockBegin => "begin of statement block"
  | .blockEnd => "end of statement block"
  | .name text => text
  | .string _ => "string"
  | .integer _ => "integer"
  | .float _ => "float"
  | .operator symbol => symbol
  | .fault _ => "end of template"

end Token

/-- The operators, those of two code points first. -/
def operatorSymbols : List String :=
  ["//", "**", "==", "!=", ">=", "<=", "+", "-", "/", "*", "%", "~", "[", "]", "(", ")",
    "\x7b", "\x7d", ">", "<", "=", ".", ":", "|", ",", ";"]

end Stencil.Template
