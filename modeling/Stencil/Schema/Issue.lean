import Stencil.Value.Basic

/-!
# Issues

What can be wrong with a value that has to fit a schema, where in the value it
is, and how both are told: on one line, or in a report of several lines that
also shows the value.
-/

namespace Stencil

/-- The ways in which a part of a value can fail its schema. -/
inductive Mismatch where
  | missing
  | unexpected
  | key
  | text
  | encoding
  | short (least : Nat)
  | bool
  | boolText
  | int
  | intText
  | intSize
  | fraction
  | infinite
  | float
  | floatText
  | list
  | mapping
  | record (name : Text)
  | choice (options : List Text)
  | path
  | rule (message : Text)
  deriving DecidableEq, Repr

namespace Mismatch

/-- The options of a choice, the last one after an "or". -/
def oneOf (options : List Text) : Text :=
  match options.reverse with
  | [] => []
  | [only] => only
  | last :: others => Text.joinWith ", " others.reverse ++ (" or " : Text) ++ last

def message : Mismatch → Text
  | .missing => "Field required"
  | .unexpected => "Extra inputs are not permitted"
  | .key => "Keys should be strings"
  | .text => "Input should be a valid string"
  | .encoding => "Input should be a valid string, unable to parse raw data as a unicode string"
  | .short least =>
      ("String should have at least " : Text) ++ Text.ofNat least ++
        (if least = 1 then (" character" : Text) else (" characters" : Text))
  | .bool => "Input should be a valid boolean"
  | .boolText => "Input should be a valid boolean, unable to interpret input"
  | .int => "Input should be a valid integer"
  | .intText => "Input should be a valid integer, unable to parse string as an integer"
  | .intSize => "Unable to parse input string as an integer, exceeded maximum size"
  | .fraction => "Input should be a valid integer, got a number with a fractional part"
  | .infinite => "Input should be a finite number"
  | .float => "Input should be a valid number"
  | .floatText => "Input should be a valid number, unable to parse string as a number"
  | .list => "Input should be a valid list"
  | .mapping => "Input should be a valid dictionary"
  | .record name => ("Input should be a valid dictionary or instance of " : Text) ++ name
  | .choice options => ("Input should be " : Text) ++ oneOf options
  | .path => "Input is not a valid path for <class 'pathlib.Path'>"
  | .rule message => ("Value error, " : Text) ++ message

/-- The short name of a mismatch in a report. -/
def code : Mismatch → Text
  | .missing => "missing"
  | .unexpected => "extra_forbidden"
  | .key => "invalid_key"
  | .text => "string_type"
  | .encoding => "string_unicode"
  | .short _ => "string_too_short"
  | .bool => "bool_type"
  | .boolText => "bool_parsing"
  | .int => "int_type"
  | .intText => "int_parsing"
  | .intSize => "int_parsing_size"
  | .fraction => "int_from_float"
  | .infinite => "finite_number"
  | .float => "float_type"
  | .floatText => "float_parsing"
  | .list => "list_type"
  | .mapping => "dict_type"
  | .record _ => "model_type"
  | .choice _ => "literal_error"
  | .path => "path_type"
  | .rule _ => "value_error"

end Mismatch

structure Issue where
  path : List Text
  fault : Mismatch
  input : Value
  deriving Repr

namespace Issue

/-- An issue of a part, seen from the whole. -/
def under (step : Text) (issue : Issue) : Issue := { issue with path := step :: issue.path }

/-- How a key of any kind names a step. -/
def stepOf : Scalar → Text
  | .text key => key
  | .bool key => if key then "1" else "0"
  | key => key.quoted

def place (issue : Issue) : Text := Text.joinWith "." issue.path

/-- One line; an issue of the whole is at the `root`. -/
def line (issue : Issue) : Text :=
  (if issue.place.isEmpty then ("root" : Text) else issue.place) ++ (": " : Text) ++
    issue.fault.message

def summary (issues : List Issue) : Text := Text.joinWith "; " (issues.map line)

/-! ## Reports -/

/-- As many leading code points as fit into a number of bytes. -/
def leadingBytes (limit : Nat) : Text → Text
  | [] => []
  | c :: text =>
      if c.utf8.length ≤ limit then c :: leadingBytes (limit - c.utf8.length) text else []

/-- A text of more than 50 bytes is cut in the middle. -/
def abbreviated (text : Text) : Text :=
  if text.byteLength ≤ 50 then text
  else
    leadingBytes 25 text ++ [CodePoint.ofNat 0x2026] ++
      (leadingBytes 24 text.reverse).reverse

private def reportLines (issue : Issue) : List Text :=
  let detail := ("  " : Text) ++ issue.fault.message ++ (" [type=" : Text) ++ issue.fault.code ++
    (", input_value=" : Text) ++ abbreviated issue.input.quoted ++ (", input_type=" : Text) ++
    issue.input.typeName ++ ("]" : Text)
  if issue.path.isEmpty then [detail] else [issue.place, detail]

def report (name : Text) (issues : List Issue) : Text :=
  let count := issues.length
  let title := Text.ofNat count ++
    (if count = 1 then (" validation error for " : Text) else (" validation errors for " : Text)) ++
    name
  Text.joinWith "\n" (title :: issues.flatMap reportLines)

end Issue

end Stencil
