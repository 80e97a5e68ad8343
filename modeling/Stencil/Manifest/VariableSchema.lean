import Stencil.Schema.Checked
import Stencil.Value.Basic

/-!
# Schemas of variables

An entry says which variables it takes.  Variables that fit are completed by
the defaults of the properties that were left out; otherwise every issue is
told: those of declared properties, of required names without a declaration,
and of names that are not allowed.
-/

namespace Stencil

structure VariableSchema where
  properties : List (Text × Value)
  required : List Text
  allowsOthers : Bool
  deriving Repr

namespace VariableSchema

def empty : VariableSchema := ⟨[], [], false⟩

def typeWord : Text := "object"

def read (fields : Schema.Fields) : Checked VariableSchema :=
  (fun _ properties required allowsOthers => ⟨properties, required, allowsOthers⟩) <$>
    fields.withDefault ["type"] (Schema.word typeWord) typeWord <*>
    fields.withDefault ["properties"] Schema.fields [] <*>
    fields.withDefault ["required"] Schema.texts [] <*>
    fields.withDefault ["additionalProperties", "additional_properties"] Schema.bool false

def check : Value → Checked VariableSchema := Schema.record "VariablesSchema" read

end VariableSchema

/-! ## Kinds of values -/

inductive JsonType where
  | text
  | number
  | integer
  | boolean
  | array
  | object
  deriving DecidableEq, Repr

namespace JsonType

def named : List (Text × JsonType) :=
  [("string", .text), ("number", .number), ("integer", .integer), ("boolean", .boolean),
   ("array", .array), ("object", .object)]

private def faultOf {α : Type} : Except Mismatch α → Option Mismatch
  | .ok _ => none
  | .error fault => some fault

def fault? (type : JsonType) (value : Value) : Option Mismatch :=
  match type with
  | .text => faultOf (Schema.spelling value)
  | .number => Numeral.floatFault? value
  | .integer => Numeral.intFault? value
  | .boolean => faultOf (Numeral.truth value)
  | .array => if (Schema.sequence? value).isSome then none else some .list
  | .object =>
      match value with
      | .map _ => none
      | _ => some .mapping

end JsonType

/-! ## What a property accepts -/

inductive Acceptance where
  | anything
  | kind (type : JsonType)
  | choice (options : List Value)
  deriving Repr

/-- A property whose options are no options. -/
inductive SchemaFault where
  | notIterable (type : Text)
  | unhashable (type : Text)
  deriving DecidableEq, Repr

namespace SchemaFault

def message : SchemaFault → Text
  | .notIterable type => ("'" : Text) ++ type ++ ("' object is not iterable" : Text)
  | .unhashable type => ("unhashable type: '" : Text) ++ type ++ ("'" : Text)

end SchemaFault

namespace Acceptance

/-- The options that a value lists: members, keys, code points or bytes. -/
def optionsOf : Value → Except SchemaFault (List Value)
  | .text text => .ok (text.map fun c => .text [c])
  | .scalar (.bytes bytes) => .ok (bytes.map fun byte => .int byte.toNat)
  | .list items => .ok items
  | .tuple items => .ok items
  | .set items => .ok (items.map .scalar)
  | .map entries => .ok (entries.map fun (key, _) => .scalar key)
  | other => .error (.notIterable other.typeName)

def isScalar : Value → Bool
  | .scalar _ => true
  | _ => false

/-- Without the options that repeat an earlier one of the same type. -/
def distinct (options : List Value) : List Value :=
  if options.all isScalar then
    options.foldl (fun found option =>
      if found.any fun other => option.typeName = other.typeName && option.equals other then found
      else found ++ [option]) []
  else options

/-- The member of a mapping, if the value is a mapping that has it. -/
def memberOf (property : Value) (name : Text) : Value := (property.get? name).getD .null

def ofProperty (property : Value) : Except SchemaFault Acceptance :=
  let options := memberOf property "enum"
  if options.isTrue then (optionsOf options).map fun found => .choice (distinct found)
  else
    match memberOf property "type" with
    | .text name => .ok (((JsonType.named.lookup name).map kind).getD .anything)
    | _ => .ok .anything

/-- Only scalars may be the options of a property that can be left out. -/
def hashableFault? : Acceptance → Option SchemaFault
  | .choice options =>
      (options.find? fun option => !isScalar option).map fun option => .unhashable option.typeName
  | _ => none

/-- Whether a text that cannot be encoded was held against texts. -/
def isUnreadable (options : List Value) (value : Value) : Bool :=
  match value with
  | .text text => text.any CodePoint.isSurrogate && options.any fun option => option.text?.isSome
  | _ => false

def fault? (acceptance : Acceptance) (value : Value) : Option Mismatch :=
  match acceptance with
  | .anything => none
  | .kind type => type.fault? value
  | .choice options =>
      if isUnreadable options value then some .encoding
      else if options.any fun option => option.equals value then none
      else some (.choice (options.map Value.quoted))

end Acceptance

/-! ## Resolution -/

structure Property where
  name : Text
  isRequired : Bool
  acceptance : Acceptance

namespace Property

def issues (property : Property) (vars : Variables) : List Issue :=
  match vars.lookup property.name with
  | none =>
      if property.isRequired then
        [⟨[property.name], .missing, .ofFields vars⟩]
      else []
  | some value =>
      if value.isNull && !property.isRequired then []
      else
        match property.acceptance.fault? value with
        | some fault => [⟨[property.name], fault, value⟩]
        | none => []

end Property

namespace VariableSchema

/-- A property that is no mapping accepts anything. -/
def declare (schema : VariableSchema) (name : Text) (property : Value) :
    Except SchemaFault Property := do
  let isRequired := schema.required.contains name
  let acceptance ← Acceptance.ofProperty property
  match if isRequired then none else acceptance.hashableFault? with
  | some fault => throw fault
  | none => return ⟨name, isRequired, acceptance⟩

def isDeclared (schema : VariableSchema) (name : Text) : Bool :=
  schema.properties.any fun (declared, _) => declared = name

/-- The required names without a declaration, which accept anything. -/
def undeclared (schema : VariableSchema) : List Property :=
  (schema.required.filter fun name => !schema.isDeclared name).map fun name =>
    ⟨name, true, .anything⟩

def expected (schema : VariableSchema) : Except SchemaFault (List Property) := do
  let declared ← schema.properties.mapM fun (name, property) => schema.declare name property
  return declared ++ schema.undeclared

def unexpected (schema : VariableSchema) (vars : Variables) : List Issue :=
  if schema.allowsOthers then []
  else
    (vars.filter fun (name, _) =>
      !schema.isDeclared name && !schema.required.contains name).map fun (name, value) =>
        ⟨[name], .unexpected, value⟩

def issues (schema : VariableSchema) (vars : Variables) :
    Except SchemaFault (List Issue) := do
  let properties ← schema.expected
  return properties.flatMap (·.issues vars) ++ schema.unexpected vars

/-- The defaults of the properties that have one and were left out. -/
def defaults (schema : VariableSchema) (vars : Variables) : Variables :=
  schema.properties.filterMap fun (name, property) =>
    if (vars.lookup name).isSome then none
    else (property.get? "default").map fun value => (name, value)

/-- The variables with defaults after them, or what is wrong with them. -/
def resolve (schema : VariableSchema) (vars : Variables) :
    Except SchemaFault (Except (List Issue) Variables) := do
  match ← schema.issues vars with
  | [] => return .ok (vars ++ schema.defaults vars)
  | found => return .error found

end VariableSchema

end Stencil
