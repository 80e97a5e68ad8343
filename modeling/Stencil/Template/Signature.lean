import Stencil.Template.Method

/-!
# Parameters of filters and tests

A signature names the parameters of a filter or test.  Arguments are bound to
them by position and by name; what does not fit is a fault.
-/

namespace Stencil.Template

/-- A parameter and whether it must be given. -/
structure Parameter where
  name : String
  required : Bool

/-- Parameters behind `hidden` ones that a template does not write. -/
structure Signature where
  label : String
  hidden : Nat
  parameters : List Parameter

namespace Signature

private def invalid {α : Type} (message : Text) : Rendering α := .error (.invalid message)

/-- Names in quotes as an enumeration. -/
private def enumerate : List Text → Text
  | [] => []
  | [name] => name
  | [first, second] => first ++ (" and " : Text) ++ second
  | names => Text.joinWith ", " names.dropLast ++ (", and " : Text) ++ names.getLast?.getD []

private def arguments (count : Nat) : Text :=
  if count = 1 then " positional argument" else " positional arguments"

private def tooMany {α : Type} (s : Signature) (given : Nat) : Rendering α :=
  let most := s.hidden + s.parameters.length
  let least := s.hidden + s.parameters.countP Parameter.required
  let range : Text :=
    if least = most then (" " : Text) ++ Text.ofNat most ++ arguments most
    else
      (" from " : Text) ++ Text.ofNat least ++ (" to " : Text) ++ Text.ofNat most ++ arguments most
  invalid ((s.label : Text) ++ ("() takes" : Text) ++ range ++ (" but " : Text) ++
    Text.ofNat (s.hidden + given) ++
    (if s.hidden + given = 1 then (" was given" : Text) else (" were given" : Text)))

/-- The arguments in the order of the parameters. -/
def bind (s : Signature) (call : CallArguments) : Rendering (List (Option Object)) := do
  let names := s.parameters.map fun p => Text.ofString p.name
  call.named.forM fun (name, _) =>
    match names.findIdx? (· = name) with
    | none =>
        invalid ((s.label : Text) ++ ("() got an unexpected keyword argument " : Text) ++ name.quoted)
    | some k =>
        if k < call.positional.length then
          invalid ((s.label : Text) ++ ("() got multiple values for argument " : Text) ++ name.quoted)
        else .ok ()
  if names.length < call.positional.length then s.tooMany call.positional.length
  else
    let bound := names.zipIdx.map fun (name, k) =>
      match call.positional[k]? with
      | some object => some object
      | none => call.named.lookup name
    let missing := (s.parameters.zip bound).filterMap fun (p, object) =>
      if p.required && object.isNone then some (Text.quoted p.name) else none
    if missing.isEmpty then return bound
    else
      invalid ((s.label : Text) ++ ("() missing " : Text) ++ Text.ofNat missing.length ++
        (" required positional argument" : Text) ++
        (if missing.length = 1 then (": " : Text) else ("s: " : Text)) ++ enumerate missing)

end Signature

/-- Parameters that must be given. -/
def required (names : List String) : List Parameter := names.map (⟨·, true⟩)

/-- Parameters that may be left out. -/
def optional (names : List String) : List Parameter := names.map (⟨·, false⟩)

end Stencil.Template
