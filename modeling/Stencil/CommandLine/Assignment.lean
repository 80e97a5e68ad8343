import Stencil.Text.Blank
import Stencil.Yaml.Reader

/-!
# Assignments

Variables are given as `key=value`.  The value is read as a YAML scalar; what
YAML cannot read, and what it reads as nothing or as a collection, is a text.
-/

namespace Stencil

structure Assignment where
  name : Text
  value : Value
  deriving Repr

inductive AssignmentFault where
  | noKey (raw : Text)
  | value (fault : Yaml.Fault)
  deriving Repr

namespace AssignmentFault

def message : AssignmentFault → Text
  | .noKey raw => ("Expected key=value, got: " : Text) ++ raw
  | .value fault => fault.message

end AssignmentFault

namespace Assignment

/-- Whether a value that was read stands for itself. -/
def isKept : Value → Bool
  | .null => false
  | .list _ => false
  | .map _ => false
  | _ => true

def valueOf (text : Text) : Except Yaml.Fault Value :=
  if text.isEmpty then .ok (.text [])
  else
    match Yaml.read text with
    | .ok value => .ok (if isKept value then value else .text text)
    | .error fault => if fault.isOfDocument then .ok (.text text) else .error fault

def parse (raw : Text) : Except AssignmentFault Assignment :=
  match Text.cut "=" raw with
  | none => .error (.noKey raw)
  | some (key, text) =>
      if (Text.strip key).isEmpty then .error (.noKey raw)
      else ((valueOf text).mapError .value).map fun value => ⟨Text.strip key, value⟩

end Assignment

end Stencil
