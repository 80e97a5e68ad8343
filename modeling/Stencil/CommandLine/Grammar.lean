import Stencil.Text.Quoted

/-!
# Grammars of command lines

A grammar has switches, which may take a value, and at most one free argument.
A switch may be shortened as long as no other one starts in the same way.
-/

namespace Stencil.CommandLine

/-- What arguments are given for. -/
inductive Parameter where
  | help
  | templates
  | verbose
  | command
  | name
  | variable
  | project
  | template
  deriving DecidableEq, Repr

structure Switch where
  parameter : Parameter
  names : List Text
  takesValue : Bool
  deriving Repr

namespace Switch

/-- How a switch is told of. -/
def label (switch : Switch) : Text := Text.joinWith "/" switch.names

end Switch

/-- An argument without a switch: one of them, or that one and all that follow. -/
structure Free where
  parameter : Parameter
  label : Text
  takesRest : Bool
  deriving Repr

structure Grammar where
  program : Text
  free : Option Free
  switches : List Switch
  /-- Switches that have to be given. -/
  required : List Parameter
  /-- Switches of which exactly one has to be given. -/
  alternatives : List Parameter
  deriving Repr

inductive UsageFault where
  | ambiguous (argument : Text) (names : List Text)
  | noValue (label : Text)
  | surplus (label value : Text)
  | refused (label message : Text)
  | conflict (label other : Text)
  | unknownCommand (name : Text) (known : List Text)
  | missing (labels : List Text)
  | noneOf (labels : List Text)
  | unrecognized (arguments : List Text)
  deriving DecidableEq, Repr

namespace UsageFault

private def about (label message : Text) : Text :=
  ("argument " : Text) ++ label ++ (": " : Text) ++ message

def message : UsageFault → Text
  | .ambiguous argument names =>
      ("ambiguous option: " : Text) ++ argument ++ (" could match " : Text) ++
        Text.joinWith ", " names
  | .noValue label => about label "expected one argument"
  | .surplus label value => about label (("ignored explicit argument " : Text) ++ value.quoted)
  | .refused label message => about label message
  | .conflict label other => about label (("not allowed with argument " : Text) ++ other)
  | .unknownCommand name known =>
      about "command" (("invalid choice: " : Text) ++ name.quoted ++ (" (choose from " : Text) ++
        Text.joinWith ", " (known.map Text.quoted) ++ (")" : Text))
  | .missing labels =>
      ("the following arguments are required: " : Text) ++ Text.joinWith ", " labels
  | .noneOf labels =>
      ("one of the arguments " : Text) ++ Text.joinWith " " labels ++ (" is required" : Text)
  | .unrecognized arguments => ("unrecognized arguments: " : Text) ++ Text.joinWith " " arguments

end UsageFault

/-! ## Kinds of arguments -/

/-- A value that is part of the argument of its switch, after a mark or without one. -/
structure Attached where
  isMarked : Bool
  value : Text
  deriving Repr

inductive Kind where
  | plain
  | separator
  | switch (switch : Switch) (name : Text) (attached : Option Attached)
  | unknownSwitch
  deriving Repr

namespace Grammar

def dash : CodePoint := .scalar '-'

def separator : Text := "--"

/-- The names of all switches, in order. -/
def names (grammar : Grammar) : List (Text × Switch) :=
  grammar.switches.flatMap fun switch => switch.names.map fun name => (name, switch)

def switch? (grammar : Grammar) (name : Text) : Option Switch := grammar.names.lookup name

/-- The switches that an argument can be short for. -/
private def readings (grammar : Grammar) (argument : Text) :
    List (Text × Switch × Option Attached) :=
  if Text.startsWith separator argument then
    let (lead, attached) := match Text.cut "=" argument with
      | some (lead, value) => (lead, some ⟨true, value⟩)
      | none => (argument, none)
    grammar.names.filterMap fun (name, switch) =>
      if Text.startsWith lead name then some (name, switch, attached) else none
  else
    grammar.names.filterMap fun (name, switch) =>
      if name = argument.take 2 then some (name, switch, some ⟨false, argument.drop 2⟩)
      else if Text.startsWith argument name then some (name, switch, none)
      else none

/-- A number below zero is no switch. -/
def isNegativeNumber : Text → Bool
  | .scalar '-' :: number =>
      let whole := number.takeWhile CodePoint.isDigit
      match number.drop whole.length with
      | [] => !whole.isEmpty
      | .scalar '.' :: places => !places.isEmpty && places.all CodePoint.isDigit
      | _ => false
  | _ => false

/-- A name with a value after an equals sign. -/
private def marked? (grammar : Grammar) (argument : Text) : Option Kind := do
  let (name, value) ← Text.cut "=" argument
  let switch ← grammar.switch? name
  return .switch switch name (some ⟨true, value⟩)

/-- What an argument before the separator is taken for. -/
def kindOf (grammar : Grammar) (argument : Text) : Except UsageFault Kind :=
  if argument.head? ≠ some dash then .ok .plain
  else
    match grammar.switch? argument with
    | some switch => .ok (.switch switch argument none)
    | none =>
        if argument.length = 1 then .ok .plain
        else
          match grammar.marked? argument, grammar.readings argument with
          | some kind, _ => .ok kind
          | none, [(name, switch, attached)] => .ok (.switch switch name attached)
          | none, [] =>
              if isNegativeNumber argument || Text.contains " " argument then .ok .plain
              else .ok .unknownSwitch
          | none, several => .error (.ambiguous argument (several.map (·.1)))

/-- All arguments with their kinds; after the separator all of them are plain. -/
def kinds (grammar : Grammar) : List Text → Except UsageFault (List (Text × Kind))
  | [] => .ok []
  | argument :: rest =>
      if argument = separator then
        .ok ((argument, .separator) :: rest.map fun plain => (plain, .plain))
      else do
        let kind ← grammar.kindOf argument
        return (argument, kind) :: (← grammar.kinds rest)

end Grammar

end Stencil.CommandLine
