import Stencil.CommandLine.Grammar

/-!
# Reading command lines

Arguments are matched from left to right.  A reading lists what was given, as
far as the arguments can be matched, and what belongs to nothing.
-/

namespace Stencil.CommandLine

/-- What is given for a parameter, under the label that faults name it by. -/
structure Given where
  parameter : Parameter
  label : Text
  values : List Text
  deriving Repr

structure Reading where
  given : List Given
  others : List Text
  /-- Why the rest cannot be matched. -/
  fault : Option UsageFault
  deriving Repr

namespace Reading

private def stop (fault : UsageFault) : Reading := ⟨[], [], some fault⟩

private def add (given : List Given) (others : List Text) (reading : Reading) : Reading :=
  { reading with given := given ++ reading.given, others := others ++ reading.others }

end Reading

abbrev Arguments := List (Text × Kind)

namespace Grammar

private def isPlain : Text × Kind → Bool
  | (_, .plain) => true
  | _ => false

private def isSeparator : Text × Kind → Bool
  | (_, .separator) => true
  | _ => false

/-- The free argument at the start of arguments, and what follows it. -/
private def takeFree (free : Free) (arguments : Arguments) : Option (Given × Arguments) :=
  match arguments.dropWhile isSeparator with
  | first :: rest =>
      if !isPlain first then none
      else if free.takesRest then some (⟨free.parameter, free.label, arguments.map (·.1)⟩, [])
      else some (⟨free.parameter, free.label, [first.1]⟩, rest.dropWhile isSeparator)
  | [] => none

/-- Several short switches in one argument; the last one may take what is left as its value. -/
private def unpack (grammar : Grammar) (switch : Switch) (name : Text) :
    Nat → Attached → Except UsageFault (List Given × List Text × Option Switch)
  | 0, attached => .error (.surplus switch.label attached.value)
  | fuel + 1, attached =>
      if switch.takesValue then
        .ok ([⟨switch.parameter, switch.label, [attached.value]⟩], [], none)
      else
        match attached.value with
        | [] => .error (.surplus switch.label [])
        | c :: rest =>
            if Text.startsWith separator name || attached.isMarked || decide (c = dash) then
              .error (.surplus switch.label attached.value)
            else
              let given : Given := ⟨switch.parameter, switch.label, []⟩
              match grammar.switch? [dash, c], rest with
              | none, _ => .ok ([given], [dash :: attached.value], none)
              | some next, [] => .ok ([given], [], some next)
              | some next, .scalar '=' :: value => do
                  let (more, others, last) ← unpack grammar next [dash, c] fuel ⟨true, value⟩
                  return (given :: more, others, last)
              | some next, value => do
                  let (more, others, last) ← unpack grammar next [dash, c] fuel ⟨false, value⟩
                  return (given :: more, others, last)

/-- The switches of one argument; the last one may still need the next argument. -/
private def switchesOf (grammar : Grammar) (switch : Switch) (name : Text) :
    Option Attached → Except UsageFault (List Given × List Text × Option Switch)
  | none => .ok ([], [], some switch)
  | some attached => unpack grammar switch name (attached.value.length + 1) attached

/-- Matches arguments; `free` is the free argument as long as it was not given. -/
private def readFrom (grammar : Grammar) (free : Option Free) : Nat → Arguments → Reading
  | 0, _ => ⟨[], [], none⟩
  | _, [] => ⟨[], [], none⟩
  | fuel + 1, (argument, .unknownSwitch) :: rest =>
      (readFrom grammar free fuel rest).add [] [argument]
  | fuel + 1, (_, .switch switch name attached) :: rest =>
      match switchesOf grammar switch name attached with
      | .error fault => .stop fault
      | .ok (given, others, none) => (readFrom grammar free fuel rest).add given others
      | .ok (given, others, some last) =>
          if !last.takesValue then
            (readFrom grammar free fuel rest).add (given ++ [⟨last.parameter, last.label, []⟩]) others
          else
            match rest with
            | (value, .plain) :: rest =>
                (readFrom grammar free fuel rest).add
                  (given ++ [⟨last.parameter, last.label, [value]⟩]) others
            | _ => .stop (.noValue last.label)
  | fuel + 1, (argument, kind) :: rest =>
      match free.bind fun free => takeFree free ((argument, kind) :: rest) with
      | some (given, rest) => (readFrom grammar none fuel rest).add [given] []
      | none => (readFrom grammar free fuel rest).add [] [argument]

/-- What a command line gives for the parameters of a grammar. -/
def read (grammar : Grammar) (arguments : List Text) : Reading :=
  match grammar.kinds arguments with
  | .error fault => .stop fault
  | .ok arguments => readFrom grammar grammar.free arguments.length arguments

end Grammar

end Stencil.CommandLine
