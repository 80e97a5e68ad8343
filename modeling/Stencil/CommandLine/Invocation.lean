import Stencil.CommandLine.Assignment
import Stencil.CommandLine.Reading
import Stencil.Keyed
import Stencil.Value.Basic

/-!
# Invocations

What a command line asks for.  The program has four commands; each of them has
a grammar of its own, which reads what follows the name of the command.
-/

namespace Stencil.CommandLine

inductive Command where
  | list
  | create (name : Text) (vars : Variables)
  | extend (name project : Text) (vars : Variables)
  | featuresOf (project : Text)
  | featuresIn (template : Text)

structure Invocation where
  templates : Option Text
  isVerbose : Bool
  command : Command

/-- Why a command line asks for nothing. -/
inductive Refusal where
  | help (program : Text)
  | usage (program : Text) (fault : UsageFault)
  | value (fault : Yaml.Fault)

/-! ## Grammars -/

def helpSwitch : Switch := ⟨.help, ["-h", "--help"], false⟩

def variableSwitch : Switch := ⟨.variable, ["--var"], true⟩

def projectSwitch : Switch := ⟨.project, ["--project", "-p"], true⟩

def templateSwitch : Switch := ⟨.template, ["--template"], true⟩

def nameArgument : Free := ⟨.name, "name", false⟩

def programName : Text := "scaffoldkit"

def mainGrammar : Grammar :=
  { program := programName
    free := some ⟨.command, "command", true⟩
    switches :=
      [helpSwitch, ⟨.templates, ["--templates", "-t"], true⟩, ⟨.verbose, ["--verbose", "-v"], false⟩]
    required := []
    alternatives := [] }

def commandNames : List Text := ["list", "boilerplate", "feature", "methods"]

private def grammarOf (command : Text) (free : Option Free) (switches : List Switch)
    (required alternatives : List Parameter) : Grammar :=
  ⟨programName ++ (" " : Text) ++ command, free, helpSwitch :: switches, required, alternatives⟩

def listGrammar : Grammar := grammarOf "list" none [] [] []

def createGrammar : Grammar := grammarOf "boilerplate" (some nameArgument) [variableSwitch] [] []

def extendGrammar : Grammar :=
  grammarOf "feature" (some nameArgument) [projectSwitch, variableSwitch] [.project] []

def featuresGrammar : Grammar :=
  grammarOf "methods" none [projectSwitch, templateSwitch] [] [.project, .template]

/-! ## Values -/

/-- What was given so far: labels and values by parameter, and the variables. -/
structure Collected where
  labels : List (Parameter × Text)
  values : List (Parameter × Text)
  vars : Variables

namespace Collected

def empty : Collected := ⟨[], [], []⟩

def has (collected : Collected) (parameter : Parameter) : Bool :=
  (collected.labels.lookup parameter).isSome

def value? (collected : Collected) (parameter : Parameter) : Option Text :=
  collected.values.lookup parameter

def value (collected : Collected) (parameter : Parameter) : Text :=
  (collected.value? parameter).getD []

private def assignment (program : Text) (given : Given) (raw : Text) :
    Except Refusal Assignment :=
  match Assignment.parse raw with
  | .ok assignment => .ok assignment
  | .error (.noKey raw) =>
      .error (.usage program (.refused given.label (AssignmentFault.noKey raw).message))
  | .error (.value fault) =>
      if fault.isOfValue then
        .error (.usage program
          (.refused given.label (("invalid parse_var value: " : Text) ++ raw.quoted)))
      else .error (.value fault)

private def addValue (program : Text) (collected : Collected) (given : Given) :
    Except Refusal Collected := do
  let collected := { collected with
    labels := Keyed.put given.parameter given.label collected.labels }
  match given.values with
  | [] => return collected
  | raw :: _ =>
      if given.parameter = .variable then
        let assignment ← assignment program given raw
        return { collected with
          vars := Keyed.put assignment.name assignment.value collected.vars }
      else
        return { collected with values := Keyed.put given.parameter raw collected.values }

/-- The label of another switch that stands for the same. -/
private def conflict? (grammar : Grammar) (collected : Collected) (parameter : Parameter) :
    Option Text :=
  if grammar.alternatives.contains parameter then
    (grammar.alternatives.filter (· ≠ parameter)).findSome? fun other =>
      collected.labels.lookup other
  else none

private def add (grammar : Grammar) (collected : Collected) (given : Given) :
    Except Refusal Collected := do
  if given.parameter = .help then throw (.help grammar.program)
  let updated ← addValue grammar.program collected given
  match conflict? grammar collected given.parameter with
  | some other => throw (.usage grammar.program (.conflict given.label other))
  | none => return updated

/-- The labels of parameters that have to be given and were not. -/
private def missing (grammar : Grammar) (collected : Collected) : List Text :=
  let free := grammar.free.toList.filter fun free => !collected.has free.parameter
  let switches := grammar.switches.filter fun switch =>
    grammar.required.contains switch.parameter && !collected.has switch.parameter
  free.map (·.label) ++ switches.map Switch.label

private def completed (grammar : Grammar) (collected : Collected) : Except Refusal Collected :=
  match missing grammar collected with
  | [] =>
      let labels := (grammar.switches.filter fun switch =>
        grammar.alternatives.contains switch.parameter).map Switch.label
      if !labels.isEmpty && !grammar.alternatives.any collected.has then
        .error (.usage grammar.program (.noneOf labels))
      else .ok collected
  | labels => .error (.usage grammar.program (.missing labels))

/-- All that a reading gives, if it is complete; `others` are left to the caller. -/
def ofReading (grammar : Grammar) (reading : Reading) : Except Refusal Collected := do
  let collected ← reading.given.foldlM (add grammar) empty
  match reading.fault with
  | some fault => throw (.usage grammar.program fault)
  | none => completed grammar collected

end Collected

/-! ## Commands -/

/-- A command, and the arguments that belong to nothing. -/
private def readCommand (grammar : Grammar) (arguments : List Text)
    (make : Collected → Command) : Except Refusal (Command × List Text) := do
  let reading := grammar.read arguments
  let collected ← Collected.ofReading grammar reading
  return (make collected, reading.others)

private def featuresCommand (collected : Collected) : Command :=
  match collected.value? .project with
  | some project => .featuresOf project
  | none => .featuresIn (collected.value .template)

/-- The command of a name, which is followed by arguments. -/
def Command.read : List Text → Except Refusal (Command × List Text)
  | [] => .error (.usage programName (.missing ["command"]))
  | name :: arguments =>
      match commandNames.idxOf? name with
      | some 0 => readCommand listGrammar arguments fun _ => .list
      | some 1 => readCommand createGrammar arguments fun collected =>
          .create (collected.value .name) collected.vars
      | some 2 => readCommand extendGrammar arguments fun collected =>
          .extend (collected.value .name) (collected.value .project) collected.vars
      | some _ => readCommand featuresGrammar arguments featuresCommand
      | none => .error (.usage programName (.unknownCommand name commandNames))

/-- What a whole command line asks for. -/
def Invocation.read (arguments : List Text) : Except Refusal Invocation := do
  let reading := mainGrammar.read arguments
  let collected ← Collected.ofReading mainGrammar reading
  let words := (reading.given.filter (·.parameter = .command)).flatMap (·.values)
  let (command, others) ← Command.read words
  match reading.others ++ others with
  | [] => return ⟨collected.value? .templates, collected.has .verbose, command⟩
  | unrecognized => throw (.usage programName (.unrecognized unrecognized))

end Stencil.CommandLine
