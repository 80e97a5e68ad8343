import Stencil.Catalogue.Creation
import Stencil.Catalogue.Features
import Stencil.CommandLine.Invocation
import Stencil.Session.Tables
import Stencil.Workspace

/-!
# Running command lines

A command line is run in a session, with a library of its own: no manifest that
was read before counts, and no planned fault.  It ends with a code, and with a
complaint if it asks for nothing.
-/

namespace Stencil.CommandLine

open Stencil.Action

/-! ## Results -/

/-- Tells an outcome; warnings were told where they arose. -/
def report (outcome : Outcome) : Action Bool := do
  if outcome.success then
    if !outcome.created.isEmpty || !outcome.existing.isEmpty then
      printFileTable filesTitle outcome.created outcome.existing
    printSuccess outcome.message
    return true
  else
    printError outcome.message
    return false

private def boilerplateRow (boilerplate : Boilerplate) : List Text :=
  [boilerplate.name, boilerplate.template, boilerplate.targetFolder,
    boilerplate.description.getD []]

def showBoilerplates (library : Library) : Action Bool := do
  match ← Catalogue.boilerplates library with
  | [] => printWarning (("No boilerplates found under " : Text) ++ library.root.text)
  | found =>
      printTable ⟨"Boilerplates", ["Name", "Template", "Target", "Description"],
        found.map boilerplateRow⟩
  return true

/-- Variables that have to be given are marked by a star. -/
private def variableNames (schema : VariableSchema) : Text :=
  Text.joinWith ", " (schema.properties.map fun (name, _) =>
    if schema.required.contains name then name ++ ("*" : Text) else name)

private def featureRow (entry : Entry) : List Text :=
  [entry.name, variableNames entry.schema, entry.description.getD []]

def showFeatures : List Entry → Action Bool
  | [] => do
      printWarning "No scaffolding methods available"
      return true
  | features => do
      printTable ⟨"Scaffolding methods", ["Name", "Variables", "Description"],
        features.map featureRow⟩
      return true

/-! ## Commands -/

def Command.run (library : Library) : Command → Action Bool
  | .list => showBoilerplates library
  | .create name vars => do report (← Catalogue.make library name vars)
  | .extend name project vars => do
      report (← Catalogue.apply library (.ofText project) name vars)
  | .featuresOf project => do showFeatures (← Catalogue.featuresFor library (.ofText project))
  | .featuresIn template => do showFeatures (← Catalogue.features library template)

/-- The settings of the environment, changed by what was given. -/
def Invocation.settings (invocation : Invocation) (environment : List (Text × Text)) : Settings :=
  let settings := Settings.ofEnvironment environment
  let given := (invocation.templates.filter fun path => !path.isEmpty).map FilePath.ofText
  { settings with
    templatesPath := given.orElse fun _ => settings.templatesPath
    verbose := settings.verbose || invocation.isVerbose }

/-- Failures that are told, instead of ending the program with themselves. -/
def isTold : Failure → Bool
  | .templates _ | .project _ | .manifest _ | .method _ => true
  | _ => false

def tell (failure : Failure) : Action Bool := do
  printError (("Error: " : Text) ++ failure.message)
  return false

/-- Whether an invocation did what it asks for. -/
def Invocation.run (invocation : Invocation) (environment : List (Text × Text)) : Action Bool := do
  let settings := invocation.settings environment
  modify fun s => { s with isVerbose := settings.verbose }
  orElseIf isTold
    (do
      let root ← Workspace.templatesFor settings (.ofText [])
      invocation.command.run ⟨root, settings⟩)
    tell

/-! ## Command lines -/

/-- The code that a command line ends with, and what it is refused for. -/
structure Ending where
  code : Nat
  complaint : Option Text

def Refusal.ending : Refusal → Action Ending
  | .help _ => return ⟨0, none⟩
  | .usage program fault =>
      return ⟨2, some (program ++ (": error: " : Text) ++ fault.message)⟩
  | .value fault => throw (.yaml fault)

/-- Nothing that the session remembers or plans has to do with an action. -/
def apart {α : Type} (action : Action α) : Action α := do
  let outer ← get
  modify fun s => { s with manifests := [], faults := [], interruptions := [] }
  let result ← attempt action
  modify fun s => { s with
    manifests := outer.manifests, faults := outer.faults, interruptions := outer.interruptions }
  lift result

def run (environment : List (Text × Text)) (arguments : List Text) : Action Ending :=
  match Invocation.read arguments with
  | .error refusal => refusal.ending
  | .ok invocation => do
      let isDone ← apart (invocation.run environment)
      return ⟨if isDone then 0 else 1, none⟩

end Stencil.CommandLine
