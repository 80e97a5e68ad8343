import Stencil.Catalogue.Listing
import Stencil.Naming
import Stencil.Project
import Stencil.Scaffold.Basic

/-!
# New projects

A project is made from a boilerplate of a library.  The variables are checked
against its schema, the folder is named for the package, and the template is
recorded in the file of the project.
-/

namespace Stencil.Catalogue

open Stencil.Action

def packageKey : Text := "packageName"

def appKey : Text := "appName"

/-- The name of the package, or of the app where no package is named. -/
def packageName? (vars : Variables) : Option Text :=
  let given (key : Text) := (vars.lookup key).filter Value.isTrue
  ((given packageKey).orElse fun _ => given appKey).map Value.display

/-- What is asked for, with the variables that tell of the package and the template. -/
def request (boilerplate : Boilerplate) (package : Text) (vars : Variables) :
    Checked ProjectRequest :=
  let folder := Naming.stripScope package
  let vars := Keyed.update vars
    [(packageKey, .text package), (appKey, .text folder),
      (Project.templateKey, .text boilerplate.template)]
  ProjectRequest.check (.ofFields
    [("project_name", .text folder), ("package_name", .text package),
      ("target_folder", .text boilerplate.targetFolder),
      ("template_folder", .text boilerplate.template),
      ("boilerplate_name", .text boilerplate.name), ("variables", .ofFields vars)])

/-- Records the template of a new project; the outcome is warned if that fails. -/
def recorded (boilerplate : Boilerplate) (folder : Text) (outcome : Outcome) :
    Action Outcome := do
  let recording : Action Outcome := do
    let _ ← Project.record boilerplate.targetFolder folder boilerplate.template
    return outcome
  orElseIf (fun failure => failure.isOfSystem || failure.isOfValue) recording fun failure => do
    let warning := ("Failed to update project.json with sourceTemplate: " : Text) ++ failure.message
    printWarning warning
    return { outcome with warnings := outcome.warnings ++ [warning] }

def unknown (name : Text) (boilerplates : List Boilerplate) : Outcome :=
  .failure (("Boilerplate '" : Text) ++ name ++ ("' not found. Available boilerplates: " : Text) ++
    Text.joinWith ", " (boilerplates.map (·.name))) []

/-- The first boilerplate of a name with what is asked for, or the outcome that says why there is
no such thing. -/
def order (library : Library) (name : Text) (vars : Variables) :
    Action (Except Outcome (Boilerplate × ProjectRequest)) := do
  let boilerplates ← boilerplates library
  match boilerplates.find? (·.name = name) with
  | none => return .error (unknown name boilerplates)
  | some boilerplate =>
      match ← lift ((boilerplate.schema.resolve vars).mapError .schema) with
      | .error issues =>
          return .error (.failure (("Validation failed: " : Text) ++
            Text.joinWith ", " (issues.map Issue.line)) [])
      | .ok vars =>
          match packageName? vars with
          | none =>
              return .error (.failure "Missing required parameter: packageName or appName" [])
          | some package =>
              let request ← lift ((request boilerplate package vars).mapError
                (.invalid ProjectRequest.recordName))
              return .ok (boilerplate, request)

/-- A new project from the first boilerplate of a name. -/
def make (library : Library) (name : Text) (vars : Variables) : Action Outcome := do
  match ← order library name vars with
  | .error outcome => return outcome
  | .ok (boilerplate, request) =>
      let outcome ← Scaffold.project library request
      if outcome.success then recorded boilerplate request.projectName outcome else return outcome

end Stencil.Catalogue
