import Stencil.Request
import Stencil.Scaffold.Entry

/-!
# Scaffolding

A request for a new project or for a feature is checked first; nothing is
written if the check fails.  Every failure ends in an outcome that tells it.
-/

namespace Stencil

namespace Scaffold

open Stencil.Action

/-- What a library can be asked for: a new project, or a feature of one that has to be there. -/
inductive Operation where
  | project (request : ProjectRequest)
  | feature (request : FeatureRequest)

namespace Operation

def kind : Operation → Kind
  | .project _ => .boilerplate
  | .feature _ => .feature

def templateName : Operation → Text
  | .project request => request.templateFolder
  | .feature request => request.templateFolder

def entryName : Operation → Text
  | .project request => request.boilerplate
  | .feature request => request.feature

/-- The directory that an operation works on. -/
def target : Operation → Action FilePath
  | .project request =>
      return (← absolute (.ofText request.targetFolder)).child request.projectName
  | .feature request => return (← resolve (FilePath.ofText request.projectPath).text).path

/-- The variables of a request, and those that tell of its target. -/
def vars (target : FilePath) : Operation → Variables
  | .project request =>
      Keyed.update request.vars
        [("projectName", .text request.projectName), ("packageName", .text request.packageName)]
  | .feature request =>
      Keyed.update request.vars
        [("projectName", .text target.name), ("appPath", .text target.text),
          ("appName", .text target.name)]

/-- What is wrong with a target: a project has to be new, and a feature needs its project. -/
def targetFault? (target : FilePath) : Operation → Action (Option Text)
  | .project _ => do
      if ← Storage.exists? target.text then
        return some (("Directory " : Text) ++ target.text ++ (" already exists" : Text))
      else return none
  | .feature _ => do
      if ← Storage.exists? target.text then return none
      else
        return some (("Target directory " : Text) ++ target.text ++
          (" does not exist. Please create the parent directory first." : Text))

/-- The job of an operation, unless its check or the one of the target fails. -/
def prepare (library : Library) (operation : Operation) : Action (Except Text Generator.Job) := do
  let target ← operation.target
  let template := library.template operation.templateName
  let preflight ← Manifests.preflight library.suffix template operation.kind.sectionName
    (some operation.entryName)
  if !preflight.isValid then
    return .error (("Template validation failed: " : Text) ++ preflight.describe)
  else
    match ← operation.targetFault? target with
    | some message => return .error message
    | none =>
        match ← findEntry template operation.kind operation.entryName with
        | .error message => return .error message
        | .ok entry => return .ok ⟨library, entry, template, target, operation.vars target⟩

/-- Applies the entry of an operation, if nothing speaks against it. -/
def apply (library : Library) (operation : Operation) : Action Outcome := do
  match ← operation.prepare library with
  | .error message => return .failure message []
  | .ok job => applyEntry operation.kind job

def perform (library : Library) (operation : Operation) : Action Outcome := do
  match ← attempt (operation.apply library) with
  | .ok outcome => return outcome
  | .error failure =>
      return .failure (("Error scaffolding " : Text) ++ operation.kind.name ++ (": " : Text) ++
        failure.message) []

end Operation

/-- A new project; nothing may be at its place. -/
def project (library : Library) (request : ProjectRequest) : Action Outcome :=
  (Operation.project request).perform library

/-- A feature of a project, which has to be there. -/
def feature (library : Library) (request : FeatureRequest) : Action Outcome :=
  (Operation.feature request).perform library

end Scaffold

end Stencil
