import Stencil.Library.Basic
import Stencil.Library.Templates
import Stencil.Project
import Stencil.Scaffold.Basic

/-!
# Features

A project takes the features of the template that it was made from.  The
template that a project names is a directory of the library, or part of the
name of a boilerplate.
-/

namespace Stencil.Catalogue

open Stencil.Action

/-- Whether a template is at a path, or has it as its last name. -/
def isNamed (wanted template : Text) : Bool :=
  decide (template = wanted) ||
    decide ((Text.splitOn FilePath.slash template).getLast? = some wanted)

def firstWithBoilerplate (library : Library) (wanted : Text) :
    List Text → Action (Option Text)
  | [] => return none
  | template :: others => do
      let entries := match ← Manifests.loadListed (library.template template) template with
        | some manifest => manifest.entries Sections.boilerplateName
        | none => []
      if entries.any fun entry => Text.contains wanted entry.name then return some template
      else firstWithBoilerplate library wanted others

/-- The template that a project means by a name. -/
def template? (library : Library) (wanted : Text) : Action (Option Text) := do
  let templates ← Templates.listed library.root
  match templates.find? (isNamed wanted) with
  | some template => return some template
  | none => firstWithBoilerplate library wanted templates

def template (library : Library) (wanted : Text) : Action Text := do
  match ← template? library wanted with
  | some template => return template
  | none => throw (.method (("Template not found for sourceTemplate: " : Text) ++ wanted))

def featuresIn (library : Library) (template : Text) : Action (List Entry) := do
  match ← Manifests.load (library.template template) with
  | some manifest => return manifest.entries Sections.featuresName
  | none => return []

/-- The features of a template. -/
def features (library : Library) (wanted : Text) : Action (List Entry) := do
  featuresIn library (← template library wanted)

/-- The features of the template that a project was made from. -/
def featuresFor (library : Library) (project : FilePath) : Action (List Entry) := do
  features library (← Project.source project).template

/-! ## Applying a feature -/

def noFeature (name : Text) (features : List Entry) : Failure :=
  let names := Text.joinWith ", " (features.map (·.name))
  .method (("Scaffold method '" : Text) ++ name ++ ("' not found. Available methods: " : Text) ++
    names.orIfEmpty "none")

/-- A success is followed by the instruction of the feature. -/
def instructed (entry : Entry) (vars : Variables) (outcome : Outcome) :
    Action Outcome := do
  match entry.instruction.filter fun instruction => !instruction.isEmpty with
  | some instruction =>
      if outcome.success then
        let advice ← renderIfTemplate instruction vars
        return { outcome with message := outcome.message ++ ("\n\n" : Text) ++ advice }
      else return outcome
  | none => return outcome

/-- Applies the first feature of a name to a project. -/
def apply (library : Library) (project : FilePath) (name : Text) (vars : Variables) :
    Action Outcome := do
  let place := (← resolve project.text).path
  let template ← template library (← Project.source place).template
  let features ← featuresIn library template
  match features.find? (·.name = name) with
  | none => throw (noFeature name features)
  | some entry =>
      printDetail (("Applying '" : Text) ++ name ++ ("' from " : Text) ++ template ++
        (" to " : Text) ++ place.text)
      let request ← lift ((FeatureRequest.check (.ofFields
        [("project_path", .text place.text), ("template_folder", .text template),
          ("feature_name", .text name), ("variables", .ofFields vars)])).mapError
        (.invalid FeatureRequest.recordName))
      instructed entry vars (← Scaffold.feature library request)

end Stencil.Catalogue
