import Stencil.Library.Basic
import Stencil.Project

/-!
# Workspaces

The root of a workspace is the nearest directory above that holds a repository.
Templates are in a directory of it, unless its file or the settings name
another one.
-/

namespace Stencil.Workspace

open Stencil.Action

def marker : Text := ".git"

/-- Whether a place holds a repository: something is at its marker, links followed. -/
def isMarked (place : Location) : Action Bool :=
  passes (fun _ => true) (place.path.child marker).text

/-- The nearest place with a marker, names given from the last one on.  The root of all
directories is looked at, too, but it is the answer either way. -/
def rootAbove : List Text → Action FilePath
  | [] => do
      let _ ← isMarked []
      return Location.path []
  | name :: above => do
      let place := (name :: above).reverse
      if ← isMarked place then return Location.path place else rootAbove above

/-- The root of the workspace that a directory is in, or the root of all directories. -/
def root (start : FilePath) : Action FilePath := do
  rootAbove (← resolve start.text).reverse

/-- What the file of a workspace holds, if it is a mapping. -/
def settings (root : FilePath) : Action (Option Value) := do
  let path := root.child Project.workspaceFile
  if ← isFile path.text then
    match ← DataFiles.readYaml path with
    | .map entries => return some (.map entries)
    | _ => return none
  else return none

/-! ## The directory of templates -/

def templatesKey : Text := "templatesPath"

def templatesFolder : Text := "templates"

def configured (root : FilePath) : Value → Action FilePath
  | .text text => do
      let path := root.child text
      if ← isDirectory path.text then return path
      else
        throw (.templates (("Templates path specified in toolkit.yaml does not exist: " : Text) ++
          path.text))
  | other => throw (.noPath other)

def usual (root : FilePath) : Action FilePath := do
  let path := root.child templatesFolder
  if ← isDirectory path.text then return path
  else
    throw (.templates (("Templates folder not found at " : Text) ++ path.text ++
      (".\nEither create a 'templates' folder or specify templatesPath in toolkit.yaml" : Text)))

/-- The templates of the workspace that a directory is in. -/
def templates (start : FilePath) : Action FilePath := do
  let root ← root start
  match ((← settings root).bind (·.get? templatesKey)).filter Value.isTrue with
  | some value => configured root value
  | none => usual root

/-- The templates that settings name, or those of the workspace. -/
def templatesFor (given : Settings) (start : FilePath) : Action FilePath := do
  match given.templatesPath with
  | some path =>
      let place := (← resolve path.text).path
      if ← isDirectory place.text then return place
      else
        throw (.templates (("Templates path does not exist: " : Text) ++ place.text))
  | none => templates start

end Stencil.Workspace
