import Stencil.Session.DataFiles

/-!
# Projects

A project remembers the template that it was made from, in a file of its own or
in the file of its workspace.  The file of the project goes first.
-/

namespace Stencil.Project

open Stencil.Action

def projectFile : Text := "project.json"

def workspaceFile : Text := "toolkit.yaml"

def templateKey : Text := "sourceTemplate"

/-- The template of a project, and the file that names it. -/
structure Source where
  template : Text
  file : Text
  deriving DecidableEq, Repr

/-! ## Looking up -/

def unread (path : FilePath) (failure : Failure) : Failure :=
  .project (("Failed to read " : Text) ++ path.text ++ (": " : Text) ++ failure.message)

def unknown (root : FilePath) : Failure :=
  .project (Text.joinWith "\n"
    [("No project configuration found at " : Text) ++ root.text ++ ("." : Text),
      "",
      "For monorepo projects, ensure project.json exists with a sourceTemplate field.",
      "For single-project workspaces, create toolkit.yaml:",
      "",
      "    sourceTemplate: your-template-name",
      ""])

/-- The template that a value names, if it names one at all. -/
def sourceIn (file : Text) (value : Value) : Action (Option Source) :=
  match (value.get? templateKey).filter Value.isTrue with
  | none => return none
  | some named =>
      match Schema.spelling named with
      | .ok template => return some ⟨template, file⟩
      | .error fault => throw (.invalid "ProjectConfig" [⟨["source_template"], fault, named⟩])

def readOwn (root : FilePath) : Action (Option Source) := do
  let path := root.child projectFile
  if ← isFile path.text then
    let entries ← orElseIf (fun failure => failure.isOfSystem || failure.isOfValue)
      (DataFiles.readJson path) fun failure => throw (unread path failure)
    sourceIn projectFile (.map entries)
  else return none

def readShared (root : FilePath) : Action (Option Source) := do
  let path := root.child workspaceFile
  if ← isFile path.text then
    let value ← orElseIf (fun _ => true)
      (DataFiles.readYaml path) fun failure => throw (unread path failure)
    sourceIn workspaceFile value
  else return none

/-- The template that the project in a directory was made from. -/
def source (directory : FilePath) : Action Source := do
  let root := (← resolve directory.text).path
  match ← readOwn root with
  | some source => return source
  | none =>
      match ← readShared root with
      | some source => return source
      | none => throw (unknown root)

/-! ## Recording -/

def fresh (folder name : Text) : List (Scalar × Value) :=
  [(.text "name", .text name), (.text "sourceRoot", .text (folder ++ ("/" : Text) ++ name)),
    (.text "projectType", .text "application")]

/-- Writes the template into the file of a project, and keeps what else the file holds. -/
def record (folder name template : Text) : Action FilePath := do
  let path := ((FilePath.ofText folder).child name).child projectFile
  let entries ←
    if ← isFile path.text then DataFiles.readJson path else pure (fresh folder name)
  DataFiles.writeJson path (.map (Entries.insert entries (.text templateKey) (.text template)))
  return path

end Stencil.Project
