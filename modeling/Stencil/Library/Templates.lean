import Stencil.Library.Manifests

/-!
# Templates of a library

A template is a directory with a manifest.  Templates are searched for in
order, and not below other templates.
-/

namespace Stencil.Templates

open Stencil.Action

/-- Directories that hold no templates. -/
def isSkipped (name : Text) : Bool :=
  decide (name.head? = some (.scalar '.')) || decide (name = ("node_modules" : Text))

def subdirectories (directory : FilePath) : Action (List Text) := do
  (← namesIn directory.text).filterM fun name => isDirectory (directory.child name).text

/-- A directory by its path, if it is a template, or else the templates below it. -/
def listedIn (descend : FilePath → List Text → Action (List Text)) (directory : FilePath)
    (path : List Text) (name : Text) : Action (List Text) := do
  let directory := directory.child name
  let path := path ++ [name]
  if ← isFile (directory.child Manifests.fileName).text then return [Text.joinWith "/" path]
  else descend directory path

def listedBelow (descend : FilePath → List Text → Action (List Text)) (directory : FilePath)
    (path : List Text) : Action (List Text) := do
  match ← attempt (subdirectories directory) with
  | .ok names =>
      return (← (names.filter (!isSkipped ·)).mapM (listedIn descend directory path)).flatten
  | .error failure =>
      if failure.isOfSystem then
        printWarning (("Failed to read templates directory " : Text) ++ directory.text ++
          (": " : Text) ++ failure.message)
        return []
      else throw failure

/-- No path is longer than the longest, so nothing lies deeper than the depth it allows. -/
def below : Nat → FilePath → List Text → Action (List Text)
  | 0 => listedBelow fun _ _ => return []
  | depth + 1 => listedBelow (below depth)

/-- The templates below a directory, by their paths in it. -/
def listed (root : FilePath) : Action (List Text) := do
  if ← isDirectory root.text then below FileTree.longestPath root [] else return []

end Stencil.Templates
