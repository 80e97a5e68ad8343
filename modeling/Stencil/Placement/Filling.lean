import Stencil.Session.Rendering
import Stencil.Session.Storage

/-!
# Filling

Files that were put into a target are rendered in their places.  What cannot be
read or written is skipped with a warning, and the rest is still filled.  The
results are the warnings for the journal.
-/

namespace Stencil.Placement

open Stencil.Action

def skipping (kind path : Text) (failure : Failure) : Text :=
  ("Skipping " : Text) ++ kind ++ (" " : Text) ++ path ++ (": " : Text) ++ failure.message

def skipped (kind path : Text) (failure : Failure) : Action (List Text) := do
  let warning := skipping kind path failure
  printWarning warning
  return [warning]

def unrendered (path warning : Text) : Text :=
  ("File " : Text) ++ path ++ (" was left unrendered: " : Text) ++ warning

/-- Renders a text and writes it back, or what is left of it. -/
def rewrite (path text : Text) (vars : Variables) : Action (List Text) := do
  let rendered ← render text vars
  let warnings := (rendered.warning?.map (unrendered path)).toList
  orElseIf Failure.isOfSystem
    (do Storage.write path rendered.content; return warnings)
    fun failure => return warnings ++ (← skipped "file" path failure)

/-- Files that are no text, and texts that are no templates, are left alone. -/
def fillFile (path : Text) (vars : Variables) : Action (List Text) := do
  if (FilePath.ofText path).isBinary then return []
  else
    match ← attempt (Storage.readText path) with
    | .ok text => if Template.hasPlaceholder text then rewrite path text vars else return []
    | .error failure =>
        if failure.isOfSystem || failure.isUndecodable then skipped "file" path failure
        else throw failure

/-- Fills an item of a directory; `descend` fills a directory. -/
def fillItem (descend : Text → Action (List Text)) (directory : FilePath) (vars : Variables)
    (name : Text) : Action (List Text) := do
  let path := (directory.child name).text
  match ← attempt (Storage.item path) with
  | .ok .directory => descend path
  | .ok (.file _) => fillFile path vars
  | .ok (.link _) => return []
  | .error failure =>
      if failure.isOfSystem then skipped "item" path failure else throw failure

/-- Fills the items of a directory in the order of their names. -/
def fillItems (descend : Text → Action (List Text)) (vars : Variables) (path : Text) :
    Action (List Text) := do
  match ← attempt (Storage.names path) with
  | .ok names => return (← names.mapM (fillItem descend (.ofText path) vars)).flatten
  | .error failure =>
      if failure.isOfSystem then skipped "directory" path failure else throw failure

/-- No path is longer than the longest, so nothing lies deeper than the depth it allows. -/
def fillDirectory (vars : Variables) : Nat → Text → Action (List Text)
  | 0 => fillItems (fun _ => return []) vars
  | depth + 1 => fillItems (fillDirectory vars depth) vars

def fillTree (depth : Nat) (path : Text) (vars : Variables) : Action (List Text) :=
  fillDirectory vars depth path

/-- Fills what is at a path: a file, or the files of a directory. -/
def fill (path : Text) (vars : Variables) : Action (List Text) := do
  if ← Storage.isDirectory (FilePath.ofText path).text then fillTree FileTree.longestPath path vars
  else fillFile path vars

end Stencil.Placement
